import Mathlib.Data.List.Basic
import ScalarScript.Proofs.Text.Numerals
import ScalarScript.Text.Template

/-!
Templates filled all at once. Arguments are put in one after another, into a text that has the
earlier ones in it already. Where each opening brace of the template begins a placeholder and no
argument has one, this is the same as replacing all placeholders of the template at the same time.
-/

set_option autoImplicit false

namespace ScalarScript.Text

/-- `text` without its first `skip` characters, and with each placeholder, found from left to right,
replaced by its argument, in which no placeholder is looked for. -/
def fillAtOnceFrom (arguments : List (List Char)) (skip : Nat) : List Char → List Char
  | [] => []
  | c :: rest =>
    match skip with
    | k + 1 => fillAtOnceFrom arguments k rest
    | 0 =>
      match (List.range arguments.length).find? fun i => (placeholder i).isPrefixOf (c :: rest) with
      | some i =>
        arguments[i]?.getD [] ++ fillAtOnceFrom arguments ((placeholder i).length - 1) rest
      | none => c :: fillAtOnceFrom arguments 0 rest

def fillAtOnce (template : String) (arguments : List String) : String :=
  String.ofList (fillAtOnceFrom (arguments.map String.toList) 0 template.toList)

def occurrences (pattern text : List Char) : Nat :=
  text.tails.countP fun behind => pattern.isPrefixOf behind

inductive Piece where
  | char (c : Char)
  | place (i : Nat)
  deriving DecidableEq, Repr

namespace Piece

def spelled : Piece → List Char
  | .char c => [c]
  | .place i => placeholder i

def filledBelow (arguments : List (List Char)) (n : Nat) : Piece → List Char
  | .char c => [c]
  | .place i => if i < n then arguments[i]?.getD [] else placeholder i

/-- Only places begin with a brace, and there is an argument for each of them. -/
def Fits (n : Nat) : Piece → Prop
  | .char c => c ≠ '{'
  | .place i => i < n

instance (n : Nat) : (p : Piece) → Decidable (p.Fits n)
  | .char c => inferInstanceAs (Decidable (c ≠ '{'))
  | .place i => inferInstanceAs (Decidable (i < n))

def number? : Piece → Option Nat
  | .char _ => none
  | .place i => some i

def ofText : List Char → List Piece
  | [] => []
  | '{' :: d :: '}' :: rest => .place (digitValue d) :: ofText rest
  | c :: rest => .char c :: ofText rest

end Piece

section Placeholders

variable {i j : Nat} {rest : List Char}

theorem not_mem_toDigits {c : Char} (hc : isDigit c = false) (i : Nat) : c ∉ Nat.toDigits 10 i := by
  intro h
  rw [(digits_toDigits i).2 c h] at hc
  cases hc

theorem eq_of_prefix_append {c : Char} {xs ys : List Char} (hx : c ∉ xs) (hy : c ∉ ys)
    (h : xs ++ [c] <+: ys ++ c :: rest) : xs = ys := by
  induction xs generalizing ys with
  | nil =>
    cases ys with
    | nil => rfl
    | cons d ys =>
      obtain ⟨rfl, -⟩ := List.cons_prefix_cons.mp h
      exact absurd List.mem_cons_self hy
  | cons e xs ih =>
    cases ys with
    | nil =>
      obtain ⟨rfl, -⟩ := List.cons_prefix_cons.mp h
      exact absurd List.mem_cons_self hx
    | cons d ys =>
      obtain ⟨rfl, htail⟩ := List.cons_prefix_cons.mp h
      rw [List.mem_cons, not_or] at hx hy
      rw [ih hx.2 hy.2 htail]

theorem isPrefixOf_placeholder :
    (placeholder i).isPrefixOf (placeholder j ++ rest) = true ↔ i = j := by
  rw [List.isPrefixOf_iff_prefix]
  refine ⟨fun h => ?_, fun h => h ▸ List.prefix_append _ _⟩
  have hbrace (n : Nat) : '}' ∉ Nat.toDigits 10 n := not_mem_toDigits (by decide) n
  have htail : Nat.toDigits 10 i ++ ['}'] <+: Nat.toDigits 10 j ++ '}' :: rest := by
    simpa [placeholder] using h
  have hdigits := congrArg decimal (eq_of_prefix_append (hbrace i) (hbrace j) htail)
  rwa [decimal_toDigits, decimal_toDigits] at hdigits

theorem isPrefixOf_placeholder_cons {c : Char} (hc : c ≠ '{') :
    (placeholder i).isPrefixOf (c :: rest) = false := by
  simp [placeholder, List.isPrefixOf, Ne.symm hc]

theorem placeholder_eq (i : Nat) : placeholder i = '{' :: (Nat.toDigits 10 i ++ ['}']) := rfl

theorem brace_not_mem_digits (i : Nat) : '{' ∉ Nat.toDigits 10 i ++ ['}'] := by
  rw [List.mem_append, not_or]
  exact ⟨not_mem_toDigits (by decide) i, by decide⟩

end Placeholders

section OneAfterAnother

variable {i j : Nat} {new rest : List Char}

theorem replaceFrom_skip (pattern : List Char) (cs : List Char) :
    replaceFrom pattern new cs.length (cs ++ rest) = replaceFrom pattern new 0 rest := by
  induction cs with
  | nil => rfl
  | cons c cs ih => exact ih

theorem replaceFrom_append {cs : List Char} (h : '{' ∉ cs) :
    replaceFrom (placeholder i) new 0 (cs ++ rest) = cs ++ replaceFrom (placeholder i) new 0 rest := by
  induction cs with
  | nil => rfl
  | cons c cs ih =>
    rw [List.mem_cons, not_or] at h
    rw [List.cons_append, replaceFrom, isPrefixOf_placeholder_cons (Ne.symm h.1),
      if_neg Bool.false_ne_true, ih h.2, List.cons_append]

theorem replaceFrom_place (i j : Nat) (new rest : List Char) :
    replaceFrom (placeholder i) new 0 (placeholder j ++ rest) =
      (if i = j then new else placeholder j) ++ replaceFrom (placeholder i) new 0 rest := by
  have hprefix : (placeholder i).isPrefixOf (placeholder j ++ rest) = true ↔ i = j :=
    isPrefixOf_placeholder
  rw [placeholder_eq j, List.cons_append] at hprefix ⊢
  rw [replaceFrom]
  split
  · rename_i h
    obtain rfl := hprefix.mp h
    rw [if_pos rfl, placeholder_eq i, List.length_cons, Nat.add_sub_cancel, replaceFrom_skip]
  · rename_i h
    rw [if_neg (mt hprefix.mpr h), replaceFrom_append (brace_not_mem_digits j), List.cons_append]

variable {arguments : List (List Char)} {pieces : List Piece}

theorem replaceAll_filledBelow (hpieces : ∀ p ∈ pieces, p.Fits arguments.length)
    (harguments : ∀ a ∈ arguments, '{' ∉ a) (hnew : arguments[i]? = some new) :
    replaceAll (placeholder i) new (pieces.flatMap (Piece.filledBelow arguments i)) =
      pieces.flatMap (Piece.filledBelow arguments (i + 1)) := by
  unfold replaceAll
  induction pieces with
  | nil => rfl
  | cons p pieces ih =>
    rw [List.forall_mem_cons] at hpieces
    rw [List.flatMap_cons, List.flatMap_cons, ← ih hpieces.2]
    cases p with
    | char c =>
      have hc : '{' ∉ [c] := by simpa using Ne.symm hpieces.1
      exact replaceFrom_append hc
    | place j =>
      simp only [Piece.filledBelow]
      by_cases hlt : j < i
      · have hj : j < arguments.length := hpieces.1
        rw [if_pos hlt, if_pos (Nat.lt_succ_of_lt hlt), List.getElem?_eq_getElem hj,
          Option.getD_some]
        exact replaceFrom_append (harguments _ (List.getElem_mem hj))
      · rw [if_neg hlt, replaceFrom_place]
        by_cases heq : i = j
        · rw [if_pos heq, if_pos (by omega), ← heq, hnew, Option.getD_some]
        · rw [if_neg heq, if_neg (by omega)]

theorem filledBelow_zero (arguments : List (List Char)) :
    Piece.filledBelow arguments 0 = Piece.spelled := by
  funext p
  cases p <;> rfl

theorem fillFrom_filledBelow (hpieces : ∀ p ∈ pieces, p.Fits arguments.length)
    (harguments : ∀ a ∈ arguments, '{' ∉ a) (before later : List (List Char))
    (h : arguments = before ++ later) :
    fillFrom before.length (pieces.flatMap (Piece.filledBelow arguments before.length)) later =
      pieces.flatMap (Piece.filledBelow arguments arguments.length) := by
  induction later generalizing before with
  | nil => rw [fillFrom, h, List.append_nil]
  | cons new later ih =>
    have hnew : arguments[before.length]? = some new := by simp [h]
    have hnext := ih (before ++ [new]) (by simp [h])
    rw [List.length_append, List.length_singleton] at hnext
    rw [fillFrom, replaceAll_filledBelow hpieces harguments hnew, hnext]

end OneAfterAnother

section AtOnce

variable {arguments : List (List Char)} {pieces : List Piece}

theorem fillAtOnceFrom_skip (cs rest : List Char) :
    fillAtOnceFrom arguments cs.length (cs ++ rest) = fillAtOnceFrom arguments 0 rest := by
  induction cs with
  | nil => rfl
  | cons c cs ih => exact ih

theorem fillAtOnceFrom_char {c : Char} (hc : c ≠ '{') (rest : List Char) :
    fillAtOnceFrom arguments 0 (c :: rest) = c :: fillAtOnceFrom arguments 0 rest := by
  have hnone : (List.range arguments.length).find?
      (fun i => (placeholder i).isPrefixOf (c :: rest)) = none :=
    List.find?_eq_none.mpr fun i _ => by simp [isPrefixOf_placeholder_cons hc]
  rw [fillAtOnceFrom, hnone]

theorem fillAtOnceFrom_place {i : Nat} (hi : i < arguments.length) (rest : List Char) :
    fillAtOnceFrom arguments 0 (placeholder i ++ rest) =
      arguments[i]?.getD [] ++ fillAtOnceFrom arguments 0 rest := by
  have hfind : (List.range arguments.length).find?
      (fun j => (placeholder j).isPrefixOf (placeholder i ++ rest)) = some i := by
    refine List.find?_range_eq_some.mpr ⟨isPrefixOf_placeholder.mpr rfl, ?_, fun j hj => ?_⟩
    · exact List.mem_range.mpr hi
    · have hother : ¬(placeholder j).isPrefixOf (placeholder i ++ rest) = true :=
        mt isPrefixOf_placeholder.mp (Nat.ne_of_lt hj)
      simpa only [Bool.not_eq_true', Bool.not_eq_true] using hother
  rw [placeholder_eq, List.cons_append] at hfind ⊢
  rw [fillAtOnceFrom, hfind]
  dsimp only
  rw [placeholder_eq, List.length_cons, Nat.add_sub_cancel, fillAtOnceFrom_skip]

theorem fillAtOnceFrom_pieces (hpieces : ∀ p ∈ pieces, p.Fits arguments.length) :
    fillAtOnceFrom arguments 0 (pieces.flatMap Piece.spelled) =
      pieces.flatMap (Piece.filledBelow arguments arguments.length) := by
  induction pieces with
  | nil => rfl
  | cons p pieces ih =>
    rw [List.forall_mem_cons] at hpieces
    rw [List.flatMap_cons, List.flatMap_cons, ← ih hpieces.2]
    cases p with
    | char c => exact fillAtOnceFrom_char hpieces.1 _
    | place i =>
      have hi : i < arguments.length := hpieces.1
      simp only [Piece.filledBelow, if_pos hi]
      exact fillAtOnceFrom_place hi _

end AtOnce

section Counting

variable {i : Nat} {rest : List Char}

theorem occurrences_cons (pattern : List Char) (c : Char) :
    occurrences pattern (c :: rest) =
      occurrences pattern rest + if pattern.isPrefixOf (c :: rest) then 1 else 0 := by
  rw [occurrences, List.tails, List.countP_cons]
  rfl

theorem occurrences_append {cs : List Char} (h : '{' ∉ cs) :
    occurrences (placeholder i) (cs ++ rest) = occurrences (placeholder i) rest := by
  induction cs with
  | nil => rfl
  | cons c cs ih =>
    rw [List.mem_cons, not_or] at h
    rw [List.cons_append, occurrences_cons, isPrefixOf_placeholder_cons (Ne.symm h.1),
      if_neg Bool.false_ne_true, ih h.2, Nat.add_zero]

theorem occurrences_place (i j : Nat) (rest : List Char) :
    occurrences (placeholder i) (placeholder j ++ rest) =
      occurrences (placeholder i) rest + if j = i then 1 else 0 := by
  have hprefix : (placeholder i).isPrefixOf (placeholder j ++ rest) = true ↔ i = j :=
    isPrefixOf_placeholder
  rw [placeholder_eq j, List.cons_append] at hprefix ⊢
  simp only [occurrences_cons, occurrences_append (brace_not_mem_digits j), hprefix, eq_comm]

theorem occurrences_pieces {n : Nat} {pieces : List Piece} (hpieces : ∀ p ∈ pieces, p.Fits n)
    (i : Nat) : occurrences (placeholder i) (pieces.flatMap Piece.spelled) =
      (pieces.filterMap Piece.number?).count i := by
  induction pieces with
  | nil => rfl
  | cons p pieces ih =>
    rw [List.forall_mem_cons] at hpieces
    rw [List.flatMap_cons]
    cases p with
    | char c =>
      have hc : '{' ∉ (Piece.char c).spelled := by simpa [Piece.spelled] using Ne.symm hpieces.1
      rw [occurrences_append hc, ih hpieces.2]
      rfl
    | place j =>
      rw [Piece.spelled, occurrences_place, ih hpieces.2, List.filterMap_cons]
      simp only [Piece.number?, List.count_cons, beq_iff_eq]

end Counting

/-- Where only places begin with a brace, and no argument has one, it is the same to put arguments
in one after another and all at once. -/
theorem fill_eq_fillAtOnce {template : String} {arguments : List String} {pieces : List Piece}
    (htemplate : template.toList = pieces.flatMap Piece.spelled)
    (hpieces : ∀ p ∈ pieces, p.Fits arguments.length)
    (harguments : ∀ a ∈ arguments, '{' ∉ a.toList) :
    fill template arguments = fillAtOnce template arguments := by
  have hlength : (arguments.map String.toList).length = arguments.length := List.length_map _
  rw [← hlength] at hpieces
  have hone := fillFrom_filledBelow hpieces (List.forall_mem_map.mpr harguments) [] _ rfl
  rw [List.length_nil, filledBelow_zero] at hone
  rw [fill, fillAtOnce, htemplate, hone, fillAtOnceFrom_pieces hpieces]

example : fill "{0}{1}" ["{1}", "a"] = "aa" ∧ fillAtOnce "{0}{1}" ["{1}", "a"] = "{1}a" := by
  decide

end ScalarScript.Text
