import Mathlib.Data.List.TakeWhile
import ScalarScript.Proofs.Token.Cutting
import ScalarScript.Proofs.Tree.Places

/-!
Tokens written on lines of their own. How far a token reaches is settled by its own characters and
the end of the line after them, whether the token is faulty or not. So a text whose tokens are put
on lines, and whose whitespace is left out, is cut into the same tokens.
-/

set_option autoImplicit false

namespace ScalarScript

open Text

def Breaks (rest : List Char) : Prop := rest = [] ∨ ∃ more, rest = '\n' :: more

theorem Breaks.span_append {rest : List Char} (h : Breaks rest) {p : Char → Bool}
    (hp : p '\n' = false) {cs : List Char} (hcs : ∀ c ∈ cs, p c = true) :
    (cs ++ rest).takeWhile p = cs ∧ (cs ++ rest).dropWhile p = rest := by
  rw [List.takeWhile_append_of_pos hcs, List.dropWhile_append_of_pos hcs]
  rcases h with rfl | ⟨more, rfl⟩ <;> simp [hp]

def Lexeme.isGap (l : Lexeme) : Bool := l.token.kind == .whitespace

namespace Munch

/-- What is taken at the head of a text that begins with `c` is taken again before nothing or the
end of a line, with the same kind, value and fault. -/
def Steady (c : Char) (munch : List Char → Munch) : Prop :=
  ∀ rest, ∃ more, (munch rest).taken = c :: more ∧
    ∀ tail, Breaks tail → munch (more ++ tail) = { munch rest with rest := tail }

section Steady

variable {c : Char}

theorem steady_plain (kind : TokenKind) (c : Char) : Steady c (plain kind [c]) :=
  fun _ => ⟨[], rfl, fun _ _ => rfl⟩

theorem steady_bad (c : Char) : Steady c (bad c) := fun _ => ⟨[], rfl, fun _ _ => rfl⟩

theorem withEquals_of_breaks (alone followed : TokenKind) (c : Char) {tail : List Char}
    (h : Breaks tail) : withEquals alone followed c tail = plain alone [c] tail := by
  rcases h with rfl | ⟨more, rfl⟩ <;> rfl

theorem steady_withEquals (alone followed : TokenKind) (c : Char) :
    Steady c (withEquals alone followed c) := by
  intro rest
  unfold withEquals
  split
  · exact ⟨['='], rfl, fun _ _ => rfl⟩
  · exact ⟨[], rfl, fun tail h => withEquals_of_breaks alone followed c h⟩

theorem doubled_of_breaks (kind : TokenKind) (hc : c ≠ '\n') {tail : List Char}
    (h : Breaks tail) : doubled kind c tail = bad c tail := by
  rcases h with rfl | ⟨more, rfl⟩
  · rfl
  · exact if_neg hc.symm

theorem steady_doubled (kind : TokenKind) (hc : c ≠ '\n') : Steady c (doubled kind c) := by
  intro rest
  have hsingle : ∃ more, (bad c rest).taken = c :: more ∧
      ∀ tail, Breaks tail → doubled kind c (more ++ tail) = { bad c rest with rest := tail } :=
    ⟨[], rfl, fun tail h => doubled_of_breaks kind hc h⟩
  cases rest with
  | nil => exact hsingle
  | cons d rest =>
    by_cases hd : d = c
    · rw [doubled, if_pos hd]
      exact ⟨[c], rfl, fun tail _ => if_pos rfl⟩
    · rw [doubled, if_neg hd]
      exact hsingle

theorem body_taken (cs : List Char) {tail : List Char} (h : Breaks tail) :
    body ((body cs).taken ++ tail) = { body cs with rest := tail } := by
  fun_induction body cs with
  | case1 => rcases h with rfl | ⟨more, rfl⟩ <;> rfl
  | case2 rest b ih =>
    rw [List.cons_append, List.cons_append, body, ih]
  | case3 rest => rcases h with rfl | ⟨more, rfl⟩ <;> rfl
  | case4 c rest => rcases h with rfl | ⟨more, rfl⟩ <;> rfl
  | case5 c rest _ hq hline b ih =>
    rw [List.cons_append, body, ih]
    · simp [hq, hline, b]
    · simp [hq]

theorem steady_string : Steady '"' string := by
  intro rest
  refine ⟨(body rest).taken, rfl, fun tail h => ?_⟩
  rw [string, body_taken rest h]
  rfl

theorem steady_number (c : Char) : Steady c (number c) := by
  intro rest
  have hspan {tail : List Char} (h : Breaks tail) :=
    h.span_append (p := isDigit) rfl (List.all_eq_true.mp (List.all_takeWhile (l := rest)))
  refine ⟨rest.takeWhile isDigit, ?_, fun tail h => ?_⟩
  · unfold number
    dsimp only
    split <;> rfl
  · unfold number
    rw [(hspan h).1, (hspan h).2]
    dsimp only
    split <;> rfl

theorem steady_word (c : Char) : Steady c (word c) := by
  intro rest
  refine ⟨rest.takeWhile isIdentifierPart, rfl, fun tail h => ?_⟩
  have hspan := h.span_append (p := isIdentifierPart) rfl
    (List.all_eq_true.mp (List.all_takeWhile (l := rest)))
  rw [word, hspan.1, hspan.2]
  rfl

theorem steady_ofText (hblank : isBlank c = false) : Steady c (ofText c) := by
  have hline : c ≠ '\n' := by
    rintro rfl
    cases hblank
  refine ofText_cases ?_ ?_ ?_ ?_ ?_ ?_ ?_ (steady_bad c)
  · exact fun kind _ => steady_plain kind c
  · exact fun alone followed _ _ => steady_withEquals alone followed c
  · exact fun kind _ => steady_doubled kind hline
  · exact fun hc => hc ▸ steady_string
  · exact fun _ => steady_number c
  · exact fun hc => absurd hc (by simp [hblank])
  · exact fun _ => steady_word c

end Steady

def isGap (m : Munch) : Bool := m.kind == .whitespace

theorem isGap_lexeme (m : Munch) (position : Nat) : (m.lexeme position).isGap = m.isGap := rfl

theorem ofText_blank {c : Char} (h : isBlank c = true) (rest : List Char) :
    ofText c rest = whitespace c rest := by
  have hdigit : ¬isDigit c = true := by simp [isDigit_of_isBlank h]
  rw [ofText_of_not_mark (not_mark_of_true rfl h), if_neg hdigit, if_pos h]

theorem isBlank_of_not_isGap {c : Char} {rest : List Char} (h : (ofText c rest).isGap = false) :
    isBlank c = false := by
  cases hb : isBlank c with
  | false => rfl
  | true => rw [ofText_blank hb] at h; cases h

/-- What is no token of the structure of a text is whitespace without a fault, or is faulty. -/
def Noted (m : Munch) : Prop := m.kind.isSeparator = true → (m.isGap = true ↔ m.fault = none)

theorem noted_plain {kind : TokenKind} (hk : kind ≠ .bad) (taken rest : List Char) :
    (plain kind taken rest).Noted := by
  intro h
  have hgap : kind = .whitespace := by
    cases kind <;> first | rfl | exact absurd rfl hk | cases h
  exact iff_of_true (beq_iff_eq.mpr hgap) rfl

theorem noted_bad (c : Char) (rest : List Char) : (bad c rest).Noted :=
  fun _ => iff_of_false nofun nofun

theorem noted_withEquals {alone followed : TokenKind} (ha : alone ≠ .bad) (hf : followed ≠ .bad)
    (c : Char) (rest : List Char) : (withEquals alone followed c rest).Noted := by
  unfold withEquals
  split
  · exact noted_plain hf _ _
  · exact noted_plain ha _ _

theorem noted_doubled {kind : TokenKind} (hk : kind ≠ .bad) (c : Char) (rest : List Char) :
    (doubled kind c rest).Noted := by
  unfold doubled
  split
  · exact noted_bad _ _
  · split
    · exact noted_plain hk _ _
    · exact noted_bad _ _

theorem noted_number (c : Char) (rest : List Char) : (number c rest).Noted := by
  unfold number
  dsimp only
  split <;> exact nofun

theorem noted_word (c : Char) (rest : List Char) : (word c rest).Noted := by
  refine noted_plain ?_ _ _
  unfold TokenKind.ofKeyword?
  split <;> simp

theorem ne_bad_of_text? {kind : TokenKind} {text : String} (h : kind.text? = some text) :
    kind ≠ .bad := by
  rintro rfl
  cases h

theorem noted_ofText (c : Char) : ∀ rest, (ofText c rest).Noted := by
  refine ofText_cases (P := fun f => ∀ rest, (f rest).Noted) ?_ ?_ ?_ ?_ ?_ ?_ ?_ ?_
  · exact fun kind h rest => noted_plain (ne_bad_of_text? h) _ _
  · exact fun alone followed ha hf rest =>
      noted_withEquals (ne_bad_of_text? ha) (ne_bad_of_text? hf) _ _
  · exact fun kind h rest => noted_doubled (ne_bad_of_text? h) _ _
  · exact fun _ rest => nofun
  · exact fun _ rest => noted_number _ _
  · exact fun _ rest => noted_plain (by decide) _ _
  · exact fun _ rest => noted_word _ _
  · exact fun rest => noted_bad _ _

def shown (m : Munch) : Lexeme := (m.lexeme 0).unplaced

theorem unplaced_lexeme (m : Munch) (position : Nat) : (m.lexeme position).unplaced = m.shown := by
  cases h : m.fault <;> simp [shown, lexeme, Lexeme.unplaced, h] <;>
    simp [Token.unplaced, Diagnostic.unplaced]

def lined : List Munch → List Char
  | [] => []
  | m :: ms => m.taken ++ '\n' :: lined ms

namespace Cut

variable {cs tail : List Char} {ms : List Munch}

theorem of_dropWhile (h : Cut (cs.dropWhile isBlank) ms) :
    ∃ ms', Cut cs ms' ∧ ms'.filter (!·.isGap) = ms.filter (!·.isGap) := by
  cases cs with
  | nil => exact ⟨ms, h, rfl⟩
  | cons c rest =>
    cases hc : isBlank c with
    | false =>
      rw [List.dropWhile_cons_of_neg (by simp [hc])] at h
      exact ⟨ms, h, rfl⟩
    | true =>
      rw [List.dropWhile_cons_of_pos hc] at h
      have hrest : (ofText c rest).rest = rest.dropWhile isBlank := by
        rw [ofText_blank hc]
        rfl
      refine ⟨ofText c rest :: ms, .cons (hrest ▸ h), ?_⟩
      rw [ofText_blank hc]
      rfl

/-- Each token is found again at the start of its line, and the ends of lines are gaps. -/
theorem exists_lined_dropWhile (hms : ∀ m ∈ ms, m.isGap = false ∧ ∃ c rest, m = ofText c rest)
    (htail : ∀ c ∈ tail, isBlank c = true) :
    ∃ ms', Cut ((lined ms ++ tail).dropWhile isBlank) ms' ∧
      (ms'.filter (!·.isGap)).map shown = ms.map shown := by
  induction ms with
  | nil =>
    have hnil : tail.dropWhile isBlank = [] := List.dropWhile_eq_nil_iff.mpr htail
    exact ⟨[], hnil ▸ Cut.nil, rfl⟩
  | cons m ms ih =>
    obtain ⟨⟨hgap, c, rest, rfl⟩, hrest⟩ := List.forall_mem_cons.mp hms
    obtain ⟨ms', h, hkept⟩ := ih hrest
    have hblank := isBlank_of_not_isGap hgap
    obtain ⟨more, htaken, hagain⟩ := steady_ofText hblank rest
    have hm := hagain ('\n' :: (lined ms ++ tail)) (.inr ⟨_, rfl⟩)
    -- the end of the line is one gap with the blank characters behind it
    obtain ⟨ms'', h', hkept'⟩ :
        ∃ ms'', Cut ('\n' :: (lined ms ++ tail)) ms'' ∧
          ms''.filter (!·.isGap) = ms'.filter (!·.isGap) := of_dropWhile h
    refine ⟨ofText c (more ++ '\n' :: (lined ms ++ tail)) :: ms'', ?_, ?_⟩
    · rw [lined, htaken, List.append_assoc, List.cons_append, List.cons_append,
        List.dropWhile_cons_of_neg (by simp [hblank])]
      exact .cons (by rw [hm]; exact h')
    · rw [hm, List.filter_cons_of_pos (by simpa [isGap] using hgap), List.map_cons, hkept', hkept]
      rfl

theorem exists_lined (hms : ∀ m ∈ ms, m.isGap = false ∧ ∃ c rest, m = ofText c rest)
    (htail : ∀ c ∈ tail, isBlank c = true) :
    ∃ ms', Cut (lined ms ++ tail) ms' ∧
      (ms'.filter (!·.isGap)).map shown = ms.map shown := by
  obtain ⟨ms', h, hshown⟩ := exists_lined_dropWhile hms htail
  obtain ⟨ms'', h', hkept⟩ := h.of_dropWhile
  exact ⟨ms'', h', hkept ▸ hshown⟩

end Cut

theorem map_unplaced_placed (position : Nat) (ms : List Munch) :
    ((placed position ms).filter (!·.isGap)).map Lexeme.unplaced =
      (ms.filter (!·.isGap)).map shown := by
  induction ms generalizing position with
  | nil => rfl
  | cons m ms ih =>
    cases hgap : m.isGap with
    | true =>
      rw [placed, List.filter_cons_of_neg (by simp [isGap_lexeme, hgap]),
        List.filter_cons_of_neg (by simp [hgap]), ih]
    | false =>
      rw [placed, List.filter_cons_of_pos (by simp [isGap_lexeme, hgap]),
        List.filter_cons_of_pos (by simp [hgap]), List.map_cons, List.map_cons, ih,
        unplaced_lexeme]

theorem flatMap_text_placed (position : Nat) (ms : List Munch) :
    ((placed position ms).filter (!·.isGap)).flatMap
      (fun l => l.token.text.toList ++ ['\n']) = lined (ms.filter (!·.isGap)) := by
  induction ms generalizing position with
  | nil => rfl
  | cons m ms ih =>
    cases hgap : m.isGap with
    | true =>
      rw [placed, List.filter_cons_of_neg (by simp [isGap_lexeme, hgap]),
        List.filter_cons_of_neg (by simp [hgap]), ih]
    | false =>
      rw [placed, List.filter_cons_of_pos (by simp [isGap_lexeme, hgap]),
        List.filter_cons_of_pos (by simp [hgap]), List.flatMap_cons, ih, lined]
      simp [lexeme]

end Munch

namespace Lexeme

def nonblank (text : String) : List Lexeme := (ofText text).filter (!·.isGap)

def lines (ls : List Lexeme) : String := String.join (ls.map fun l => l.token.text ++ "\n")

variable {text text' : String} {ms : List Munch}

theorem nonblank_of_cut (h : Munch.Cut text.toList ms) :
    nonblank text = (Munch.placed 0 ms).filter (!·.isGap) ++ [endOfFile (byteLength text.toList)] := by
  rw [nonblank, ofText_of_cut h, List.filter_append]
  rfl

theorem map_unplaced_nonblank (h : Munch.Cut text.toList ms) :
    (nonblank text).map unplaced = (ms.filter (!·.isGap)).map Munch.shown ++ [endOfFile 0] := by
  rw [nonblank_of_cut h, List.map_append, Munch.map_unplaced_placed]
  rfl

theorem toList_lines (ls : List Lexeme) :
    (lines ls).toList = ls.flatMap fun l => l.token.text.toList ++ ['\n'] := by
  simp [lines, List.flatMap_map]

theorem isSeparator_of_isGap {l : Lexeme} (h : l.isGap = true) : l.isSeparator = true := by
  rw [isGap, beq_iff_eq] at h
  rw [isSeparator, h]
  rfl

theorem isGap_iff {l : Lexeme} (hl : l ∈ ofText text) (h : l.isSeparator = true) :
    l.isGap = true ↔ l.diagnostic = none := by
  rcases exists_of_mem hl with rfl | ⟨before, c, rest, -, rfl⟩
  · cases h
  · rw [Munch.isGap_lexeme, Munch.noted_ofText c rest h, Munch.lexeme, Option.map_eq_none_iff]

def SameWords (text text' : String) : Prop :=
  (nonblank text').map unplaced = (nonblank text).map unplaced

theorem sameWords_of_lined (h : Munch.Cut text.toList ms) {tail : List Char}
    (htail : ∀ c ∈ tail, isBlank c = true)
    (htext : text'.toList = Munch.lined (ms.filter (!·.isGap)) ++ tail) :
    SameWords text text' := by
  have hms : ∀ m ∈ ms.filter (!·.isGap), m.isGap = false ∧ ∃ c rest, m = Munch.ofText c rest := by
    intro m hm
    obtain ⟨hm, hgap⟩ := List.mem_filter.mp hm
    exact ⟨by simpa using hgap, h.exists_ofText hm⟩
  obtain ⟨ms', h', hshown⟩ := Munch.Cut.exists_lined hms htail
  rw [← htext] at h'
  rw [SameWords, map_unplaced_nonblank h', map_unplaced_nonblank h, hshown]

/-- The lexemes of a text on lines of their own are scanned as the same again, whether or not there
is a line for the end of the file as well. -/
theorem sameWords_lines (text : String) :
    SameWords text (lines (nonblank text)) ∧ SameWords text (lines (nonblank text).dropLast) := by
  obtain ⟨ms, h⟩ := Munch.exists_cut text.toList
  have hlined := Munch.flatMap_text_placed 0 ms
  constructor
  · have htail : ∀ c ∈ ['\n'], isBlank c = true := by
      intro c hc
      rw [List.mem_singleton.mp hc]
      rfl
    refine sameWords_of_lined h htail ?_
    rw [toList_lines, nonblank_of_cut h, List.flatMap_append, hlined]
    rfl
  · have htail : ∀ c ∈ ([] : List Char), isBlank c = true := nofun
    refine sameWords_of_lined h htail ?_
    rw [toList_lines, nonblank_of_cut h, List.dropLast_concat, hlined, List.append_nil]

end Lexeme

end ScalarScript
