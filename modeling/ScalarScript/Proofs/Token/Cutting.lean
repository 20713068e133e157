import ScalarScript.Proofs.Token.Lexemes
import ScalarScript.Proofs.Token.Lexical

set_option autoImplicit false

namespace ScalarScript

open Text

namespace Munch

def Splits (m : Munch) (cs : List Char) : Prop := m.taken ++ m.rest = cs

theorem splits_plain (kind : TokenKind) (taken rest : List Char) :
    (plain kind taken rest).Splits (taken ++ rest) := rfl

theorem splits_withEquals (alone followed : TokenKind) (c : Char) (rest : List Char) :
    (withEquals alone followed c rest).Splits (c :: rest) := by
  unfold withEquals
  split <;> rfl

theorem splits_doubled (kind : TokenKind) (c : Char) (rest : List Char) :
    (doubled kind c rest).Splits (c :: rest) := by
  unfold doubled
  split
  · rfl
  · split
    · rename_i d rest h
      subst h
      rfl
    · rfl

theorem taken_append_rest_body (cs : List Char) : (body cs).taken ++ (body cs).rest = cs := by
  fun_induction body cs with
  | case1 => rfl
  | case2 rest b ih => exact congrArg (fun cs => '"' :: '"' :: cs) ih
  | case3 rest => rfl
  | case4 c rest => rfl
  | case5 c rest _ _ _ b ih => exact congrArg (c :: ·) ih

theorem splits_string (rest : List Char) : (string rest).Splits ('"' :: rest) :=
  congrArg ('"' :: ·) (taken_append_rest_body rest)

theorem splits_number (c : Char) (rest : List Char) : (number c rest).Splits (c :: rest) := by
  have hall := congrArg (c :: ·) (List.takeWhile_append_dropWhile (p := isDigit) (l := rest))
  unfold number
  dsimp only
  split <;> exact hall

theorem splits_word (c : Char) (rest : List Char) : (word c rest).Splits (c :: rest) :=
  congrArg (c :: ·) List.takeWhile_append_dropWhile

theorem splits_whitespace (c : Char) (rest : List Char) :
    (whitespace c rest).Splits (c :: rest) :=
  congrArg (c :: ·) List.takeWhile_append_dropWhile

theorem splits_ofText (c : Char) : ∀ rest, (ofText c rest).Splits (c :: rest) := by
  refine ofText_cases (P := fun f => ∀ rest, (f rest).Splits (c :: rest)) ?_ ?_ ?_ ?_ ?_ ?_ ?_ ?_
  · exact fun kind _ rest => splits_plain kind [c] rest
  · exact fun alone followed _ _ rest => splits_withEquals alone followed c rest
  · exact fun kind _ rest => splits_doubled kind c rest
  · exact fun hc rest => hc ▸ splits_string rest
  · exact fun _ rest => splits_number c rest
  · exact fun _ rest => splits_whitespace c rest
  · exact fun _ rest => splits_word c rest
  · exact fun rest => rfl

/-- The munches of a text, each at the head of what those before it leave. -/
inductive Cut : List Char → List Munch → Prop where
  | nil : Cut [] []
  | cons {c : Char} {rest : List Char} {ms : List Munch} (h : Cut (ofText c rest).rest ms) :
    Cut (c :: rest) (ofText c rest :: ms)

variable {cs : List Char} {m : Munch} {ms : List Munch}

theorem length_rest_lt (c : Char) (rest : List Char) :
    (ofText c rest).rest.length < (c :: rest).length := by
  have hsplits := congrArg List.length (splits_ofText c rest)
  have htaken := List.length_pos_iff.mpr (proper_ofText c rest).1
  rw [List.length_append] at hsplits
  omega

theorem exists_cut (cs : List Char) : ∃ ms, Cut cs ms :=
  match cs with
  | [] => ⟨[], .nil⟩
  | c :: rest =>
    have ⟨ms, h⟩ := exists_cut (ofText c rest).rest
    ⟨ofText c rest :: ms, .cons h⟩
termination_by cs.length
decreasing_by exact length_rest_lt c rest

namespace Cut

theorem flatMap_taken (h : Cut cs ms) : ms.flatMap taken = cs := by
  induction h with
  | nil => rfl
  | @cons c rest ms h ih =>
    rw [List.flatMap_cons, ih]
    exact splits_ofText c rest

theorem exists_ofText (h : Cut cs ms) (hm : m ∈ ms) : ∃ c rest, m = ofText c rest := by
  induction h with
  | nil => exact absurd hm List.not_mem_nil
  | @cons c rest ms h ih =>
    rcases List.mem_cons.mp hm with rfl | hm
    · exact ⟨c, rest, rfl⟩
    · exact ih hm

end Cut

def placed (position : Nat) : List Munch → List Lexeme
  | [] => []
  | m :: ms => m.lexeme position :: placed (position + byteLength m.taken) ms

theorem Cut.exists_of_mem_placed (h : Cut cs ms) {before : List Char} {l : Lexeme}
    (hl : l ∈ placed (byteLength before) ms) :
    ∃ between c rest, cs = between ++ c :: rest ∧
      l = (ofText c rest).lexeme (byteLength (before ++ between)) := by
  induction h generalizing before with
  | nil => exact absurd hl List.not_mem_nil
  | @cons c rest ms h ih =>
    rcases List.mem_cons.mp hl with rfl | hl
    · exact ⟨[], c, rest, rfl, by rw [List.append_nil]⟩
    · rw [← byteLength_append] at hl
      obtain ⟨between, d, more, hrest, rfl⟩ := ih hl
      refine ⟨(ofText c rest).taken ++ between, d, more, ?_, by rw [List.append_assoc]⟩
      rw [List.append_assoc, ← hrest]
      exact (splits_ofText c rest).symm

end Munch

namespace Scanner

open Munch

variable {s : Scanner} {ms : List Munch}

def stop (s : Scanner) : Nat := s.position + byteLength s.rest

theorem stop_cons (position : Nat) (c : Char) (rest : List Char) :
    (Scanner.mk (position + byteLength (Munch.ofText c rest).taken) (Munch.ofText c rest).rest).stop =
      (Scanner.mk position (c :: rest)).stop := by
  rw [stop, stop, Nat.add_assoc, ← byteLength_append, splits_ofText]

theorem lexemesWithin_of_cut (h : Cut s.rest ms) {fuel : Nat} (hfuel : s.rest.length ≤ fuel) :
    s.lexemesWithin fuel = placed s.position ms ++ [.endOfFile s.stop] := by
  obtain ⟨position, cs⟩ := s
  dsimp only at h hfuel
  induction h generalizing position fuel with
  | nil => cases fuel <;> rfl
  | @cons c rest ms h ih =>
    cases fuel with
    | zero => exact absurd hfuel (Nat.not_succ_le_zero _)
    | succ fuel =>
      have hfuel : (Munch.ofText c rest).rest.length ≤ fuel := by
        have hless := length_rest_lt c rest
        omega
      have hrest := ih (position + byteLength (Munch.ofText c rest).taken) hfuel
      rw [stop_cons] at hrest
      exact congrArg ((Munch.ofText c rest).lexeme position :: ·) hrest

theorem take_of_cut (h : Cut s.rest ms) :
    s.take (ms.length + 1) = placed s.position ms ++ [.endOfFile s.stop] := by
  obtain ⟨position, cs⟩ := s
  dsimp only at h
  induction h generalizing position with
  | nil => rfl
  | @cons c rest ms h ih =>
    have hrest := ih (position + byteLength (Munch.ofText c rest).taken)
    rw [stop_cons] at hrest
    exact congrArg ((Munch.ofText c rest).lexeme position :: ·) hrest

end Scanner

theorem Lexeme.ofText_of_cut {text : String} {ms : List Munch} (h : Munch.Cut text.toList ms) :
    ofText text = Munch.placed 0 ms ++ [endOfFile (byteLength text.toList)] := by
  have hlexemes := Scanner.lexemesWithin_of_cut (s := Scanner.ofText text) h (Nat.le_refl _)
  rw [Scanner.stop, Scanner.ofText, Nat.zero_add] at hlexemes
  exact hlexemes

/-- A lexeme of a text is the end of the file or is taken off the text from its place on. -/
theorem Lexeme.exists_of_mem {text : String} {l : Lexeme} (hl : l ∈ ofText text) :
    l = endOfFile (byteLength text.toList) ∨ ∃ before c rest,
      text.toList = before ++ c :: rest ∧ l = (Munch.ofText c rest).lexeme (byteLength before) := by
  obtain ⟨ms, h⟩ := Munch.exists_cut text.toList
  rw [ofText_of_cut h] at hl
  rcases List.mem_append.mp hl with hl | hl
  · exact .inr (h.exists_of_mem_placed (show l ∈ Munch.placed (byteLength []) ms from hl))
  · exact .inl (List.mem_singleton.mp hl)

end ScalarScript
