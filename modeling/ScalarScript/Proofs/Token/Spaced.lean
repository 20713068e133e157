import Mathlib.Data.List.Forall2
import ScalarScript.Proofs.Token.Lexemes
import ScalarScript.Proofs.Token.Lexical
import ScalarScript.Proofs.Tree.Places
import ScalarScript.Tree.Cursor

set_option autoImplicit false

namespace ScalarScript

open Text

def Token.Denotes (t : Token) (value : Option Value) : Prop := Lexical t.kind t.text.toList value

def Token.Valid (t : Token) : Prop := ∃ value, t.Denotes value

def Token.spaced (ts : List Token) : String := " ".intercalate (ts.map Token.text)

def Token.after (ts : List Token) : List Char := ts.flatMap fun t => ' ' :: t.text.toList

theorem Token.toList_spaced (t : Token) (ts : List Token) :
    (spaced (t :: ts)).toList = t.text.toList ++ after ts := by
  rw [spaced, String.toList_intercalate]
  induction ts generalizing t with
  | nil => simp [List.intercalate, after]
  | cons u ts ih =>
    have hu := ih u
    simp only [List.map_cons, List.intercalate, List.intersperse_cons_cons,
      List.flatten_cons] at hu ⊢
    rw [hu]
    simp [after]

theorem Token.apart_after (ts : List Token) {tail : List Char} (h : tail = [] ∨ tail = [' ']) :
    Apart (after ts ++ tail) := by
  cases ts with
  | nil => exact h.imp id fun h => ⟨[], h⟩
  | cons t ts => exact .inr ⟨t.text.toList ++ after ts ++ tail, by simp [after]⟩

structure Lexeme.Shows (l : Lexeme) (t : Token) : Prop where
  token : l.token.unplaced = t.unplaced
  value : t.Denotes l.value
  faultless : l.diagnostic = none

namespace Scanner

/-- From here on the scanner makes lexemes that show the tokens, apart from separators, and then
comes to the end of the file. -/
def Scans (fuel : Nat) (s : Scanner) (ts : List Token) : Prop :=
  ∃ ls position, s.lexemesWithin fuel = ls ++ [.endOfFile position] ∧
    List.Forall₂ Lexeme.Shows (ls.filter fun l => !l.isSeparator) ts ∧
    ∀ l ∈ ls, l.diagnostic = none

variable {fuel : Nat} {s : Scanner} {ts : List Token}

theorem Scans.nil (h : s.rest = []) : s.Scans fuel [] := by
  refine ⟨[], s.position, ?_, .nil, by simp⟩
  cases fuel <;> simp [lexemesWithin, h]

theorem Scans.token {t : Token} {value : Option Value} {rest : List Char} (ht : t.Denotes value)
    (hs : s.rest = t.text.toList ++ rest) (hrest : Apart rest)
    (hnext : ∀ position, Scans fuel ⟨position, rest⟩ ts) : s.Scans (fuel + 1) (t :: ts) := by
  obtain ⟨c, more, htext, -, hm⟩ := Lexical.munch ht hrest
  obtain ⟨position, text⟩ := s
  obtain rfl : text = c :: (more ++ rest) := by simpa [htext] using hs
  obtain ⟨ls, last, hls, hshows, hfaultless⟩ := hnext (position + byteLength t.text.toList)
  let m : Munch := ⟨t.kind, t.text.toList, value, none, rest⟩
  have hl : (m.lexeme position).Shows t :=
    ⟨by simp [m, Munch.lexeme, Token.unplaced], ht, rfl⟩
  have hkept : (m.lexeme position).isSeparator = false := ht.not_separator
  refine ⟨m.lexeme position :: ls, last, ?_, ?_, ?_⟩
  · simp [lexemesWithin, next, hm, hls, m]
  · rw [List.filter_cons_of_pos (by simp [hkept])]
    exact .cons hl hshows
  · exact List.forall_mem_cons.mpr ⟨rfl, hfaultless⟩

theorem Scans.space {rest : List Char} (hs : s.rest = ' ' :: rest)
    (hrest : rest.takeWhile isBlank = [])
    (hnext : ∀ position, Scans fuel ⟨position, rest⟩ ts) : s.Scans (fuel + 1) ts := by
  obtain ⟨position, text⟩ := s
  obtain rfl : text = ' ' :: rest := hs
  have hdrop : rest.dropWhile isBlank = rest := by
    simpa [hrest] using List.takeWhile_append_dropWhile (p := isBlank) (l := rest)
  have hm : Munch.ofText ' ' rest = .plain .whitespace [' '] rest := by
    change Munch.whitespace ' ' rest = _
    rw [Munch.whitespace, hrest, hdrop]
  obtain ⟨ls, last, hls, hshows, hfaultless⟩ := hnext (position + byteLength [' '])
  refine ⟨(Munch.plain .whitespace [' '] rest).lexeme position :: ls, last, ?_, ?_, ?_⟩
  · simp [lexemesWithin, next, hm, hls, Munch.plain]
  · rwa [List.filter_cons_of_neg (by simp [Lexeme.isSeparator, Munch.lexeme, Munch.plain,
      TokenKind.isSeparator])]
  · exact List.forall_mem_cons.mpr ⟨rfl, hfaultless⟩

/-- Tokens behind spaces are scanned one by one; a space after the last does no harm. -/
theorem scans_after (hts : ∀ t ∈ ts, t.Valid) {tail : List Char}
    (htail : tail = [] ∨ tail = [' ']) (fuel : Nat) (s : Scanner)
    (hs : s.rest = Token.after ts ++ tail) (hfuel : s.rest.length ≤ fuel) : s.Scans fuel ts := by
  induction ts generalizing fuel s with
  | nil =>
    rcases htail with rfl | rfl
    · exact .nil hs
    · obtain ⟨fuel, rfl⟩ : ∃ n, fuel = n + 1 := Nat.exists_eq_succ_of_ne_zero (by
        rintro rfl
        simp [hs, Token.after] at hfuel)
      exact .space hs rfl fun position => .nil rfl
  | cons t ts ih =>
    obtain ⟨⟨value, ht⟩, hts⟩ := List.forall_mem_cons.mp hts
    have hrest : s.rest = ' ' :: (t.text.toList ++ (Token.after ts ++ tail)) := by
      simpa [Token.after] using hs
    have hapart := Token.apart_after ts htail
    obtain ⟨c, more, htext, hblank, -⟩ := Lexical.munch ht hapart
    obtain ⟨fuel, rfl⟩ : ∃ n, fuel = n + 2 := ⟨fuel - 2, by simp [hrest, htext] at hfuel; omega⟩
    refine .space hrest (by simp [htext, hblank]) fun position => ?_
    refine .token ht rfl hapart fun position => ih hts _ _ rfl ?_
    simp [hrest, htext] at hfuel ⊢
    omega

theorem scans_spaced {t : Token} (hts : ∀ u ∈ t :: ts, u.Valid) {tail : List Char}
    (htail : tail = [] ∨ tail = [' ']) (hs : s.rest = t.text.toList ++ (Token.after ts ++ tail)) :
    s.Scans s.rest.length (t :: ts) := by
  obtain ⟨⟨value, ht⟩, hts⟩ := List.forall_mem_cons.mp hts
  have hapart := Token.apart_after ts htail
  obtain ⟨c, more, htext, -, -⟩ := Lexical.munch ht hapart
  obtain ⟨fuel, hfuel⟩ : ∃ n, s.rest.length = n + 1 := ⟨s.rest.length - 1, by simp [hs, htext]⟩
  rw [hfuel]
  refine .token ht hs hapart fun position => scans_after hts htail _ _ rfl ?_
  simp [hs, htext] at hfuel ⊢
  omega

end Scanner

/-- A text of spaced tokens, with or without a space at its end, is read from a cursor that has
these tokens ahead. -/
theorem Cursor.ofLexemes_spaced {t : Token} {ts : List Token} (hts : ∀ u ∈ t :: ts, u.Valid)
    {tail : List Char} (htail : tail = [] ∨ tail = [' ']) {text : String}
    (htext : text.toList = (Token.spaced (t :: ts)).toList ++ tail) :
    Lexeme.diagnostics (Lexeme.ofText text) = [] ∧
    ∃ ls position, List.Forall₂ Lexeme.Shows ls (t :: ts) ∧
      Cursor.ofLexemes (Lexeme.ofText text) = ⟨ls, .endOfFile position, false, []⟩ := by
  have hrest : (Scanner.ofText text).rest = t.text.toList ++ (Token.after ts ++ tail) := by
    rw [Scanner.ofText, htext, Token.toList_spaced, List.append_assoc]
  obtain ⟨ls, position, hls, hshows, hfaultless⟩ := Scanner.scans_spaced hts htail hrest
  have hlexemes : Lexeme.ofText text = ls ++ [.endOfFile position] := hls
  refine ⟨?_, ls.filter fun l => !l.isSeparator, position, hshows, ?_⟩
  · rw [Lexeme.diagnostics, hlexemes, List.filterMap_append, List.append_eq_nil_iff]
    exact ⟨List.filterMap_eq_nil_iff.mpr hfaultless, rfl⟩
  · simp [Cursor.ofLexemes, hlexemes]

end ScalarScript
