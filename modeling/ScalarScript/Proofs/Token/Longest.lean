import ScalarScript.Proofs.Token.Lossless
import ScalarScript.Proofs.Token.Relining

set_option autoImplicit false

namespace ScalarScript

open Text

namespace Munch

def Grows (f : List Char → Munch) : Prop :=
  ∀ rest more, (f rest).taken <+: (f (rest ++ more)).taken

theorem grows_plain (kind : TokenKind) (c : Char) : Grows (plain kind [c]) :=
  fun _ _ => List.prefix_rfl

theorem grows_bad (c : Char) : Grows (bad c) := fun _ _ => List.prefix_rfl

theorem grows_withEquals (alone followed : TokenKind) (c : Char) :
    Grows (withEquals alone followed c) := by
  have hfirst (rest : List Char) : [c] <+: (withEquals alone followed c rest).taken := by
    unfold withEquals
    split
    · exact List.prefix_append [c] ['=']
    · exact List.prefix_rfl
  intro rest more
  cases rest with
  | nil => exact hfirst more
  | cons d rest =>
    by_cases hd : d = '='
    · rw [hd]
      exact List.prefix_rfl
    · have halone : withEquals alone followed c (d :: rest) = plain alone [c] (d :: rest) := by
        simp [withEquals, hd]
      rw [halone]
      exact hfirst _

theorem grows_doubled (kind : TokenKind) (c : Char) : Grows (doubled kind c) := by
  intro rest more
  cases rest with
  | nil =>
    cases more with
    | nil => exact List.prefix_rfl
    | cons d more =>
      rw [List.nil_append, doubled, doubled]
      split
      · exact List.prefix_append [c] [c]
      · exact List.prefix_rfl
  | cons d rest =>
    rw [List.cons_append, doubled, doubled]
    split <;> exact List.prefix_rfl

theorem quote_prefix_body (rest : List Char) : ['"'] <+: (body ('"' :: rest)).taken := by
  by_cases h : rest.head? = some '"'
  · obtain ⟨more, rfl⟩ : ∃ more, rest = '"' :: more := by
      cases rest with
      | nil => cases h
      | cons d more => exact ⟨more, by rw [Option.some.inj h]⟩
    exact List.prefix_append ['"'] _
  · exact (body_quote h).symm ▸ List.prefix_rfl

theorem grows_body (rest more : List Char) : (body rest).taken <+: (body (rest ++ more)).taken := by
  fun_induction body rest with
  | case1 => exact List.nil_prefix
  | case2 rest b ih =>
    rw [List.cons_append, List.cons_append, body]
    exact (List.prefix_cons_inj _).mpr ((List.prefix_cons_inj _).mpr ih)
  | case3 rest => exact quote_prefix_body _
  | case4 c rest => exact List.nil_prefix
  | case5 c rest _ hq hline b ih =>
    rw [List.cons_append, body]
    · rw [if_neg hq, if_neg hline]
      exact (List.prefix_cons_inj c).mpr ih
    · simp [hq]

theorem grows_string : Grows string :=
  fun rest more => (List.prefix_cons_inj '"').mpr (grows_body rest more)

theorem takeWhile_prefix_append (p : Char → Bool) (rest more : List Char) :
    rest.takeWhile p <+: (rest ++ more).takeWhile p := by
  rw [List.takeWhile_append]
  split
  · exact (List.takeWhile_prefix p).trans (List.prefix_append _ _)
  · exact List.prefix_rfl

theorem taken_number (c : Char) (rest : List Char) :
    (number c rest).taken = c :: rest.takeWhile isDigit := by
  unfold number
  dsimp only
  split <;> rfl

theorem grows_number (c : Char) : Grows (number c) := by
  intro rest more
  rw [taken_number, taken_number, List.prefix_cons_inj]
  exact takeWhile_prefix_append isDigit rest more

theorem grows_whitespace (c : Char) : Grows (whitespace c) :=
  fun rest more => (List.prefix_cons_inj c).mpr (takeWhile_prefix_append isBlank rest more)

theorem grows_word (c : Char) : Grows (word c) :=
  fun rest more => (List.prefix_cons_inj c).mpr (takeWhile_prefix_append isIdentifierPart rest more)

theorem grows_ofText (c : Char) : Grows (ofText c) :=
  ofText_cases (fun kind _ => grows_plain kind c)
    (fun alone followed _ _ => grows_withEquals alone followed c)
    (fun kind _ => grows_doubled kind c) (fun _ => grows_string) (fun _ => grows_number c)
    (fun _ => grows_whitespace c) (fun _ => grows_word c) (grows_bad c)

theorem prefix_taken {c : Char} {rest : List Char} (h : (ofText c rest).rest = [])
    (more : List Char) : c :: rest <+: (ofText c (rest ++ more)).taken := by
  have hall := splits_ofText c rest
  rw [Splits, h, List.append_nil] at hall
  exact hall ▸ grows_ofText c rest more

theorem ofText_taken (c : Char) (rest : List Char) :
    ∃ more, (ofText c rest).taken = c :: more ∧
      ofText c more = { ofText c rest with rest := [] } := by
  cases hblank : isBlank c with
  | false =>
    obtain ⟨more, htaken, hagain⟩ := steady_ofText hblank rest
    have halone := hagain [] (.inl rfl)
    rw [List.append_nil] at halone
    exact ⟨more, htaken, halone⟩
  | true =>
    have hall : ∀ d ∈ rest.takeWhile isBlank, isBlank d = true := fun d => List.mem_takeWhile_imp
    rw [ofText_blank hblank]
    refine ⟨rest.takeWhile isBlank, rfl, ?_⟩
    rw [ofText_blank hblank, whitespace, List.takeWhile_eq_self_iff.mpr hall,
      List.dropWhile_eq_nil_iff.mpr hall]
    rfl

end Munch

def Span.moved (offset : Nat) (s : Span) : Span := ⟨offset + s.start, s.length⟩

namespace Lexeme

def moved (offset : Nat) (l : Lexeme) : Lexeme :=
  ⟨{ l.token with span := l.token.span.moved offset }, l.value,
    l.diagnostic.map fun d => { d with span := d.span.moved offset }⟩

theorem moved_lexeme (m : Munch) (offset position : Nat) :
    (m.lexeme position).moved offset = m.lexeme (offset + position) := by
  cases h : m.fault with
  | none => simp [moved, Munch.lexeme, Span.moved, h]
  | some fault => cases fault <;> simp [moved, Munch.lexeme, Span.moved, Munch.faultSpan, h]

def Single (text : String) : Prop := ∃ l last, ofText text = [l, last]

variable {text : String}

theorem ofText_of_rest_eq_nil {c : Char} {rest : List Char} (h : (Munch.ofText c rest).rest = []) :
    ofText (String.ofList (c :: rest)) =
      [(Munch.ofText c rest).lexeme 0, endOfFile (byteLength (c :: rest))] := by
  have hcut : Munch.Cut (String.ofList (c :: rest)).toList [Munch.ofText c rest] := by
    rw [String.toList_ofList]
    exact .cons (h ▸ .nil)
  rw [ofText_of_cut hcut, String.toList_ofList]
  rfl

theorem Single.rest_eq_nil (h : Single text) :
    ∃ c rest, text.toList = c :: rest ∧ (Munch.ofText c rest).rest = [] := by
  obtain ⟨l, last, hone⟩ := h
  obtain ⟨ms, hcut⟩ := Munch.exists_cut text.toList
  rw [ofText_of_cut hcut] at hone
  generalize text.toList = cs at hcut hone
  cases hcut with
  | nil => cases hone
  | @cons c rest ms hrest =>
    refine ⟨c, rest, rfl, ?_⟩
    generalize (Munch.ofText c rest).rest = behind at hrest
    cases hrest with
    | nil => rfl
    | cons => simp [Munch.placed] at hone

/-- The token of the lexeme is the longest part of the text from its place on that is one token, and
this part alone has the lexeme as its first, but for its place. -/
def LongestIn (l : Lexeme) (text : String) : Prop :=
  ∃ before after : String, text = before ++ l.token.text ++ after ∧
    l.token.span = ⟨before.utf8ByteSize, l.token.text.utf8ByteSize⟩ ∧
    (∀ part : String, part.toList <+: (l.token.text ++ after).toList → Single part →
      part.toList <+: l.token.text.toList) ∧
    ∃ alone, ofText l.token.text = [alone, endOfFile l.token.text.utf8ByteSize] ∧
      l = alone.moved l.token.span.start

/-- Every token but the end of the file is as long as can be: no longer part of the text from its
place on is one token, and scanned alone it has the same kind, value and fault. -/
theorem munched_longest {l : Lexeme} (hl : l ∈ ofText text) (hkind : l.token.kind ≠ .endOfFile) :
    l.LongestIn text := by
  rcases exists_of_mem hl with rfl | ⟨before, c, rest, htext, rfl⟩
  · exact absurd rfl hkind
  have hsplits : (Munch.ofText c rest).taken ++ (Munch.ofText c rest).rest = c :: rest :=
    Munch.splits_ofText c rest
  refine ⟨String.ofList before, String.ofList (Munch.ofText c rest).rest, ?_, ?_, ?_, ?_⟩
  · rw [Munch.lexeme, ← String.toList_inj, String.toList_append, String.toList_append]
    simp only [String.toList_ofList, List.append_assoc, hsplits, htext]
  · simp only [Munch.lexeme, ← byteLength_toList, String.toList_ofList]
  · intro part hpart hsingle
    obtain ⟨c', rest', hlist, hrest⟩ := hsingle.rest_eq_nil
    simp only [Munch.lexeme, String.toList_append, String.toList_ofList, hsplits, hlist] at hpart ⊢
    obtain ⟨rfl, more, rfl⟩ := List.cons_prefix_cons.mp hpart
    exact Munch.prefix_taken hrest more
  · obtain ⟨more, htaken, halone⟩ := Munch.ofText_taken c rest
    have hone := ofText_of_rest_eq_nil (show (Munch.ofText c more).rest = [] by rw [halone])
    rw [halone, ← htaken] at hone
    refine ⟨(Munch.ofText c rest).lexeme 0, ?_, ?_⟩
    · rw [← byteLength_toList, Munch.lexeme, String.toList_ofList]
      exact hone
    · rw [moved_lexeme]
      rfl

/-- A literal that is still open where its line ends takes the two quotes before that. -/
theorem munched_longest_open :
    let l : Lexeme := ⟨⟨.string, ⟨3, 4⟩, "\"b\"\""⟩, some (.string "b\""),
      some ⟨⟨3, 1⟩, .unterminatedString⟩⟩
    l ∈ ofText "a==\"b\"\"\n" ∧ l.token.kind ≠ .endOfFile ∧ l.LongestIn "a==\"b\"\"\n" := by
  intro l
  have hl : l ∈ ofText "a==\"b\"\"\n" := by decide +kernel
  exact ⟨hl, by decide, munched_longest hl (by decide)⟩

end Lexeme

end ScalarScript
