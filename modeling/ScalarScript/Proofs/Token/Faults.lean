import Mathlib.Data.List.TakeWhile
import ScalarScript.Proofs.Text.Numerals
import ScalarScript.Proofs.Token.Lossless

/-!
What is wrong with the lexemes of a text, told from the lexemes and what stands behind them: a
character that begins no token, a text literal that its line ends before it is closed, and a number
that there is no room for are reported, each once and in their order, and nothing else is.
-/

set_option autoImplicit false

namespace ScalarScript

open Text

namespace Lexeme

/-- What is to be said of a lexeme with this text behind it: of one that is malformed where it is
and what is wrong, of any other nothing. -/
inductive Deserves (l : Lexeme) (behind : List Char) : Option Diagnostic → Prop where
  | badCharacter {c : Char} (hkind : l.token.kind = .bad) (htext : l.token.text.toList = [c])
    (hvalue : l.value = none) : Deserves l behind (some ⟨l.token.span, .badCharacter c⟩)
  | closed {content : List Char} (hkind : l.token.kind = .string)
    (htext : l.token.text.toList = '"' :: quotesDoubled content ++ ['"'])
    (hline : ∀ c ∈ content, c ≠ '\r' ∧ c ≠ '\n')
    (hvalue : l.value = some (.string (String.ofList content))) : Deserves l behind none
  | unterminated {content : List Char} (hkind : l.token.kind = .string)
    (htext : l.token.text.toList = '"' :: quotesDoubled content)
    (hline : ∀ c ∈ content, c ≠ '\r' ∧ c ≠ '\n')
    (hbehind : ∀ c ∈ behind.head?, c = '\r' ∨ c = '\n')
    (hvalue : l.value = some (.string (String.ofList content))) :
    Deserves l behind (some ⟨⟨l.token.span.start, 1⟩, .unterminatedString⟩)
  | number {n : Int64} (hkind : l.token.kind = .number) (hdigits : Digits l.token.text.toList)
    (hless : decimal l.token.text.toList < 2 ^ 63) (hvalue : l.value = some (.int n))
    (hn : n.toInt = decimal l.token.text.toList) : Deserves l behind none
  | invalidNumber (hkind : l.token.kind = .number) (hdigits : Digits l.token.text.toList)
    (hle : 2 ^ 63 ≤ decimal l.token.text.toList) (hvalue : l.value = some (.int 0)) :
    Deserves l behind (some ⟨l.token.span, .invalidNumber l.token.text "int"⟩)
  | other (hkind : l.token.kind ≠ .bad ∧ l.token.kind ≠ .string ∧ l.token.kind ≠ .number)
    (hvalue : l.value = none) : Deserves l behind none

def spelled (ls : List Lexeme) : List Char := ls.flatMap fun l => l.token.text.toList

inductive Reported : List Lexeme → List Diagnostic → Prop where
  | nil : Reported [] []
  | cons {l : Lexeme} {ls : List Lexeme} {d : Option Diagnostic} {ds : List Diagnostic}
    (h : l.Deserves (spelled ls) d) (hrest : Reported ls ds) : Reported (l :: ls) (d.toList ++ ds)

end Lexeme

theorem Text.even_count_quotesDoubled (content : List Char) :
    (quotesDoubled content).count '"' % 2 = 0 := by
  induction content with
  | nil => rfl
  | cons c content ih =>
    by_cases hc : c = '"'
    · rw [hc, quotesDoubled_quote, List.count_cons_self, List.count_cons_self]
      omega
    · rwa [quotesDoubled_cons hc, List.count_cons_of_ne (by simpa using hc)]

theorem Text.quotesDoubled_append_quote_ne (content other : List Char) :
    quotesDoubled content ++ ['"'] ≠ quotesDoubled other := by
  intro h
  have hcount := congrArg (List.count '"') h
  have hcontent := even_count_quotesDoubled content
  have hother := even_count_quotesDoubled other
  rw [List.count_append, List.count_singleton_self] at hcount
  omega

namespace Lexeme

variable {l : Lexeme} {ls : List Lexeme} {behind : List Char} {d d' : Option Diagnostic}
  {ds ds' : List Diagnostic}

theorem Deserves.unique (h : l.Deserves behind d) (h' : l.Deserves behind d') : d = d' := by
  -- but for open and closed literals, and numbers with and without room, the kinds are different
  cases h <;> cases h' <;> first | rfl | grind [quotesDoubled_append_quote_ne]

theorem Reported.unique (h : Reported ls ds) (h' : Reported ls ds') : ds = ds' := by
  induction h generalizing ds' with
  | nil =>
    cases h'
    rfl
  | cons h _ ih =>
    cases h' with
    | cons h' hrest => rw [h.unique h', ih hrest]

end Lexeme

namespace Munch

def Judged (m : Munch) : Prop :=
  ∀ position, (m.lexeme position).Deserves m.rest (m.lexeme position).diagnostic

theorem judged_plain {kind : TokenKind} (h : kind ≠ .bad ∧ kind ≠ .string ∧ kind ≠ .number)
    (taken rest : List Char) : (plain kind taken rest).Judged := fun _ => .other h rfl

theorem ordinary_of_text? {kind : TokenKind} {text : String} (h : kind.text? = some text) :
    kind ≠ .bad ∧ kind ≠ .string ∧ kind ≠ .number := by
  refine ⟨?_, ?_, ?_⟩ <;> rintro rfl <;> cases h

theorem judged_fixed {kind : TokenKind} {text : String} (h : kind.text? = some text)
    (taken rest : List Char) : (plain kind taken rest).Judged :=
  judged_plain (ordinary_of_text? h) taken rest

theorem judged_bad (c : Char) (rest : List Char) : (bad c rest).Judged :=
  fun _ => .badCharacter rfl String.toList_ofList rfl

theorem judged_withEquals {alone followed : TokenKind} {text text' : String}
    (ha : alone.text? = some text) (hf : followed.text? = some text') (c : Char)
    (rest : List Char) : (withEquals alone followed c rest).Judged := by
  unfold withEquals
  split
  · exact judged_fixed hf _ _
  · exact judged_fixed ha _ _

theorem judged_doubled {kind : TokenKind} {text : String} (h : kind.text? = some text) (c : Char)
    (rest : List Char) : (doubled kind c rest).Judged := by
  unfold doubled
  split
  · exact judged_bad _ _
  · split
    · exact judged_fixed h _ _
    · exact judged_bad _ _

theorem rest_body {cs : List Char} (h : (body cs).closed = false) :
    ∀ c ∈ (body cs).rest.head?, c = '\r' ∨ c = '\n' := by
  fun_induction body cs with
  | case1 => simp
  | case2 rest b ih => exact ih h
  | case3 rest => cases h
  | case4 c rest _ _ hline => simpa using hline
  | case5 c rest _ _ _ b ih => exact ih h

theorem judged_string (rest : List Char) : (string rest).Judged := by
  intro position
  have htaken := taken_body rest
  cases hclosed : (body rest).closed with
  | true =>
    rw [hclosed, if_pos rfl] at htaken
    have hfault : (string rest).fault = none := if_pos hclosed
    rw [lexeme, hfault]
    exact .closed rfl (by simp [string, htaken]) (content_body rest) rfl
  | false =>
    rw [hclosed, if_neg Bool.false_ne_true, List.append_nil] at htaken
    have hfault : (string rest).fault = some .unterminatedString :=
      if_neg (by simp [hclosed])
    rw [lexeme, hfault]
    exact .unterminated rfl (by simp [string, htaken]) (content_body rest) (rest_body hclosed) rfl

theorem judged_number {c : Char} (hc : isDigit c = true) (rest : List Char) :
    (number c rest).Judged := by
  intro position
  have hdigits : Digits (c :: rest.takeWhile isDigit) :=
    ⟨List.cons_ne_nil _ _, List.forall_mem_cons.mpr ⟨hc, fun d hd => List.mem_takeWhile_imp hd⟩⟩
  unfold number
  dsimp only
  split
  · rename_i n h
    have hn := (int64OfNumeral?_digits hdigits).mp h
    have hroom := n.toInt_lt
    refine .number rfl ?_ ?_ rfl ?_ <;> simp only [lexeme, String.toList_ofList]
    · exact hdigits
    · omega
    · exact hn
  · rename_i h
    refine .invalidNumber rfl ?_ ?_ rfl <;> simp only [lexeme, String.toList_ofList]
    · exact hdigits
    · exact (int64OfNumeral?_eq_none hdigits).mp h

theorem judged_word (c : Char) (rest : List Char) : (word c rest).Judged := by
  unfold word
  dsimp only
  cases h : TokenKind.ofKeyword? (String.ofList (c :: rest.takeWhile isIdentifierPart)) with
  | some kind => exact judged_fixed (TokenKind.text?_of_ofKeyword? h) _ _
  | none => exact judged_plain (by decide) _ _

theorem judged_ofText (c : Char) : ∀ rest, (ofText c rest).Judged := by
  refine ofText_cases (P := fun f => ∀ rest, (f rest).Judged) ?_ ?_ ?_ ?_ ?_ ?_ ?_ ?_
  · exact fun kind h rest => judged_fixed h _ _
  · exact fun alone followed ha hf rest => judged_withEquals ha hf _ _
  · exact fun kind h rest => judged_doubled h _ _
  · exact fun _ rest => judged_string rest
  · exact fun hc rest => judged_number hc rest
  · exact fun _ rest => judged_plain (by decide) _ _
  · exact fun _ rest => judged_word _ _
  · exact fun rest => judged_bad _ _

theorem spelled_placed (position last : Nat) (ms : List Munch) :
    Lexeme.spelled (placed position ms ++ [.endOfFile last]) = ms.flatMap taken := by
  induction ms generalizing position with
  | nil => rfl
  | cons m ms ih =>
    have hrest := ih (position + byteLength m.taken)
    rw [Lexeme.spelled] at hrest
    rw [Lexeme.spelled, placed, List.cons_append, List.flatMap_cons, List.flatMap_cons, hrest,
      lexeme, String.toList_ofList]

end Munch

namespace Lexeme

variable {text : String}

theorem diagnostics_cons (l : Lexeme) (ls : List Lexeme) :
    diagnostics (l :: ls) = l.diagnostic.toList ++ diagnostics ls := by
  rw [diagnostics, diagnostics, List.filterMap_cons]
  cases l.diagnostic <;> rfl

theorem deserves_endOfFile (position : Nat) (behind : List Char) :
    (endOfFile position).Deserves behind none := .other (by simp [endOfFile]) rfl

theorem reported_placed {cs : List Char} {ms : List Munch} (h : Munch.Cut cs ms)
    (position last : Nat) :
    Reported (Munch.placed position ms ++ [endOfFile last])
      (diagnostics (Munch.placed position ms ++ [endOfFile last])) := by
  induction h generalizing position with
  | nil => exact .cons (deserves_endOfFile last []) .nil
  | @cons c rest ms h ih =>
    have hjudged := Munch.judged_ofText c rest position
    rw [← h.flatMap_taken, ← Munch.spelled_placed _ last] at hjudged
    rw [Munch.placed, List.cons_append, diagnostics_cons]
    exact .cons hjudged (ih _)

/-- The diagnostics of a text are what is to be said of its lexemes, one after another: that a
character begins no token, that a text literal is open where its line ends, that there is no room
for a number, which then counts as zero. Of a number that there is room for nothing is said, and it
has its value; nor is anything said of other lexemes. -/
theorem faults_exact (text : String) (ds : List Diagnostic) :
    Reported (ofText text) ds ↔ ds = diagnostics (ofText text) := by
  obtain ⟨ms, h⟩ := Munch.exists_cut text.toList
  have hreported := reported_placed h 0 (byteLength text.toList)
  rw [← ofText_of_cut h] at hreported
  exact ⟨fun hds => hds.unique hreported, fun hds => hds ▸ hreported⟩

example : diagnostics (ofText "& 9223372036854775808 \"a\"\"\n") =
    [⟨⟨0, 1⟩, .badCharacter '&'⟩, ⟨⟨2, 19⟩, .invalidNumber "9223372036854775808" "int"⟩,
      ⟨⟨22, 1⟩, .unterminatedString⟩] := by decide +kernel

theorem exists_deserves {l : Lexeme} (hl : l ∈ ofText text) :
    ∃ behind, l.Deserves behind l.diagnostic := by
  rcases exists_of_mem hl with rfl | ⟨before, c, rest, -, rfl⟩
  · exact ⟨[], deserves_endOfFile _ []⟩
  · exact ⟨_, Munch.judged_ofText c rest (byteLength before)⟩

/-- What is wrong with the lexemes of a text is a fault of reading and lies in the text. -/
theorem diagnostics_lie_in {d : Diagnostic} (hd : d ∈ diagnostics (ofText text)) :
    d.span.FitsIn text ∧ d.fault.kind.isSyntactic = true := by
  obtain ⟨l, hl, hdl⟩ := List.mem_filterMap.mp hd
  obtain ⟨before, after, htext, hspan⟩ := standsIn hl
  obtain ⟨hfits, -⟩ := (ofText_lossless text).2.slices l hl
  obtain ⟨behind, hdeserves⟩ := exists_deserves hl
  rw [hdl] at hdeserves
  cases hdeserves with
  | badCharacter => exact ⟨hfits, rfl⟩
  | invalidNumber => exact ⟨hfits, rfl⟩
  | @unterminated content _ hliteral =>
    refine ⟨?_, rfl⟩
    have hopen : text.toList = before ++ ['"'] ++ (quotesDoubled content ++ after) := by
      rw [htext, hliteral]
      simp
    rw [hspan]
    exact Span.fitsIn_of_append hopen

end Lexeme

end ScalarScript
