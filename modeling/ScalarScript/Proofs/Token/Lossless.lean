import Mathlib.Data.List.Chain
import Mathlib.Data.String.Basic
import ScalarScript.Proofs.Token.Cutting

set_option autoImplicit false

namespace ScalarScript

open Text

theorem Text.byteLength_eq (cs : List Char) : byteLength cs = String.utf8Len cs := by
  induction cs with
  | nil => rfl
  | cons c cs ih => rw [byteLength, ih, String.utf8Len_cons, Nat.add_comm]

theorem Text.byteLength_toList (text : String) : byteLength text.toList = text.utf8ByteSize := by
  rw [byteLength_eq, String.utf8Len_toList]

namespace Span

/-- Both ends are in the text and between two characters, or at an end of the text. -/
def FitsIn (s : Span) (text : String) : Prop :=
  (String.Pos.Raw.mk s.start).IsValid text ∧ (String.Pos.Raw.mk s.stop).IsValid text

def slice (s : Span) (text : String) : String :=
  String.Pos.Raw.extract text ⟨s.start⟩ ⟨s.stop⟩

variable {text : String} {before taken after : List Char}

theorem isValid_byteLength (h : text.toList = before ++ after) :
    (String.Pos.Raw.mk (byteLength before)).IsValid text := by
  refine String.Pos.Raw.isValid_iff_exists_append.mpr
    ⟨String.ofList before, String.ofList after, ?_, ?_⟩
  · rw [← String.ofList_append, ← h, String.ofList_toList]
  · rw [String.Pos.Raw.ext_iff, String.byteIdx_rawEndPos, String.utf8ByteSize_ofList, byteLength_eq]

theorem fitsIn_of_append (h : text.toList = before ++ taken ++ after) :
    FitsIn ⟨byteLength before, byteLength taken⟩ text := by
  refine ⟨isValid_byteLength (h.trans (List.append_assoc ..)), ?_⟩
  rw [stop, ← byteLength_append]
  exact isValid_byteLength h

theorem slice_of_append (h : text.toList = before ++ taken ++ after) :
    slice ⟨byteLength before, byteLength taken⟩ text = String.ofList taken := by
  have hextract := String.extract_of_valid before taken after
  rw [← h, String.ofList_toList, ← byteLength_eq, ← byteLength_eq] at hextract
  exact hextract

end Span

/-- Between what the span is said to leave before and after it, the token stands in the text. -/
def Token.StandsIn (t : Token) (text : List Char) : Prop :=
  ∃ before after, text = before ++ t.text.toList ++ after ∧
    t.span = ⟨byteLength before, byteLength t.text.toList⟩

namespace Munch

variable {ms : List Munch} {l : Lexeme}

theorem start_head?_placed (position last : Nat) (ms : List Munch)
    (hlast : last = position + byteLength (ms.flatMap taken)) :
    ((placed position ms ++ [Lexeme.endOfFile last]).head?.map fun l => l.token.span.start) =
      some position := by
  cases ms with
  | nil => exact congrArg some hlast
  | cons m ms => rfl

theorem isChain_placed (position : Nat) (ms : List Munch) :
    (placed position ms ++ [Lexeme.endOfFile (position + byteLength (ms.flatMap taken))]).IsChain
      fun l m => l.token.span.stop = m.token.span.start := by
  induction ms generalizing position with
  | nil => exact List.isChain_singleton _
  | cons m ms ih =>
    have hlast : position + byteLength ((m :: ms).flatMap taken) =
        position + byteLength m.taken + byteLength (ms.flatMap taken) := by
      rw [List.flatMap_cons, byteLength_append, Nat.add_assoc]
    rw [hlast, placed, List.cons_append, List.isChain_cons]
    refine ⟨fun l hl => ?_, ih _⟩
    have hstart := start_head?_placed (position + byteLength m.taken) _ ms rfl
    rw [Option.mem_def.mp hl] at hstart
    exact (Option.some.inj hstart).symm

end Munch

structure Lexeme.Lossless (text : String) (lexemes : List Lexeme) : Prop where
  ends : ∃ ls last, lexemes = ls ++ [last] ∧ last.token.kind = .endOfFile ∧
    ∀ l ∈ ls, l.token.kind ≠ .endOfFile ∧ l.token.text ≠ "" ∧ l.token.span.length ≠ 0
  start : (lexemes.head?.map fun l => l.token.span.start) = some 0
  stop : (lexemes.getLast?.map fun l => l.token.span.stop) = some text.utf8ByteSize
  contiguous : lexemes.IsChain fun l m => l.token.span.stop = m.token.span.start
  slices : ∀ l ∈ lexemes, l.token.span.FitsIn text ∧ l.token.span.slice text = l.token.text
  joined : String.join (lexemes.map fun l => l.token.text) = text

namespace Lexeme

variable {text : String} {ms : List Munch}

theorem standsIn {l : Lexeme} (hl : l ∈ ofText text) : l.token.StandsIn text.toList := by
  rcases exists_of_mem hl with rfl | ⟨before, c, rest, htext, rfl⟩
  · exact ⟨text.toList, [], by simp [endOfFile], rfl⟩
  · refine ⟨before, (Munch.ofText c rest).rest, ?_, ?_⟩
    · rw [htext, Munch.lexeme, String.toList_ofList, List.append_assoc, Munch.splits_ofText]
    · rw [Munch.lexeme, String.toList_ofList]

theorem join_text_placed (position : Nat) (ms : List Munch) :
    String.join ((Munch.placed position ms).map fun l => l.token.text) =
      String.ofList (ms.flatMap Munch.taken) := by
  induction ms generalizing position with
  | nil => rfl
  | cons m ms ih =>
    rw [Munch.placed, List.map_cons, String.join_cons, ih, List.flatMap_cons, String.ofList_append]
    rfl

theorem lossless_of_cut (h : Munch.Cut text.toList ms) : Lossless text (ofText text) where
  ends := by
    refine ⟨Munch.placed 0 ms, .endOfFile (byteLength text.toList), ofText_of_cut h, rfl, ?_⟩
    intro l hl
    obtain ⟨before, c, rest, -, rfl⟩ := h.exists_of_mem_placed (show l ∈ Munch.placed (byteLength []) ms from hl)
    obtain ⟨htaken, hkind⟩ := Munch.proper_ofText c rest
    refine ⟨hkind, ?_, (byteLength_pos htaken).ne'⟩
    simpa [Munch.lexeme] using htaken
  start := by
    rw [ofText_of_cut h]
    exact Munch.start_head?_placed 0 _ ms (by rw [h.flatMap_taken, Nat.zero_add])
  stop := by
    rw [ofText_of_cut h, List.getLast?_concat, ← byteLength_toList]
    rfl
  contiguous := by
    have hchain := Munch.isChain_placed 0 ms
    rwa [h.flatMap_taken, Nat.zero_add, ← ofText_of_cut h] at hchain
  slices l hl := by
    obtain ⟨before, after, htext, hspan⟩ := standsIn hl
    rw [hspan]
    refine ⟨Span.fitsIn_of_append htext, ?_⟩
    rw [Span.slice_of_append htext, String.ofList_toList]
  joined := by
    rw [ofText_of_cut h, List.map_append, String.join_append, join_text_placed, h.flatMap_taken,
      String.ofList_toList]
    exact String.append_empty

/-- Asking for the next lexeme again and again comes to the end of the file, for the first time
after all of the text: the lexemes until then lie in the text from its start to its end without a
gap, none of them empty and all on boundaries of characters, and their texts together are the
text. -/
theorem ofText_lossless (text : String) :
    (∃ n, ofText text = (Scanner.ofText text).take (n + 1)) ∧ Lossless text (ofText text) := by
  obtain ⟨ms, h⟩ := Munch.exists_cut text.toList
  refine ⟨⟨ms.length, ?_⟩, lossless_of_cut h⟩
  have htake := Scanner.take_of_cut (s := Scanner.ofText text) h
  rw [htake, Scanner.stop, Scanner.ofText, Nat.zero_add, ofText_of_cut h]

end Lexeme

end ScalarScript
