import ScalarScript.Proofs.Token.Faults

set_option autoImplicit false

namespace ScalarScript

open Text

def Text.literal (s : String) : String := String.ofList ('"' :: quotesDoubled s.toList ++ ['"'])

namespace Lexeme

variable {text : String} {l : Lexeme}

theorem head?_ofText {c : Char} {rest : List Char} (h : text.toList = c :: rest) :
    (ofText text).head? = some ((Munch.ofText c rest).lexeme 0) := by
  obtain ⟨ms, hcut⟩ := Munch.exists_cut text.toList
  rw [ofText_of_cut hcut]
  rw [h] at hcut
  cases hcut
  rfl

theorem head?_ofText_literal (s after : String) (hs : ∀ c ∈ s.toList, c ≠ '\r' ∧ c ≠ '\n')
    (hafter : after.toList.head? ≠ some '"') :
    (ofText (literal s ++ after)).head? =
      some ⟨⟨.string, ⟨0, (literal s).utf8ByteSize⟩, literal s⟩, some (.string s), none⟩ := by
  have htext : (literal s ++ after).toList =
      '"' :: (quotesDoubled s.toList ++ '"' :: after.toList) := by
    simp [literal]
  have hmunch : Munch.ofText '"' (quotesDoubled s.toList ++ '"' :: after.toList) = _ :=
    Munch.string_quotesDoubled hafter hs
  rw [head?_ofText htext, hmunch, Munch.lexeme, String.ofList_toList, ← byteLength_toList, literal,
    String.toList_ofList]
  rfl

theorem text_of_closed (hl : l ∈ ofText text) (hkind : l.token.kind = .string)
    (hclosed : ∀ d ∈ l.diagnostic, d.fault ≠ .unterminatedString) :
    ∃ s, l.value = some (.string s) ∧ l.token.text = literal s ∧
      ∀ c ∈ s.toList, c ≠ '\r' ∧ c ≠ '\n' := by
  obtain ⟨behind, hdeserves⟩ := exists_deserves hl
  generalize l.diagnostic = d at hdeserves hclosed
  cases hdeserves with
  | @closed content _ htext hline hvalue =>
    refine ⟨String.ofList content, hvalue, ?_, by rwa [String.toList_ofList]⟩
    rw [literal, String.toList_ofList, ← htext, String.ofList_toList]
  | unterminated => exact absurd rfl (hclosed _ rfl)
  | badCharacter hkind' => exact absurd (hkind.symm.trans hkind') (by decide)
  | number hkind' => exact absurd (hkind.symm.trans hkind') (by decide)
  | invalidNumber hkind' => exact absurd (hkind.symm.trans hkind') (by decide)
  | other hkind' => exact absurd hkind hkind'.2.1

/-- A text without ends of lines is denoted by the literal that is made of it, whatever stands behind
that, if only no quote does: the literal is the first token, and nothing is wrong with it. And the
literals that are not left open are those that are made of the text they denote. -/
theorem literals_decode :
    (∀ s after : String, (∀ c ∈ s.toList, c ≠ '\r' ∧ c ≠ '\n') → after.toList.head? ≠ some '"' →
      (ofText (literal s ++ after)).head? =
        some ⟨⟨.string, ⟨0, (literal s).utf8ByteSize⟩, literal s⟩, some (.string s), none⟩) ∧
    ∀ text : String, ∀ l ∈ ofText text, l.token.kind = .string →
      (∀ d ∈ l.diagnostic, d.fault ≠ .unterminatedString) →
      ∃ s, l.value = some (.string s) ∧ l.token.text = literal s ∧
        ∀ c ∈ s.toList, c ≠ '\r' ∧ c ≠ '\n' :=
  ⟨head?_ofText_literal, fun _ _ => text_of_closed⟩

/-- Quotes at the start, in the middle and at the end of a text, before a word, and a literal of
quotes only between others. -/
theorem literals_decode_quotes :
    ((∀ c ∈ "\"é\"\"z\"".toList, c ≠ '\r' ∧ c ≠ '\n') ∧ "to".toList.head? ≠ some '"' ∧
      (ofText (literal "\"é\"\"z\"" ++ "to")).head? =
        some ⟨⟨.string, ⟨0, 13⟩, "\"\"\"é\"\"\"\"z\"\"\""⟩, some (.string "\"é\"\"z\""), none⟩) ∧
    let l : Lexeme := ⟨⟨.string, ⟨1, 6⟩, "\"\"\"\"\"\""⟩, some (.string "\"\""), none⟩
    l ∈ ofText "+\"\"\"\"\"\"+" ∧ l.token.kind = .string ∧
      (∀ d ∈ l.diagnostic, d.fault ≠ .unterminatedString) ∧
      ∃ s, l.value = some (.string s) ∧ l.token.text = literal s ∧
        ∀ c ∈ s.toList, c ≠ '\r' ∧ c ≠ '\n' := by
  refine ⟨⟨by simp, by simp, ?_⟩, ?_⟩
  · exact literals_decode.1 _ _ (by simp) (by simp)
  · intro l
    have hl : l ∈ ofText "+\"\"\"\"\"\"+" := by decide +kernel
    exact ⟨hl, rfl, nofun, literals_decode.2 _ l hl rfl nofun⟩

end Lexeme

end ScalarScript
