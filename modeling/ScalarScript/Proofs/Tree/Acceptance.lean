import ScalarScript.Proofs.Token.Relining
import ScalarScript.Proofs.Tree.Fidelity

set_option autoImplicit false

namespace ScalarScript

theorem Lexeme.words_of_faultless {text : String} (h : diagnostics (ofText text) = []) :
    words text = (nonblank text).map Lexeme.token := by
  have hnone : ∀ l ∈ ofText text, l.diagnostic = none := List.filterMap_eq_nil_iff.mp h
  refine congrArg (List.map Lexeme.token) (List.filter_congr fun l hl => ?_)
  cases hseparator : l.isSeparator with
  | true => rw [(isGap_iff hl hseparator).mpr (hnone l hl)]
  | false =>
    cases hgap : l.isGap with
    | true => rw [isSeparator_of_isGap hgap] at hseparator; cases hseparator
    | false => rfl

namespace Fragment

/-- The tree of a text that is read without a fault is a derivation of the text's tokens but for
whitespace, in the grammar that allows a comma after the last argument of a call, and in the one
that does not just where no comma stands before a closing parenthesis. -/
theorem accepted_derives {text : String} (h : (ofText text).diagnostics = []) :
    (ofText text).tree.Derives true ((Lexeme.nonblank text).map Lexeme.token) ∧
      ((ofText text).tree.Derives false ((Lexeme.nonblank text).map Lexeme.token) ↔
        Undangling ((Lexeme.nonblank text).map Lexeme.token)) := by
  have hlexemes : Lexeme.diagnostics (Lexeme.ofText text) = [] := by
    rw [ofText_eq] at h
    exact (List.append_eq_nil_iff.mp h).1
  obtain ⟨hstatement, hlast⟩ := derives_of_faultless (h.trans hlexemes.symm)
  have hend : (ofText text).tree.endOfFile.kind = .endOfFile :=
    hlast ▸ (Cursor.sound_ofText text).last
  have hderives : (ofText text).tree.Derives true ((Lexeme.nonblank text).map Lexeme.token) := by
    rw [← Lexeme.words_of_faultless hlexemes, Lexeme.words_eq, Cursor.words, ← hlast]
    exact .of_statement hstatement hend
  exact ⟨hderives, hderives.strict_iff⟩

/-- Calls of which one is an argument of another, and an operator in front of one. -/
theorem accepted_derives_calls :
    (ofText "x = -max(1, abs(2)) * 3").diagnostics = [] ∧
      (ofText "x = -max(1, abs(2)) * 3").tree.Derives false
        ((Lexeme.nonblank "x = -max(1, abs(2)) * 3").map Lexeme.token) := by
  have h : (ofText "x = -max(1, abs(2)) * 3").diagnostics = [] := by decide +kernel
  exact ⟨h, (accepted_derives h).2.mpr (by decide +kernel)⟩

/-- A comma after the last argument is read without a fault, and no tree is a derivation of it in
the grammar without such commas. -/
theorem accepted_underivable :
    (ofText "f(1,)").diagnostics = [] ∧
      ∀ tree : Tree, ¬tree.Derives false ((Lexeme.nonblank "f(1,)").map Lexeme.token) := by
  refine ⟨by decide +kernel, fun tree h => ?_⟩
  exact absurd h.settled.undangling (by decide +kernel)

end Fragment

end ScalarScript
