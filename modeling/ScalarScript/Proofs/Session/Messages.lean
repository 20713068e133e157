import Mathlib.Data.List.Nodup
import ScalarScript.Proofs.Binding.Causes
import ScalarScript.Proofs.Session.Gate
import ScalarScript.Proofs.Text.Filling
import ScalarScript.Proofs.Tree.Quoting

set_option autoImplicit false

namespace ScalarScript

open Text (Braceless placeholder)

namespace Fault

/-- The message is the template with all words put in at the same time, each in its one place, and
nothing in the words looks like a part of a placeholder. -/
structure Verbatim (fault : Fault) : Prop where
  message : fault.message = Text.fillAtOnce fault.template fault.arguments
  places : ∀ i, Text.occurrences (placeholder i) fault.template.toList =
    if i < fault.arguments.length then 1 else 0
  words : fault.Braceless

/-- Templates have a brace at places only, and there is one place for each word. -/
theorem exists_pieces (fault : Fault) : ∃ pieces : List Text.Piece,
    fault.template.toList = pieces.flatMap Text.Piece.spelled ∧
      (∀ p ∈ pieces, p.Fits fault.arguments.length) ∧
      pieces.filterMap Text.Piece.number? = List.range fault.arguments.length := by
  refine ⟨Text.Piece.ofText fault.template.toList, ?_⟩
  cases fault <;> simp only [template, arguments, List.length] <;> decide +kernel

theorem Braceless.verbatim {fault : Fault} (h : fault.Braceless) : fault.Verbatim := by
  obtain ⟨pieces, htemplate, hfits, hnumbers⟩ := fault.exists_pieces
  refine ⟨Text.fill_eq_fillAtOnce htemplate hfits fun a ha hbrace => ?_, fun i => ?_, h⟩
  · exact (h a ha _ hbrace).1 rfl
  · rw [htemplate, Text.occurrences_pieces hfits, hnumbers, List.nodup_range.count]
    simp only [List.mem_range]

end Fault

theorem TokenKind.braceless_name (kind : TokenKind) : Braceless kind.name.toList := by
  cases kind <;> decide

theorem Ty.braceless_name (type : Ty) : Braceless type.name.toList := by
  cases type <;> decide

namespace Function

def Braceless (f : Function) : Prop := ∀ p ∈ f.parameters, Text.Braceless p.name.toList

theorem braceless_of_mem_builtins : ∀ f ∈ builtins, f.Braceless := by
  unfold Braceless
  decide

end Function

/-- What a node is the cause of quotes the node's own tokens and the names of types and
parameters. -/
theorem Node.Causes.braceless {n : Node} {d : Diagnostic} (h : n.Causes Function.Braceless d)
    (hn : n.Quotable) : d.fault.Braceless := by
  unfold Fault.Braceless
  cases h with
  | argumentType h hf hp => simp [Fault.arguments, Ty.braceless_name, hf _ hp]
  | valueMissing | type => simp [Fault.arguments, Ty.braceless_name]
  | argumentCount =>
    have ht := hn _ List.mem_cons_self
    simp [Fault.arguments, Braceless.toDigits, ht]
  | _ =>
    have ht := hn _ List.mem_cons_self
    simp [Fault.arguments, Ty.braceless_name, ht]

namespace Cursor

variable {c c' : Cursor}

theorem Step.braceless (h : Step c c') (hc : ∀ d ∈ c.diagnostics, d.fault.Braceless) :
    ∀ d ∈ c'.diagnostics, d.fault.Braceless := by
  have hreport {d : Diagnostic} (hd : d.fault.Braceless) :
      ∀ d' ∈ (c.report d).diagnostics, d'.fault.Braceless :=
    List.forall_mem_append.mpr ⟨hc, List.forall_mem_singleton.mpr hd⟩
  cases h with
  | advance => exact hc
  | lacking kind =>
    rw [Cursor.lacking]
    split
    · exact hc
    · refine hreport ?_
      simp [Fault.Braceless, Fault.arguments, TokenKind.braceless_name]
  | giveUp =>
    rw [Cursor.giveUp]
    split
    · exact hc
    · refine hreport ?_
      simp [Fault.Braceless, Fault.arguments, Braceless.toDigits]

end Cursor

namespace Fragment

variable (text : String)

theorem braceless_diagnostics : ∀ d ∈ (ofText text).diagnostics, d.fault.Braceless := by
  obtain ⟨c, hread, hdiagnostics⟩ := exists_read text
  rw [hdiagnostics, List.forall_mem_append]
  refine ⟨fun d hd => Lexeme.braceless_fault hd, ?_⟩
  exact hread.steps.keeps (P := fun c => ∀ d ∈ c.diagnostics, d.fault.Braceless)
    (fun _ _ hstep hc => hstep.braceless hc) (List.forall_mem_nil _)

theorem quotable_statement : (Node.statement (ofText text).tree.statement).All Node.Quotable := by
  obtain ⟨c, hread, -⟩ := exists_read text
  generalize (ofText text).tree = tree at hread ⊢
  cases hread with
  | whole h _ => exact h.quotable (.ofText text)

end Fragment

namespace Compilation

theorem braceless_faultsAfter {text : String} {c : Compilation} {earlier : List Compilation}
    (hc : c.fragment = .ofText text) : ∀ d ∈ c.faultsAfter earlier, d.fault.Braceless := by
  have hnative := Snapshot.native_surroundings (earlier.map snapshot)
  have hscopes : (Snapshot.surroundings (earlier.map snapshot)).Offers Function.Braceless :=
    fun _ _ hf => Function.braceless_of_mem_builtins _ (hnative.mem_builtins hf)
  intro d hd
  rw [faultsAfter, hc] at hd
  obtain ⟨m, hm, hcause⟩ := Statement.caused_bind hscopes _ d hd
  exact hcause.braceless (Fragment.quotable_statement text m hm)

theorem braceless_diagnostics (texts : List String) :
    ∀ c ∈ chainOf (texts.map Fragment.ofText), ∀ d ∈ c.diagnostics, d.fault.Braceless := by
  induction texts using List.reverseRecOn with
  | nil => exact List.forall_mem_nil _
  | append_singleton texts text ih =>
    rw [List.map_append, List.map_singleton, chainOf_concat, List.forall_mem_cons]
    refine ⟨?_, ih⟩
    rw [diagnostics, diagnostics_snapshot_after, List.forall_mem_append, List.forall_mem_append]
    refine ⟨Fragment.braceless_diagnostics text, fun d hd => ?_, braceless_faultsAfter rfl⟩
    cases hchain : chainOf (texts.map Fragment.ofText) with
    | nil => simp [hchain] at hd
    | cons c earlier =>
      rw [hchain] at hd ih
      exact ih c List.mem_cons_self d (List.mem_append_right _ hd)

/-- In a chain of texts, the message of each diagnostic is the template of its kind with every word
in its place, put in at the same time: no word is taken for a placeholder. -/
theorem messages_verbatim {texts : List String} {c : Compilation}
    (hc : c ∈ chainOf (texts.map Fragment.ofText)) {d : Diagnostic} (hd : d ∈ c.diagnostics) :
    d.fault.Verbatim := (braceless_diagnostics texts c hc d hd).verbatim

/-- A fault of the first text comes back with the second, which quotes placeholders. -/
theorem messages_verbatim_placeholders :
    let first := after [] (.ofText "var x = \"\x7b1\x7d\" - 1")
    let second := after [first] (.ofText "\x7b x = \"\x7b0\x7d\" + \x7b1\x7d & y")
    let d : Diagnostic := ⟨⟨14, 1⟩, .undefinedBinaryOperator "-" "string" "int"⟩
    second ∈ chainOf (["var x = \"\x7b1\x7d\" - 1",
        "\x7b x = \"\x7b0\x7d\" + \x7b1\x7d & y"].map Fragment.ofText) ∧
      d ∈ second.diagnostics ∧ d.fault.Verbatim ∧
      d.message = "Binary operator '-' is not defined for types 'string' and 'int'." := by
  intro first second d
  have hsecond : second ∈ chainOf (["var x = \"\x7b1\x7d\" - 1",
      "\x7b x = \"\x7b0\x7d\" + \x7b1\x7d & y"].map Fragment.ofText) := List.mem_cons_self
  have hd : d ∈ second.diagnostics := by decide +kernel
  exact ⟨hsecond, hd, messages_verbatim hsecond hd, by decide +kernel⟩

end Compilation

end ScalarScript
