import Mathlib.Data.List.Induction
import ScalarScript.Session.Compilation
import ScalarScript.Proofs.Binding.Snapshots

/-!
What keeps a compilation from running: a fault in its own text, or in the meaning of a fragment of
its chain. A fault that is only in the text of an earlier fragment keeps no later one from running.
-/

set_option autoImplicit false

namespace ScalarScript

namespace Compilation

def faultsAfter (c : Compilation) (earlier : List Compilation) : List Diagnostic :=
  c.fragment.tree.statement.bind.found (Snapshot.surroundings (earlier.map snapshot))

def Meaningful (chain : List Compilation) : Prop :=
  ∀ c earlier, c :: earlier <:+ chain → c.faultsAfter earlier = []

/-- Nothing is wrong with the text of a compilation, nor with its meaning or the meaning of one
before it. -/
structure Clear (c : Compilation) (earlier : List Compilation) : Prop where
  text : c.fragment.diagnostics = []
  meaning : Meaningful (c :: earlier)

structure Faultless (chain : List Compilation) : Prop where
  texts : ∀ c ∈ chain, c.fragment.diagnostics = []
  meaning : Meaningful chain

/-- The compilation runs if the gate is open; if not, there are diagnostics, and nothing is changed. -/
def GatedBy (c : Compilation) (gate : Prop) (rounds : Nat) (store : Store) (host : Host)
    (seed : Option UInt64) : Prop :=
  (gate ∧ c.evaluate rounds store host seed =
      let outcome := c.snapshot.action.execute rounds store host seed
      ⟨outcome.result.map fun value => ⟨[], value⟩, outcome.store, outcome.host⟩) ∨
    (¬gate ∧ ∃ diagnostics, diagnostics ≠ [] ∧
      c.evaluate rounds store host seed = ⟨.ok ⟨diagnostics, none⟩, store, host⟩)

theorem meaningful_nil : Meaningful [] := fun _ _ h => by simp at h

theorem meaningful_cons {c : Compilation} {earlier : List Compilation} :
    Meaningful (c :: earlier) ↔ Meaningful earlier ∧ c.faultsAfter earlier = [] := by
  constructor
  · intro h
    exact ⟨fun d ds hd => h d ds (hd.trans (List.suffix_cons c earlier)),
      h c earlier List.suffix_rfl⟩
  · rintro ⟨hearlier, hc⟩ d ds hd
    rcases List.suffix_cons_iff.mp hd with heq | hd
    · obtain ⟨rfl, rfl⟩ := List.cons.inj heq
      exact hc
    · exact hearlier d ds hd

/-- A compilation of a chain was made after the chain of the fragments before its own. -/
theorem eq_after_of_suffix {fragments : List Fragment} {c : Compilation}
    {earlier : List Compilation} (h : c :: earlier <:+ chainOf fragments) :
    ∃ before, earlier = chainOf before ∧ c = after earlier c.fragment := by
  induction fragments using List.reverseRecOn with
  | nil => simp [chainOf] at h
  | append_singleton fragments fragment ih =>
    rw [chainOf_concat] at h
    rcases List.suffix_cons_iff.mp h with heq | h
    · obtain ⟨rfl, rfl⟩ := List.cons.inj heq
      exact ⟨fragments, rfl, rfl⟩
    · exact ih h

theorem diagnostics_snapshot_after (earlier : List Compilation) (fragment : Fragment) :
    (after earlier fragment).snapshot.diagnostics =
      (earlier.head?.map fun c => c.snapshot.diagnostics).getD [] ++
        (after earlier fragment).faultsAfter earlier := by
  have h := Snapshot.diagnostics_bind (earlier.map snapshot) fragment.tree
  rw [List.head?_map, Option.map_map] at h
  exact h

/-- The snapshot of a chain's latest compilation has gathered all faults of meaning in the chain. -/
theorem meaningful_chainOf (fragments : List Fragment) :
    Meaningful (chainOf fragments) ↔
      ((chainOf fragments).head?.map fun c => c.snapshot.diagnostics).getD [] = [] := by
  induction fragments using List.reverseRecOn with
  | nil => simp [chainOf, meaningful_nil]
  | append_singleton fragments fragment ih =>
    rw [chainOf_concat, meaningful_cons, ih, List.head?_cons, Option.map_some, Option.getD_some,
      diagnostics_snapshot_after, List.append_eq_nil_iff]

theorem clear_iff {fragments : List Fragment} {c : Compilation} {earlier : List Compilation}
    (h : c :: earlier <:+ chainOf fragments) : Clear c earlier ↔ c.diagnostics = [] := by
  obtain ⟨before, rfl, hc⟩ := eq_after_of_suffix h
  have hmeaning := meaningful_chainOf (before ++ [c.fragment])
  rw [chainOf_concat, ← hc, List.head?_cons, Option.map_some, Option.getD_some] at hmeaning
  rw [diagnostics, List.append_eq_nil_iff, ← hmeaning]
  exact ⟨fun h => ⟨h.text, h.meaning⟩, fun h => ⟨h.1, h.2⟩⟩

theorem faultless_cons {c : Compilation} {earlier : List Compilation} :
    Faultless (c :: earlier) ↔
      Clear c earlier ∧ ∀ d ∈ earlier, d.fragment.diagnostics = [] := by
  constructor
  · rintro ⟨htexts, hmeaning⟩
    obtain ⟨hc, hearlier⟩ := List.forall_mem_cons.mp htexts
    exact ⟨⟨hc, hmeaning⟩, hearlier⟩
  · rintro ⟨hclear, hearlier⟩
    exact ⟨List.forall_mem_cons.mpr ⟨hclear.text, hearlier⟩, hclear.meaning⟩

section

variable {fragments : List Fragment} {c : Compilation} {earlier : List Compilation}

theorem gatedBy_clear (h : c :: earlier <:+ chainOf fragments) (rounds : Nat) (store : Store)
    (host : Host) (seed : Option UInt64) :
    c.GatedBy (Clear c earlier) rounds store host seed := by
  rw [GatedBy, clear_iff h, evaluate]
  by_cases hd : c.diagnostics = []
  · exact .inl ⟨hd, by simp [hd]⟩
  · exact .inr ⟨hd, c.diagnostics, hd, by simp [hd]⟩

variable {gate gate' : Prop} {rounds : Nat} {store : Store} {host : Host} {seed : Option UInt64}

theorem GatedBy.iff (h : c.GatedBy gate rounds store host seed) :
    c.GatedBy gate' rounds store host seed ↔ (gate ↔ gate') := by
  have hdiffer {outcome : Outcome (Option Value)} {diagnostics : List Diagnostic}
      (hne : diagnostics ≠ []) : (⟨outcome.result.map fun value => ⟨[], value⟩, outcome.store,
        outcome.host⟩ : Outcome Evaluation) ≠ ⟨.ok ⟨diagnostics, none⟩, store, host⟩ := by
    intro heq
    cases hresult : outcome.result with
    | error halt => simp [hresult, Except.map] at heq
    | ok value =>
      simp only [hresult, Except.map, Outcome.mk.injEq, Except.ok.injEq, Evaluation.mk.injEq] at heq
      exact hne heq.1.1.symm
  constructor
  · intro h'
    obtain ⟨hg, hrun⟩ | ⟨hg, ds, hne, hkept⟩ := h <;>
      obtain ⟨hg', hrun'⟩ | ⟨hg', ds', hne', hkept'⟩ := h'
    · exact iff_of_true hg hg'
    · exact absurd (hrun.symm.trans hkept') (hdiffer hne')
    · exact absurd (hrun'.symm.trans hkept) (hdiffer hne)
    · exact iff_of_false hg hg'
  · intro hiff
    rwa [GatedBy, ← hiff]

/-- In a chain, a compilation runs exactly if nothing is wrong with its text, its meaning and the
meaning of those before it; otherwise there are diagnostics, and nothing is changed. So it is gated
by all that is wrong in the chain unless something is wrong with the text of an earlier one alone. -/
theorem evaluate_gated (h : c :: earlier <:+ chainOf fragments) (rounds : Nat) (store : Store)
    (host : Host) (seed : Option UInt64) :
    c.GatedBy (Clear c earlier) rounds store host seed ∧
      (c.GatedBy (Faultless (c :: earlier)) rounds store host seed ↔
        (Clear c earlier → ∀ d ∈ earlier, d.fragment.diagnostics = [])) := by
  have hclear := gatedBy_clear h rounds store host seed
  refine ⟨hclear, ?_⟩
  rw [hclear.iff, faultless_cons]
  exact iff_self_and

theorem evaluate_gated_meaningless :
    let first := after [] (.ofText "x")
    let c := after [first] (.ofText "write(\"y\")")
    [c, first] <:+ chainOf (["x", "write(\"y\")"].map Fragment.ofText) ∧
      first.fragment.diagnostics = [] ∧
      c.GatedBy (Faultless [c, first]) 1 .empty (.ofLines []) none ∧
      ¬Clear c [first] ∧ ∃ diagnostics, diagnostics ≠ [] ∧
        c.evaluate 1 .empty (.ofLines []) none =
          ⟨.ok ⟨diagnostics, none⟩, .empty, .ofLines []⟩ := by
  intro first c
  have hchain : [c, first] <:+ chainOf (["x", "write(\"y\")"].map Fragment.ofText) :=
    List.suffix_rfl
  have hread : first.fragment.diagnostics = [] := by decide +kernel
  have hfaulty : c.diagnostics ≠ [] := by decide +kernel
  have h := evaluate_gated hchain 1 .empty (.ofLines []) none
  exact ⟨hchain, hread, h.2.mpr fun _ => List.forall_mem_singleton.mpr hread,
    h.1.resolve_left fun hrun => hfaulty ((clear_iff hchain).mp hrun.1)⟩

end

/-- After a text that could not be read without a fault, one that is in order runs nevertheless. -/
theorem evaluate_after_misread :
    ∃ c first, chainOf (["1 )", "write(\"y\")"].map Fragment.ofText) = [c, first] ∧
      first.fragment.diagnostics ≠ [] ∧
      c.evaluate 1 .empty (.ofLines []) none =
        ⟨.ok ⟨[], none⟩, .empty, (Host.ofLines []).writeLine "y"⟩ :=
  ⟨_, _, rfl, by decide +kernel, rfl⟩

end Compilation

end ScalarScript
