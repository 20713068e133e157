import Mathlib.Data.List.Nodup
import ScalarScript.Proofs.Session.Gate

set_option autoImplicit false

namespace ScalarScript

namespace Compilation

theorem ordinalAfter_eq_length (earlier : List Compilation) :
    ordinalAfter earlier = earlier.length := by
  induction earlier with
  | nil => rfl
  | cons c earlier ih => exact congrArg (· + 1) ih

/-- The variables declared anywhere in the fragments of a chain, in the order of the chain. -/
def declaredIn (chain : List Compilation) : List Variable :=
  chain.flatMap fun c => c.snapshot.action.declared

/-- The numbers of the latest compilation of a chain, of its variables, and of all variables that
were declared in the chain. -/
structure Numbered (c : Compilation) (earlier : List Compilation) : Prop where
  ordinal : c.snapshot.ordinal = ordinalAfter earlier
  ordinals : (c :: earlier).map (fun d => d.snapshot.ordinal) =
    (List.range (ordinalAfter earlier + 1)).reverse
  diagnostics : ∀ d ∈ earlier.head?, d.snapshot.diagnostics <+: c.snapshot.diagnostics
  names : (c.snapshot.exported.map Variable.name).Nodup
  ascending : c.snapshot.exported.Pairwise fun v w => v.id.index < w.id.index
  own : ∀ v ∈ c.snapshot.exported, v.id.fragment = c.snapshot.ordinal
  counted : ∀ v ∈ c.snapshot.action.declared, v.id.fragment = c.snapshot.ordinal ∧
    v.id.index < c.fragment.tree.statement.declarations.length
  ids : ((declaredIn (c :: earlier)).map Variable.id).Nodup
  keys : (declaredIn (c :: earlier)).Nodup

variable {fragments : List Fragment} {c : Compilation} {earlier : List Compilation}

theorem ordinal_of_suffix (h : c :: earlier <:+ chainOf fragments) :
    c.snapshot.ordinal = ordinalAfter earlier := by
  induction earlier generalizing c with
  | nil =>
    obtain ⟨-, -, hc⟩ := eq_after_of_suffix h
    rw [hc]
    rfl
  | cons d earlier ih =>
    obtain ⟨-, -, hc⟩ := eq_after_of_suffix h
    have hd := ih ((List.suffix_cons c _).trans h)
    rw [hc, ordinalAfter, ← hd]
    rfl

theorem ordinals_of_suffix (h : c :: earlier <:+ chainOf fragments) :
    (c :: earlier).map (fun d => d.snapshot.ordinal) =
      (List.range (ordinalAfter earlier + 1)).reverse := by
  induction earlier generalizing c with
  | nil => rw [List.map_singleton, ordinal_of_suffix h]; rfl
  | cons d earlier ih =>
    rw [List.map_cons, ih ((List.suffix_cons c _).trans h), ordinal_of_suffix h,
      List.range_succ (n := ordinalAfter (d :: earlier)), List.reverse_append]
    rfl

theorem id_of_declared (h : c :: earlier <:+ chainOf fragments) {v : Variable}
    (hv : v ∈ c.snapshot.action.declared) :
    v.id.fragment = earlier.length ∧
      v.id.index < c.fragment.tree.statement.declarations.length := by
  obtain ⟨-, -, hc⟩ := eq_after_of_suffix h
  rw [hc] at hv
  have hid := Snapshot.id_of_declared _ _ hv
  rwa [List.length_map] at hid

theorem nodup_ids_declared (h : c :: earlier <:+ chainOf fragments) :
    (c.snapshot.action.declared.map Variable.id).Nodup := by
  obtain ⟨-, -, hc⟩ := eq_after_of_suffix h
  have hascend := (Snapshot.numbered_bind (earlier.map snapshot) c.fragment.tree).ascending
  rw [hc]
  exact List.pairwise_map.mpr (hascend.imp fun hlt heq =>
    Nat.ne_of_lt hlt (congrArg SymbolId.index heq))

/-- Ids of different fragments differ in their first part, those of one fragment in the second. -/
theorem nodup_ids_declaredIn {chain : List Compilation} (h : chain <:+ chainOf fragments) :
    ((declaredIn chain).map Variable.id).Nodup ∧
      ∀ v ∈ declaredIn chain, v.id.fragment < chain.length := by
  induction chain with
  | nil => exact ⟨List.nodup_nil, nofun⟩
  | cons c earlier ih =>
    obtain ⟨hnodup, hbelow⟩ := ih ((List.suffix_cons c earlier).trans h)
    rw [declaredIn, List.flatMap_cons, ← declaredIn]
    constructor
    · -- those declared earlier carry a number below that of the latest fragment
      rw [List.map_append]
      refine List.nodup_append.mpr ⟨nodup_ids_declared h, hnodup, ?_⟩
      intro id hid other hother heq
      obtain ⟨v, hv, rfl⟩ := List.mem_map.mp hid
      obtain ⟨w, hw, rfl⟩ := List.mem_map.mp hother
      have hlt := hbelow w hw
      rw [← heq, (id_of_declared h hv).1] at hlt
      exact Nat.lt_irrefl _ hlt
    · intro v hv
      rw [List.length_cons]
      rcases List.mem_append.mp hv with hv | hv
      · rw [(id_of_declared h hv).1]
        exact Nat.lt_succ_self _
      · exact Nat.lt_succ_of_lt (hbelow v hv)

/-- In a chain the fragments are numbered one after the other, and no two declarations have the same
id or are the same variable, wherever they stand. -/
theorem numbered_of_suffix (h : c :: earlier <:+ chainOf fragments) : c.Numbered earlier := by
  obtain ⟨-, -, hc⟩ := eq_after_of_suffix h
  have hordinal := ordinal_of_suffix h
  have hcounted : ∀ v ∈ c.snapshot.action.declared, v.id.fragment = c.snapshot.ordinal ∧
      v.id.index < c.fragment.tree.statement.declarations.length := by
    intro v hv
    rw [hordinal, ordinalAfter_eq_length]
    exact id_of_declared h hv
  have hexported : c.snapshot.exported.Sublist c.snapshot.action.declared := by
    rw [hc]
    exact Snapshot.exported_sublist_declared _ _
  have hascend : c.snapshot.action.declared.Pairwise fun v w => v.id.index < w.id.index := by
    rw [hc]
    exact (Snapshot.numbered_bind _ _).ascending
  have hids := (nodup_ids_declaredIn h).1
  exact
    { ordinal := hordinal
      ordinals := ordinals_of_suffix h
      diagnostics := fun d hd => by
        rw [hc, diagnostics_snapshot_after, Option.mem_def.mp hd]
        exact List.prefix_append _ _
      names := by
        rw [hc]
        exact Snapshot.nodup_names_exported _ _
      ascending := hascend.sublist hexported
      own := fun v hv => (hcounted v (hexported.subset hv)).1
      counted := hcounted
      ids := hids
      keys := List.Nodup.of_map Variable.id hids }

/-- A variable that hides another, one that repeats it, and the variable of a loop. -/
theorem numbered_of_suffix_hidden :
    let texts := ["{ var a = 1 { let a = 2 } let a = 3 }", "for a = 1 to 2 var a = a"]
    let first := after [] (.ofText "{ var a = 1 { let a = 2 } let a = 3 }")
    let second := after [first] (.ofText "for a = 1 to 2 var a = a")
    [second, first] <:+ chainOf (texts.map Fragment.ofText) ∧ second.Numbered [first] ∧
      (declaredIn [second, first]).map Variable.id =
        [⟨1, 0⟩, ⟨1, 1⟩, ⟨0, 0⟩, ⟨0, 1⟩, ⟨0, 2⟩] := by
  intro texts first second
  have hchain : [second, first] <:+ chainOf (texts.map Fragment.ofText) := List.suffix_rfl
  exact ⟨hchain, numbered_of_suffix hchain, by decide +kernel⟩

end Compilation

end ScalarScript
