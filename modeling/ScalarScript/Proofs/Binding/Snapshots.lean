import ScalarScript.Program.Snapshot
import ScalarScript.Proofs.Binding.Scoping
import ScalarScript.Proofs.Scope.Everywhere

set_option autoImplicit false

namespace ScalarScript

open Binder

namespace Snapshot

theorem replay_eq (snapshot : Snapshot) (chain : ScopeChain) :
    snapshot.replay chain = chain.push.enterAll snapshot.exported := rfl

def surroundings (earlier : List Snapshot) : ScopeChain := (scopesAfter earlier).push

section Surroundings

variable {p : Variable → Prop}

theorem each_foldr_replay {earlier : List Snapshot} {chain : ScopeChain} (hc : chain.Each p)
    (h : ∀ snapshot ∈ earlier, ∀ v ∈ snapshot.exported, p v) :
    (earlier.foldr replay chain).Each p := by
  induction earlier with
  | nil => exact hc
  | cons snapshot earlier ih =>
    rw [List.forall_mem_cons] at h
    exact (ih h.2).push.enterAll h.1

theorem native_foldr_replay (earlier : List Snapshot) {chain : ScopeChain} (hc : chain.Native) :
    (earlier.foldr replay chain).Native := by
  induction earlier with
  | nil => exact hc
  | cons snapshot earlier ih => exact ih.push.enterAll snapshot.exported

theorem each_surroundings {earlier : List Snapshot}
    (h : ∀ snapshot ∈ earlier, ∀ v ∈ snapshot.exported, p v) : (surroundings earlier).Each p :=
  (each_foldr_replay (ScopeChain.each_ofFragment _) h).push

theorem native_surroundings (earlier : List Snapshot) : (surroundings earlier).Native :=
  (native_foldr_replay earlier (ScopeChain.native_ofFragment _)).push

theorem foldr_replay_numbering (earlier : List Snapshot) (chain : ScopeChain) :
    (earlier.foldr replay chain).fragment = chain.fragment ∧
      (earlier.foldr replay chain).nextIndex = chain.nextIndex := by
  induction earlier with
  | nil => exact ⟨rfl, rfl⟩
  | cons snapshot earlier ih =>
    rw [List.foldr_cons, replay_eq, ScopeChain.fragment_enterAll, ScopeChain.nextIndex_enterAll]
    exact ih

@[simp] theorem fragment_surroundings (earlier : List Snapshot) :
    (surroundings earlier).fragment = earlier.length :=
  (foldr_replay_numbering earlier _).1

@[simp] theorem nextIndex_surroundings (earlier : List Snapshot) :
    (surroundings earlier).nextIndex = 0 :=
  (foldr_replay_numbering earlier _).2

@[simp] theorem current_surroundings (earlier : List Snapshot) :
    (surroundings earlier).current = .empty := rfl

end Surroundings

section Bind

variable (earlier : List Snapshot) (tree : Tree)

theorem action_bind :
    (bind earlier tree).action = tree.statement.bind.result (surroundings earlier) := rfl

theorem diagnostics_bind :
    (bind earlier tree).diagnostics = (earlier.head?.map Snapshot.diagnostics).getD [] ++
      tree.statement.bind.found (surroundings earlier) := rfl

/-- A fragment exports the variables that leak out of its action, the first of each name. -/
theorem exported_bind :
    (bind earlier tree).exported = (Scope.empty.enterAll (bind earlier tree).action.leaked).vars := by
  have h : (bind earlier tree).exported =
      (tree.statement.bind.scopesAfter (surroundings earlier)).current.vars := rfl
  rw [h, Statement.scopesAfter_bind, ScopeChain.current_advance, ScopeChain.current_enterAll,
    current_surroundings, action_bind]

theorem exported_sublist_leaked :
    (bind earlier tree).exported.Sublist (bind earlier tree).action.leaked := by
  rw [exported_bind]
  exact Scope.vars_enterAll_sublist .empty _

theorem exported_sublist_declared :
    (bind earlier tree).exported.Sublist (bind earlier tree).action.declared :=
  (exported_sublist_leaked earlier tree).trans (Action.leaked_sublist_declared _)

theorem nodup_names_exported : ((bind earlier tree).exported.map Variable.name).Nodup := by
  rw [exported_bind]
  have hnone : (Scope.empty.vars.map Variable.name).Nodup := List.nodup_nil
  exact Scope.nodup_names_enterAll hnone _

theorem mem_leaked_of_exported {v : Variable} (h : v ∈ (bind earlier tree).exported) :
    v ∈ (bind earlier tree).action.leaked := (exported_sublist_leaked earlier tree).subset h

theorem mem_exported_bind {v : Variable} (h : v ∈ (bind earlier tree).exported) :
    v ∈ (bind earlier tree).action.declared := (exported_sublist_declared earlier tree).subset h

/-- The declarations of a fragment are numbered in the order of the text, each of them once. -/
theorem numbered_bind : Numbered (surroundings earlier) tree.statement.declarations
    (bind earlier tree).action.declared := tree.statement.numbered_declared _

theorem id_of_declared {v : Variable} (h : v ∈ (bind earlier tree).action.declared) :
    v.id.fragment = earlier.length ∧ v.id.index < tree.statement.declarations.length := by
  have hid := (numbered_bind earlier tree).id_of_mem h
  rw [fragment_surroundings, nextIndex_surroundings, Nat.zero_add] at hid
  exact ⟨hid.1, hid.2.2⟩

end Bind

end Snapshot

end ScalarScript
