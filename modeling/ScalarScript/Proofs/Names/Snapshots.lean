import ScalarScript.Proofs.Binding.Snapshots
import ScalarScript.Proofs.Names.Lexical
import ScalarScript.Proofs.Names.References
import ScalarScript.Proofs.Names.Undefined
import ScalarScript.Proofs.Typing.Sessions

set_option autoImplicit false

namespace ScalarScript

open Binder

namespace Snapshot

def exported? (earlier : List Snapshot) (name : String) : Option Variable :=
  earlier.findSome? fun snapshot => snapshot.exported.find? fun v => v.name == name

theorem exported?_cons (snapshot : Snapshot) (earlier : List Snapshot) (name : String) :
    exported? (snapshot :: earlier) name =
      (snapshot.exported.find? fun v => v.name == name).or (exported? earlier name) := by
  unfold exported?
  rw [List.findSome?_cons]
  cases snapshot.exported.find? fun v => v.name == name <;> rfl

theorem mem_of_exported? {earlier : List Snapshot} {name : String} {v : Variable}
    (h : exported? earlier name = some v) :
    (∃ snapshot ∈ earlier, v ∈ snapshot.exported) ∧ v.name = name := by
  obtain ⟨snapshot, hmem, hfound⟩ := List.exists_of_findSome?_eq_some h
  exact ⟨⟨snapshot, hmem, List.mem_of_find?_eq_some hfound⟩, by simpa using List.find?_some hfound⟩

theorem variableNamed?_foldr_replay (earlier : List Snapshot) (chain : ScopeChain) (name : String) :
    (earlier.foldr replay chain).variableNamed? name =
      (exported? earlier name).or (chain.variableNamed? name) := by
  induction earlier with
  | nil => rfl
  | cons snapshot earlier ih =>
    rw [List.foldr_cons, replay_eq, ScopeChain.variableNamed?_enterAll,
      if_neg (ScopeChain.not_taken_push _ name), ScopeChain.variableNamed?_push, ih,
      exported?_cons, Option.or_assoc]

theorem variableNamed?_scopesAfter (earlier : List Snapshot) (name : String) :
    (scopesAfter earlier).variableNamed? name = exported? earlier name := by
  have hroot : (ScopeChain.ofFragment (nextFragment earlier)).variableNamed? name = none := rfl
  rw [scopesAfter, variableNamed?_foldr_replay, hroot, Option.or_none]

def history (earlier : List Snapshot) (tree : Tree) : History :=
  tree.statement.history (surroundings earlier) [0] 1

structure Lexical (earlier : List Snapshot) (tree : Tree) : Prop where
  complete : (history earlier tree).map Prod.fst = tree.statement.occurrences [0] 1
  /-- A use stands for the first variable of its name in the innermost open scope that has declared
  one before, or else for that of the latest earlier fragment that exports one. -/
  resolved : ∀ (before : History) (use : Occurrence) (v : Option Variable) (after : History),
    history earlier tree = before ++ (use, v) :: after → use.declares = false →
      v = before.lexical (exported? earlier) use
  declared : (history earlier tree).declared = (bind earlier tree).action.declared
  refers : (bind earlier tree).action.references.Sublist (history earlier tree).used
  refersToAll : (bind earlier tree).diagnostics = [] →
    (∀ snapshot ∈ earlier, ∀ v ∈ snapshot.exported, v.Typed False) →
      (bind earlier tree).action.references = (history earlier tree).used
  /-- The uses that stand for nothing are noted one by one, and no others. -/
  undefined : (bind earlier tree).diagnostics.filter Diagnostic.isUndefinedName =
    ((earlier.head?.map Snapshot.diagnostics).getD []).filter Diagnostic.isUndefinedName ++
      (history earlier tree).undefined

theorem reached_surroundings (earlier : List Snapshot) :
    Reached (scopesAfter earlier) [0] 1 [] (surroundings earlier) where
  layout := rfl
  nodup := by simp
  below := by simp
  past := by simp

/-- A fragment refers to what it declares itself and to what earlier ones export. -/
theorem mem_references_bind {earlier : List Snapshot} {tree : Tree} {v : Variable}
    (hv : v ∈ (bind earlier tree).action.references) :
    v ∈ (bind earlier tree).action.declared ∨ ∃ snapshot ∈ earlier, v ∈ snapshot.exported := by
  rw [action_bind] at hv ⊢
  have hused := (Statement.references_bind _ [0] 1 tree.statement).subset hv
  obtain ⟨⟨use, w⟩, hmem, hw⟩ := List.mem_filterMap.mp hused
  obtain ⟨before, after, hsplit⟩ := List.append_of_mem hmem
  have huse : use.declares = false := by
    cases hd : use.declares with
    | false => rfl
    | true => simp [hd] at hw
  simp only [huse, Bool.false_eq_true, if_false] at hw
  have hwalked := Statement.walked (reached_surroundings earlier) tree.statement
  have hlexical := hwalked.explained.split hsplit huse
  rw [hw, List.nil_append, History.lexical, variableNamed?_scopesAfter] at hlexical
  rcases Option.or_eq_some_iff.mp hlexical.symm with hinside | ⟨-, houtside⟩
  · obtain ⟨scope, -, hfound⟩ := List.exists_of_findSome?_eq_some hinside
    have hin := List.mem_of_find?_eq_some hfound
    rw [← Statement.declared_history _ [0] 1 tree.statement, hsplit]
    exact .inl (by simp [History.mem_declared_of_declaredIn hin])
  · exact .inr (mem_of_exported? houtside).1

end Snapshot

end ScalarScript
