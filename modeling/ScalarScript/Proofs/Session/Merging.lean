import ScalarScript.Proofs.Names.Snapshots
import ScalarScript.Proofs.Renaming.Binding

/-!
Fragments merged into one. The declarations of all of them are numbered through, and in the scope of
a block that has the statements of the earlier fragments behind it, names stand for the same
variables as in a fragment after these, under the new ids.
-/

set_option autoImplicit false

namespace ScalarScript

open Binder

def offset : List Nat → Nat → Nat
  | [], _ => 0
  | _ :: _, 0 => 0
  | count :: counts, fragment + 1 => count + offset counts fragment

@[simp] theorem offset_zero (counts : List Nat) : offset counts 0 = 0 := by
  cases counts <;> rfl

theorem offset_add_le {counts : List Nat} {k l n : Nat} (hk : counts[k]? = some n) (h : k < l) :
    offset counts k + n ≤ offset counts l := by
  induction counts generalizing k l with
  | nil => cases hk
  | cons count counts ih =>
    cases l with
    | zero => cases h
    | succ l =>
      cases k with
      | zero =>
        rw [List.getElem?_cons_zero, Option.some.injEq] at hk
        simp only [offset]
        omega
      | succ k =>
        rw [List.getElem?_cons_succ] at hk
        have hrest := ih hk (Nat.lt_of_succ_lt_succ h)
        simp only [offset]
        omega

theorem offset_succ {counts : List Nat} {k n : Nat} (hk : counts[k]? = some n) :
    offset counts (k + 1) = offset counts k + n := by
  induction counts generalizing k with
  | nil => cases hk
  | cons count counts ih =>
    cases k with
    | zero =>
      rw [List.getElem?_cons_zero, Option.some.injEq] at hk
      simp [offset, hk]
    | succ k =>
      rw [List.getElem?_cons_succ] at hk
      have hrest := ih hk
      simp only [offset] at hrest ⊢
      omega

def merged (counts : List Nat) (id : SymbolId) : SymbolId :=
  ⟨0, offset counts id.fragment + id.index⟩

def Counted (counts : List Nat) (v : Variable) : Prop :=
  ∃ n, counts[v.id.fragment]? = some n ∧ v.id.index < n

theorem separates_merged (counts : List Nat) : Separates (merged counts) (Counted counts) := by
  rintro ⟨⟨k, i⟩, name, isReadOnly, type⟩ ⟨⟨l, j⟩, name', isReadOnly', type'⟩ ⟨n, hk, hi⟩
    ⟨m, hl, hj⟩ h
  simp only [Variable.rename, merged, Variable.mk.injEq, SymbolId.mk.injEq, true_and] at h hk hl hi hj
  obtain ⟨hid, rfl, rfl, rfl⟩ := h
  have hkl : k = l := by
    rcases Nat.lt_trichotomy k l with hlt | heq | hlt
    · have := offset_add_le hk hlt
      omega
    · exact heq
    · have := offset_add_le hl hlt
      omega
  subst hkl
  have hij : i = j := by omega
  rw [hij]

theorem Numbered.counted {S : ScopeChain} {names : List Token} {vs : List Variable}
    {counts : List Nat} (h : Numbered S names vs) (hnext : S.nextIndex = 0)
    (hcount : counts[S.fragment]? = some names.length) : ∀ v ∈ vs, Counted counts v := by
  intro v hv
  obtain ⟨hfragment, -, hindex⟩ := h.id_of_mem hv
  rw [hnext, Nat.zero_add] at hindex
  exact ⟨names.length, by rw [hfragment, hcount], hindex⟩

namespace Snapshot

variable {counts : List Nat} {earlier : List Snapshot} {T : ScopeChain} {tree : Tree}

theorem find?_exported_bind (earlier : List Snapshot) (tree : Tree) (name : String) :
    ((bind earlier tree).exported.find? fun v => v.name == name) =
      (bind earlier tree).action.leaked.find? fun v => v.name == name := by
  have hfind := Scope.variableNamed?_enterAll .empty (bind earlier tree).action.leaked name
  rw [Scope.variableNamed?_empty, Option.none_or] at hfind
  rw [exported_bind]
  exact hfind

/-- The scopes inside a block with the statements of these fragments behind it. -/
structure Gathers (counts : List Nat) (earlier : List Snapshot) (T : ScopeChain) : Prop where
  visible : ∀ name,
    T.variableNamed? name = (exported? earlier name).map (Variable.rename (merged counts))
  taken : ∀ name, T.Taken name ↔ (exported? earlier name).isSome
  native : T.Native
  fragment : T.fragment = 0
  nextIndex : T.nextIndex = offset counts earlier.length

theorem gathers_nil (counts : List Nat) : Gathers counts [] (surroundings []).push where
  visible name := by
    rw [ScopeChain.variableNamed?_push, surroundings, ScopeChain.variableNamed?_push,
      variableNamed?_scopesAfter]
    rfl
  taken name := by
    simp [ScopeChain.not_taken_push, exported?]
  native := (native_surroundings []).push
  fragment := rfl
  nextIndex := (offset_zero counts).symm

namespace Gathers

theorem renames (h : Gathers counts earlier T) {D : String → Prop}
    (hD : ∀ name, D name → exported? earlier name = none) :
    (surroundings earlier).Renames (merged counts) D T where
  alike := by
    refine ⟨fun name => ?_, fun name hname => ?_, fun name => ?_⟩
    · rw [h.visible, surroundings, ScopeChain.variableNamed?_push, variableNamed?_scopesAfter]
      cases exported? earlier name with
      | none => exact .none
      | some v => exact .some rfl
    · rw [h.taken, hD name hname]
      exact iff_of_false (by simp) (ScopeChain.not_taken_push _ name)
    · rw [h.native.functionNamed?, (native_surroundings earlier).functionNamed?]
  lined i := by
    rw [fragment_surroundings, nextIndex_surroundings, merged, h.fragment, h.nextIndex, Nat.zero_add]

theorem enterAll (h : Gathers counts earlier T)
    (hnew : ∀ v ∈ (bind earlier tree).action.leaked, exported? earlier v.name = none)
    (hcount : counts[earlier.length]? = some tree.statement.declarations.length)
    {vs : List Variable}
    (hvs : vs = (bind earlier tree).action.leaked.map (Variable.rename (merged counts))) :
    Gathers counts (bind earlier tree :: earlier)
      ((T.enterAll vs).advance tree.statement.declarations.length) where
  visible name := by
    rw [ScopeChain.variableNamed?_advance, ScopeChain.variableNamed?_enterAll, exported?_cons,
      find?_exported_bind, h.visible, hvs, List.find?_map]
    by_cases htaken : T.Taken name
    -- What is taken in the block was exported before, so the fragment does not declare it.
    · have hsome := (h.taken name).mp htaken
      have hnone : ((bind earlier tree).action.leaked.find? fun v => v.name == name) = none := by
        refine List.find?_eq_none.mpr fun v hv hname => ?_
        rw [← eq_of_beq hname, hnew v hv] at hsome
        cases hsome
      rw [if_pos htaken, hnone, Option.none_or]
    · rw [if_neg htaken, Option.map_or]
      rfl
  taken name := by
    change (T.enterAll vs).Taken name ↔ _
    have hnames : (∃ w ∈ vs, w.name = name) ↔
        ∃ v ∈ (bind earlier tree).action.leaked, v.name = name := by
      simp [hvs, Variable.rename]
    rw [ScopeChain.taken_enterAll, h.taken, hnames, exported?_cons, find?_exported_bind,
      Option.isSome_or, Bool.or_eq_true, List.find?_isSome]
    simp [or_comm]
  native := (h.native.enterAll _).advance _
  fragment := by
    rw [← h.fragment]
    exact ScopeChain.fragment_enterAll T _
  nextIndex := by
    rw [ScopeChain.advance, ScopeChain.nextIndex_enterAll, h.nextIndex, List.length_cons,
      offset_succ hcount]

/-- A statement means in the block what it means as a fragment, and the block is then ready for the
next. -/
theorem bind (h : Gathers counts earlier T) {s : Statement}
    (hs : s.unplaced = tree.statement.unplaced)
    (hnew : ∀ v ∈ (Snapshot.bind earlier tree).action.leaked, exported? earlier v.name = none)
    (hcount : counts[earlier.length]? = some tree.statement.declarations.length) :
    Commutes (Action.Becomes (merged counts)) tree.statement.bind (surroundings earlier) s.bind T ∧
      Gathers counts (Snapshot.bind earlier tree :: earlier) (s.bind.scopesAfter T) := by
  have hrenames := h.renames (D := fun name => exported? earlier name = none) fun _ hname => hname
  have hcommutes := Statement.commutes_bind_of_unplaced hrenames hs hnew
  have hleaked : (s.bind.result T).leaked =
      (Snapshot.bind earlier tree).action.leaked.map (Variable.rename (merged counts)) := by
    rw [hcommutes.1, Action.leaked_rename, action_bind]
  refine ⟨hcommutes, ?_⟩
  rw [s.scopesAfter_bind, Statement.length_declarations_of_unplaced hs]
  exact h.enterAll hnew hcount hleaked

end Gathers

end Snapshot

end ScalarScript
