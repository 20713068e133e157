import Mathlib.Data.List.Forall2
import ScalarScript.Proofs.Scope.Everywhere

set_option autoImplicit false

namespace ScalarScript

namespace ScopeChain

variable {chain : ScopeChain}

def Taken (chain : ScopeChain) (name : String) : Prop :=
  (chain.current.variableNamed? name).isSome

instance (chain : ScopeChain) (name : String) : Decidable (chain.Taken name) :=
  inferInstanceAs (Decidable (_ = true))

theorem variableNamed?_eq (chain : ScopeChain) (name : String) :
    chain.variableNamed? name = (chain.current.variableNamed? name).or
      (chain.scopes.tail.findSome? fun scope => scope.variableNamed? name) := by
  unfold variableNamed?
  rw [scopes_eq, List.findSome?_cons]
  cases chain.current.variableNamed? name <;> rfl

@[simp] theorem variableNamed?_push (chain : ScopeChain) (name : String) :
    chain.push.variableNamed? name = chain.variableNamed? name := rfl

@[simp] theorem variableNamed?_advance (chain : ScopeChain) (n : Nat) (name : String) :
    (chain.advance n).variableNamed? name = chain.variableNamed? name := rfl

theorem not_taken_push (chain : ScopeChain) (name : String) : ¬chain.push.Taken name := by
  simp [Taken, push, current, Scope.empty, Scope.variableNamed?]

theorem variableNamed?_enterAll (chain : ScopeChain) (vs : List Variable) (name : String) :
    (chain.enterAll vs).variableNamed? name =
      if chain.Taken name then chain.variableNamed? name
      else (vs.find? fun v => v.name == name).or (chain.variableNamed? name) := by
  rw [variableNamed?_eq, variableNamed?_eq chain, current_enterAll, scopes_enterAll,
    Scope.variableNamed?_enterAll, List.tail_cons, Option.or_assoc]
  by_cases h : chain.Taken name
  · obtain ⟨v, hv⟩ := Option.isSome_iff_exists.mp h
    rw [if_pos h, hv]
    rfl
  · have hv := Option.not_isSome_iff_eq_none.mp h
    rw [if_neg h, hv]
    rfl

theorem taken_enterAll (chain : ScopeChain) (vs : List Variable) (name : String) :
    (chain.enterAll vs).Taken name ↔ chain.Taken name ∨ ∃ v ∈ vs, v.name = name := by
  unfold Taken
  rw [current_enterAll, Scope.variableNamed?_enterAll]
  simp [Option.isSome_or]

@[simp] theorem functionNamed?_push (chain : ScopeChain) (name : String) :
    chain.push.functionNamed? name = chain.functionNamed? name := rfl

@[simp] theorem functionNamed?_advance (chain : ScopeChain) (n : Nat) (name : String) :
    (chain.advance n).functionNamed? name = chain.functionNamed? name := rfl

@[simp] theorem functionNamed?_enterAll (chain : ScopeChain) (vs : List Variable) (name : String) :
    (chain.enterAll vs).functionNamed? name = chain.functionNamed? name := by
  have hfunctions (scope : Scope) :
      (scope.enterAll vs).functionNamed? name = scope.functionNamed? name := by
    simp only [Scope.functionNamed?, Scope.functions_enterAll]
  unfold functionNamed?
  rw [scopes_enterAll, scopes_eq chain, List.findSome?_cons, List.findSome?_cons, hfunctions,
    List.tail_cons]

end ScopeChain

theorem rel_find? {R : Variable → Variable → Prop} (hR : ∀ v w, R v w → w.name = v.name)
    {vs ws : List Variable} (h : List.Forall₂ R vs ws) (name : String) :
    Option.Rel R (vs.find? fun v => v.name == name) (ws.find? fun w => w.name == name) := by
  induction h with
  | nil => exact .none
  | @cons v w vs ws hvw hrest ih =>
    rw [List.find?_cons, List.find?_cons, hR v w hvw]
    cases v.name == name with
    | true => exact .some hvw
    | false => exact ih

theorem names_eq {R : Variable → Variable → Prop} (hR : ∀ v w, R v w → w.name = v.name)
    {vs ws : List Variable} (h : List.Forall₂ R vs ws) :
    ws.map Variable.name = vs.map Variable.name := by
  induction h with
  | nil => rfl
  | @cons v w vs ws hvw hrest ih => rw [List.map_cons, List.map_cons, hR v w hvw, ih]

namespace ScopeChain

/-- Under every name the stacks have related variables or none, and the names in `D` are taken in
both innermost scopes or in neither. -/
structure Alike (R : Variable → Variable → Prop) (D : String → Prop) (S S' : ScopeChain) :
    Prop where
  visible : ∀ name, Option.Rel R (S.variableNamed? name) (S'.variableNamed? name)
  taken : ∀ name, D name → (S'.Taken name ↔ S.Taken name)
  functions : ∀ name, S'.functionNamed? name = S.functionNamed? name

namespace Alike

variable {R : Variable → Variable → Prop} {D D' : String → Prop} {S S' : ScopeChain}

theorem push (h : Alike R D S S') (D' : String → Prop) : Alike R D' S.push S'.push where
  visible := h.visible
  taken name _ := iff_of_false (not_taken_push S' name) (not_taken_push S name)
  functions := h.functions

theorem advance (h : Alike R D S S') (m n : Nat) : Alike R D (S.advance m) (S'.advance n) :=
  ⟨h.visible, h.taken, h.functions⟩

theorem enterAll (hR : ∀ v w, R v w → w.name = v.name) (h : Alike R D S S')
    {vs ws : List Variable} (hv : List.Forall₂ R vs ws) (hD : ∀ v ∈ vs, D v.name) :
    Alike R D (S.enterAll vs) (S'.enterAll ws) where
  visible name := by
    have hfind := rel_find? hR hv name
    have hvisible := h.visible name
    rw [variableNamed?_enterAll, variableNamed?_enterAll]
    by_cases hname : D name
    · rw [if_congr (h.taken name hname) rfl rfl]
      split
      · exact hvisible
      · revert hfind
        cases vs.find? fun v => v.name == name <;> cases ws.find? fun w => w.name == name
        · exact fun _ => hvisible
        · exact fun hfind => by cases hfind
        · exact fun hfind => by cases hfind
        · exact id
    · have hnone : (vs.find? fun v => v.name == name) = none :=
        List.find?_eq_none.mpr fun v hmem hv => hname (eq_of_beq hv ▸ hD v hmem)
      rw [hnone] at hfind
      cases hw : ws.find? fun w => w.name == name with
      | some w =>
        rw [hw] at hfind
        cases hfind
      | none => simpa [hnone] using hvisible
  taken name hname := by
    have hnames : (∃ w ∈ ws, w.name = name) ↔ ∃ v ∈ vs, v.name = name := by
      rw [← List.mem_map, names_eq hR hv, List.mem_map]
    rw [taken_enterAll, taken_enterAll, h.taken name hname, hnames]
  functions name := by simp [h.functions name]

end Alike

end ScopeChain

end ScalarScript
