import ScalarScript.Scope.Chain

/-!
Scopes as a stack. To enter a variable is to declare it unless its name is taken in the innermost
scope; what a scope says of a name is then what the first variable of that name is that was entered.
-/

set_option autoImplicit false

namespace ScalarScript

namespace Scope

def enter (scope : Scope) (v : Variable) : Scope := (scope.declare? v).getD scope

def enterAll (scope : Scope) (vs : List Variable) : Scope := vs.foldl enter scope

@[simp] theorem enterAll_nil (scope : Scope) : scope.enterAll [] = scope := rfl

@[simp] theorem enterAll_cons (scope : Scope) (v : Variable) (vs : List Variable) :
    scope.enterAll (v :: vs) = (scope.enter v).enterAll vs := rfl

theorem enterAll_append (scope : Scope) (vs ws : List Variable) :
    scope.enterAll (vs ++ ws) = (scope.enterAll vs).enterAll ws := List.foldl_append

theorem vars_enter (scope : Scope) (v : Variable) :
    (scope.enter v).vars =
      if (scope.variableNamed? v.name).isSome then scope.vars else scope.vars ++ [v] := by
  unfold enter declare?
  split <;> rfl

@[simp] theorem functions_enter (scope : Scope) (v : Variable) :
    (scope.enter v).functions = scope.functions := by
  unfold enter declare?
  split <;> rfl

@[simp] theorem functions_enterAll (scope : Scope) (vs : List Variable) :
    (scope.enterAll vs).functions = scope.functions := by
  induction vs generalizing scope with
  | nil => rfl
  | cons v vs ih => rw [enterAll_cons, ih, functions_enter]

theorem variableNamed?_enter (scope : Scope) (v : Variable) (name : String) :
    (scope.enter v).variableNamed? name =
      (scope.variableNamed? name).or (if v.name = name then some v else none) := by
  have hv := vars_enter scope v
  by_cases hn : v.name = name
  · subst hn
    cases h : scope.variableNamed? v.name with
    | none =>
      rw [h, Option.isSome_none, if_neg (by simp)] at hv
      simp only [variableNamed?] at h ⊢
      simp [hv, List.find?_append, h]
    | some w =>
      rw [h, Option.isSome_some, if_pos rfl] at hv
      simp only [variableNamed?] at h ⊢
      simp [hv, h]
  · have hvars : (scope.enter v).vars = scope.vars ∨ (scope.enter v).vars = scope.vars ++ [v] := by
      rw [hv]
      split <;> simp
    rcases hvars with h | h <;> simp [variableNamed?, h, List.find?_append, hn]

theorem variableNamed?_enterAll (scope : Scope) (vs : List Variable) (name : String) :
    (scope.enterAll vs).variableNamed? name =
      (scope.variableNamed? name).or (vs.find? fun v => v.name == name) := by
  induction vs generalizing scope with
  | nil => simp
  | cons v vs ih =>
    rw [enterAll_cons, ih, variableNamed?_enter, Option.or_assoc, List.find?_cons]
    congr 1
    cases hb : v.name == name with
    | true => simp [eq_of_beq hb]
    | false => simp [ne_of_beq_false hb]

@[simp] theorem variableNamed?_empty (name : String) : empty.variableNamed? name = none := rfl

theorem vars_enter_sublist (scope : Scope) (v : Variable) :
    (scope.enter v).vars.Sublist (scope.vars ++ [v]) := by
  rw [vars_enter]
  split
  · exact List.sublist_append_left _ _
  · exact .refl _

theorem vars_enterAll_sublist (scope : Scope) (vs : List Variable) :
    (scope.enterAll vs).vars.Sublist (scope.vars ++ vs) := by
  induction vs generalizing scope with
  | nil => simp
  | cons v vs ih =>
    have hboth := (ih (scope.enter v)).trans ((scope.vars_enter_sublist v).append_right vs)
    rwa [List.append_assoc] at hboth

theorem mem_vars_enterAll {scope : Scope} {vs : List Variable} {w : Variable}
    (h : w ∈ (scope.enterAll vs).vars) : w ∈ scope.vars ∨ w ∈ vs :=
  List.mem_append.mp ((scope.vars_enterAll_sublist vs).subset h)

theorem nodup_names_enter {scope : Scope} (h : (scope.vars.map Variable.name).Nodup)
    (v : Variable) : ((scope.enter v).vars.map Variable.name).Nodup := by
  rw [vars_enter]
  split
  · exact h
  · rename_i hnew
    have hnone : scope.vars.find? (fun w => w.name == v.name) = none :=
      Option.not_isSome_iff_eq_none.mp hnew
    have hname : v.name ∉ scope.vars.map Variable.name := by
      simpa [List.find?_eq_none] using hnone
    rw [List.map_append]
    refine List.nodup_append.mpr ⟨h, by simp, fun name hmem other hother heq => ?_⟩
    rw [List.map_singleton, List.mem_singleton, ← heq] at hother
    exact hname (hother ▸ hmem)

theorem nodup_names_enterAll {scope : Scope} (h : (scope.vars.map Variable.name).Nodup)
    (vs : List Variable) : ((scope.enterAll vs).vars.map Variable.name).Nodup := by
  induction vs generalizing scope with
  | nil => exact h
  | cons v vs ih => exact ih (nodup_names_enter h v)

theorem mem_of_variableNamed? {scope : Scope} {name : String} {v : Variable}
    (h : scope.variableNamed? name = some v) : v ∈ scope.vars ∧ v.name = name :=
  ⟨List.mem_of_find?_eq_some h, by simpa using List.find?_some h⟩

end Scope

namespace ScopeChain

def advance (chain : ScopeChain) (n : Nat) : ScopeChain :=
  { chain with nextIndex := chain.nextIndex + n }

def enter (chain : ScopeChain) (v : Variable) : ScopeChain := (chain.import? v).getD chain

def enterAll (chain : ScopeChain) (vs : List Variable) : ScopeChain := vs.foldl enter chain

@[simp] theorem enterAll_nil (chain : ScopeChain) : chain.enterAll [] = chain := rfl

@[simp] theorem advance_zero (chain : ScopeChain) : chain.advance 0 = chain := rfl

@[simp] theorem advance_advance (chain : ScopeChain) (m n : Nat) :
    (chain.advance m).advance n = chain.advance (m + n) := by
  simp [advance, Nat.add_assoc]

@[simp] theorem setCurrent_current (chain : ScopeChain) :
    chain.setCurrent chain.current = chain := by
  obtain ⟨inner, root, fragment, nextIndex⟩ := chain
  cases inner <;> rfl

@[simp] theorem current_setCurrent (chain : ScopeChain) (scope : Scope) :
    (chain.setCurrent scope).current = scope := by
  obtain ⟨inner, root, fragment, nextIndex⟩ := chain
  cases inner <;> rfl

@[simp] theorem setCurrent_setCurrent (chain : ScopeChain) (s t : Scope) :
    (chain.setCurrent s).setCurrent t = chain.setCurrent t := by
  obtain ⟨inner, root, fragment, nextIndex⟩ := chain
  cases inner <;> rfl

theorem setCurrent_advance (chain : ScopeChain) (scope : Scope) (n : Nat) :
    (chain.advance n).setCurrent scope = (chain.setCurrent scope).advance n := by
  obtain ⟨inner, root, fragment, nextIndex⟩ := chain
  cases inner <;> rfl

@[simp] theorem current_advance (chain : ScopeChain) (n : Nat) :
    (chain.advance n).current = chain.current := rfl

theorem enter_eq (chain : ScopeChain) (v : Variable) :
    chain.enter v = chain.setCurrent (chain.current.enter v) := by
  unfold enter import? Scope.enter
  cases chain.current.declare? v <;> simp

theorem enterAll_eq (chain : ScopeChain) (vs : List Variable) :
    chain.enterAll vs = chain.setCurrent (chain.current.enterAll vs) := by
  unfold enterAll
  induction vs generalizing chain with
  | nil => simp
  | cons v vs ih => simp [ih, enter_eq]

theorem enterAll_append (chain : ScopeChain) (vs ws : List Variable) :
    chain.enterAll (vs ++ ws) = (chain.enterAll vs).enterAll ws := List.foldl_append

theorem nextIndex_enterAll (chain : ScopeChain) (vs : List Variable) :
    (chain.enterAll vs).nextIndex = chain.nextIndex := by
  rw [enterAll_eq]
  unfold setCurrent
  split <;> rfl

theorem fragment_enterAll (chain : ScopeChain) (vs : List Variable) :
    (chain.enterAll vs).fragment = chain.fragment := by
  rw [enterAll_eq]
  unfold setCurrent
  split <;> rfl

theorem enterAll_advance (chain : ScopeChain) (n : Nat) (vs : List Variable) :
    (chain.advance n).enterAll vs = (chain.enterAll vs).advance n := by
  rw [enterAll_eq, enterAll_eq, current_advance, setCurrent_advance]

/-- What happened in a scope is gone when the scope is left, except for the ids that were used. -/
theorem pop_enterAll_push (chain : ScopeChain) (n : Nat) (vs : List Variable) :
    ((chain.push.enterAll vs).advance n).pop = chain.advance n := by
  rw [enterAll_eq]
  rfl

theorem import?_eq (chain : ScopeChain) (v : Variable) :
    chain.import? v =
      if (chain.current.variableNamed? v.name).isSome then none else some (chain.enter v) := by
  unfold enter import? Scope.declare?
  split <;> rfl

theorem declare_eq (chain : ScopeChain) (name : String) (isReadOnly : Bool) (type : Ty) :
    chain.declare name isReadOnly type =
      (if (chain.current.variableNamed? name).isSome then
        .error (chain.fresh name isReadOnly type)
      else .ok (chain.fresh name isReadOnly type),
      (chain.enter (chain.fresh name isReadOnly type)).advance 1) := by
  have himport := (chain.advance 1).import?_eq (chain.fresh name isReadOnly type)
  have henter (v : Variable) : (chain.advance 1).enter v = (chain.enter v).advance 1 :=
    enterAll_advance chain 1 [v]
  rw [henter] at himport
  unfold declare
  simp only [← advance.eq_1, himport]
  have hname : (chain.fresh name isReadOnly type).name = name := rfl
  rw [current_advance, hname]
  cases h : (chain.current.variableNamed? name).isSome with
  | false => rfl
  | true =>
    have henter : chain.enter (chain.fresh name isReadOnly type) = chain := by
      simp [enter, import?_eq, hname, h]
    rw [henter]
    rfl

theorem name_of_functionNamed? {chain : ScopeChain} {name : String} {f : Function}
    (h : chain.functionNamed? name = some f) : f.name = name := by
  obtain ⟨scope, -, hfound⟩ := List.exists_of_findSome?_eq_some h
  simpa using List.find?_some hfound

end ScopeChain

end ScalarScript
