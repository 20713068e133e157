import ScalarScript.Proofs.Scope.Stack

set_option autoImplicit false

namespace ScalarScript

namespace ScopeChain

variable {chain : ScopeChain}

theorem scopes_eq (chain : ScopeChain) : chain.scopes = chain.current :: chain.scopes.tail := by
  obtain ⟨inner, root, fragment, nextIndex⟩ := chain
  cases inner <;> rfl

theorem scopes_setCurrent (chain : ScopeChain) (scope : Scope) :
    (chain.setCurrent scope).scopes = scope :: chain.scopes.tail := by
  obtain ⟨inner, root, fragment, nextIndex⟩ := chain
  cases inner <;> rfl

theorem scopes_push (chain : ScopeChain) : chain.push.scopes = .empty :: chain.scopes := rfl

theorem scopes_pop (h : chain.scopes.tail ≠ []) : chain.pop.scopes = chain.scopes.tail := by
  obtain ⟨inner, root, fragment, nextIndex⟩ := chain
  cases inner with
  | nil => exact absurd rfl h
  | cons scope rest => rfl

theorem scopes_ne_nil (chain : ScopeChain) : chain.scopes ≠ [] := by simp [scopes]

theorem scopes_enterAll (chain : ScopeChain) (vs : List Variable) :
    (chain.enterAll vs).scopes = chain.current.enterAll vs :: chain.scopes.tail := by
  rw [enterAll_eq, scopes_setCurrent]

theorem current_enterAll (chain : ScopeChain) (vs : List Variable) :
    (chain.enterAll vs).current = chain.current.enterAll vs := by
  rw [enterAll_eq, current_setCurrent]

def Each (p : Variable → Prop) (chain : ScopeChain) : Prop :=
  ∀ scope ∈ chain.scopes, ∀ v ∈ scope.vars, p v

section Each

variable {p : Variable → Prop}

theorem each_ofFragment (fragment : Nat) : (ofFragment fragment).Each p := by
  simp [Each, ofFragment, scopes, Scope.builtins]

theorem Each.push (h : chain.Each p) : chain.push.Each p := by
  rw [Each] at h ⊢
  simpa [scopes_push, Scope.empty] using h

theorem Each.advance (h : chain.Each p) (n : Nat) : (chain.advance n).Each p := h

theorem Each.enterAll (h : chain.Each p) {vs : List Variable} (hv : ∀ v ∈ vs, p v) :
    (chain.enterAll vs).Each p := by
  rw [Each, scopes_eq] at h
  rw [Each, scopes_enterAll]
  simp only [List.mem_cons, forall_eq_or_imp] at h ⊢
  refine ⟨fun v hmem => ?_, h.2⟩
  rcases Scope.mem_vars_enterAll hmem with hmem | hmem
  · exact h.1 v hmem
  · exact hv v hmem

theorem Each.of_variableNamed? (h : chain.Each p) {name : String} {v : Variable}
    (hv : chain.variableNamed? name = some v) : p v ∧ v.name = name := by
  obtain ⟨scope, hscope, hfound⟩ := List.exists_of_findSome?_eq_some hv
  obtain ⟨hmem, hname⟩ := Scope.mem_of_variableNamed? hfound
  exact ⟨h scope hscope v hmem, hname⟩

end Each

/-- The functions are the built-in ones, all in the outermost scope. -/
def Native (chain : ScopeChain) : Prop :=
  ∃ n, chain.scopes.map Scope.functions = List.replicate n [] ++ [Function.builtins]

theorem native_ofFragment (fragment : Nat) : (ofFragment fragment).Native := ⟨0, rfl⟩

theorem Native.push (h : chain.Native) : chain.push.Native := by
  obtain ⟨n, hn⟩ := h
  refine ⟨n + 1, ?_⟩
  rw [scopes_push, List.map_cons, hn]
  rfl

theorem Native.advance (h : chain.Native) (n : Nat) : (chain.advance n).Native := h

theorem Native.enterAll (h : chain.Native) (vs : List Variable) : (chain.enterAll vs).Native := by
  obtain ⟨n, hn⟩ := h
  refine ⟨n, ?_⟩
  rw [scopes_eq, List.map_cons] at hn
  rw [scopes_enterAll, List.map_cons, Scope.functions_enterAll, hn]

theorem Native.functionNamed? (h : chain.Native) (name : String) :
    chain.functionNamed? name = Scope.builtins.functionNamed? name := by
  obtain ⟨n, hn⟩ := h
  have hmap : chain.functionNamed? name =
      (chain.scopes.map Scope.functions).findSome? fun functions =>
        functions.find? fun f => f.name == name := by
    rw [List.findSome?_map]
    rfl
  have hnone : (List.replicate n ([] : List Function)).findSome?
      (fun functions => functions.find? fun f => f.name == name) = none :=
    List.findSome?_eq_none_iff.mpr fun functions hmem => by
      rw [List.eq_of_mem_replicate hmem, List.find?_nil]
  rw [hmap, hn, List.findSome?_append, hnone]
  simp [Scope.functionNamed?, Scope.builtins]

theorem Native.mem_builtins (h : chain.Native) {name : String} {f : Function}
    (hf : chain.functionNamed? name = some f) : f ∈ Function.builtins := by
  rw [h.functionNamed?] at hf
  exact List.mem_of_find?_eq_some hf

end ScopeChain

end ScalarScript
