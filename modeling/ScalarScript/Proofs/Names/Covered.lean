import ScalarScript.Proofs.Names.References

/-!
Declarations before references. What a program refers to was visible before it, or has been declared
by it further in front; but a declaration that is a whole branch of a conditional, or the whole body
of a loop under a condition, counts as made also where it is left out by a run.
-/

set_option autoImplicit false

namespace ScalarScript

open Binder

namespace Action

mutual

def conditional : Action → List Variable
  | .block actions => conditionalAll actions
  | .declaration _ _ => []
  | .ifThen _ thenAction => thenAction.leaked ++ thenAction.conditional
  | .ifThenElse _ thenAction elseAction =>
    thenAction.leaked ++ thenAction.conditional ++ (elseAction.leaked ++ elseAction.conditional)
  | .whileLoop _ body => body.leaked ++ body.conditional
  | .forLoop _ _ _ body => body.conditional
  | .expression _ => []

def conditionalAll : List Action → List Variable
  | [] => []
  | a :: rest => a.conditional ++ conditionalAll rest

end

def settled : Action → List Variable
  | .declaration v _ => [v]
  | _ => []

theorem settled_or_conditional {a : Action} {v : Variable} (h : v ∈ a.leaked) :
    v ∈ a.settled ∨ v ∈ a.conditional := by
  cases a with
  | block actions => cases h
  | declaration w initializer => exact .inl h
  | ifThen condition thenAction => exact .inr (List.mem_append_left _ h)
  | ifThenElse condition thenAction elseAction =>
    refine .inr (List.mem_append.mpr ?_)
    exact (List.mem_append.mp h).imp (List.mem_append_left _) (List.mem_append_left _)
  | whileLoop condition body => exact .inr (List.mem_append_left _ h)
  | forLoop w lower upper body => cases h
  | expression term => cases h

mutual

/-- Everything the action refers to is visible, or has been declared in it further in front. -/
def Covered (visible : Variable → Prop) : Action → Prop
  | .block actions => CoveredAll visible actions
  | .declaration _ initializer => ∀ v ∈ initializer.references, visible v
  | .ifThen condition thenAction =>
    (∀ v ∈ condition.references, visible v) ∧ thenAction.Covered visible
  | .ifThenElse condition thenAction elseAction =>
    (∀ v ∈ condition.references, visible v) ∧ thenAction.Covered visible ∧
      elseAction.Covered fun v => visible v ∨ v ∈ thenAction.leaked
  | .whileLoop condition body =>
    (∀ v ∈ condition.references, visible v) ∧ body.Covered visible
  | .forLoop v lower upper body =>
    (∀ v ∈ lower.references, visible v) ∧ (∀ v ∈ upper.references, visible v) ∧
      body.Covered fun w => visible w ∨ w = v
  | .expression term => ∀ v ∈ term.references, visible v

def CoveredAll (visible : Variable → Prop) : List Action → Prop
  | [] => True
  | a :: rest => a.Covered visible ∧ CoveredAll (fun v => visible v ∨ v ∈ a.leaked) rest

end

end Action

theorem ScopeChain.Each.mono {p q : Variable → Prop} {S : ScopeChain} (h : S.Each p)
    (hpq : ∀ v, p v → q v) : S.Each q :=
  fun scope hscope v hv => hpq v (h scope hscope v hv)

section Parts

variable {S : ScopeChain} {visible : Variable → Prop}

theorem ScopeChain.Each.found (h : S.Each visible) (ts : List Token) :
    ∀ v ∈ S.found ts, visible v := by
  intro v hv
  obtain ⟨t, -, hfound⟩ := List.mem_filterMap.mp hv
  exact (h.of_variableNamed? hfound).1

theorem Expression.covered_bind (h : S.Each visible) (e : Expression) :
    ∀ v ∈ (e.bind.result S).references, visible v :=
  fun v hv => h.found _ v ((e.references_bind S).subset hv)

theorem Expression.covered_bindValue (h : S.Each visible) (e : Expression) :
    ∀ v ∈ (e.bindValue.result S).references, visible v :=
  fun v hv => h.found _ v ((e.references_bindValue S).subset hv)

theorem ScopeChain.Each.scopesAfter_bind (h : S.Each visible) (s : Statement) :
    (s.bind.scopesAfter S).Each fun v => visible v ∨ v ∈ (s.bind.result S).leaked := by
  rw [s.scopesAfter_bind]
  exact ((h.mono fun _ => .inl).enterAll fun _ => .inr).advance _

theorem ScopeChain.Each.loopScopes (h : S.Each visible) (identifier : Token) :
    (Statement.loopScopes S identifier).Each fun v =>
      visible v ∨ v = S.fresh identifier.text true .int := by
  rw [loopScopes_eq]
  refine ((h.push.mono fun _ => .inl).enterAll fun v hv => ?_).advance 1
  exact .inr (List.mem_singleton.mp hv)

end Parts

mutual

/-- The binder resolves names to variables that are visible, or declared in front. -/
theorem Statement.covered_bind {S : ScopeChain} {visible : Variable → Prop} (h : S.Each visible) :
    (s : Statement) → (s.bind.result S).Covered visible
  | .block _ statements _ => by
    have ih := Statement.covered_bindAll h.push statements
    simpa [bind, Action.Covered] using ih
  | .declaration keyword identifier clause equals initializer => by
    rw [result_declaration, Action.Covered]
    exact initializer.covered_bindValue h
  | .ifThen _ condition thenStatement => by
    have ht := thenStatement.covered_bind h
    simpa [bind, Action.Covered, Expression.result_bindTyped] using
      ⟨condition.covered_bindValue h, ht⟩
  | .ifThenElse _ condition thenStatement _ elseStatement => by
    have ht := thenStatement.covered_bind h
    have he := elseStatement.covered_bind (h.scopesAfter_bind thenStatement)
    simpa [bind, Action.Covered, Expression.result_bindTyped] using
      ⟨condition.covered_bindValue h, ht, he⟩
  | .whileLoop _ condition body => by
    have hb := body.covered_bind h
    simpa [bind, Action.Covered, Expression.result_bindTyped] using
      ⟨condition.covered_bindValue h, hb⟩
  | .forLoop _ identifier _ lower _ upper body => by
    have hb := body.covered_bind (h.loopScopes identifier)
    rw [result_forLoop, Action.Covered]
    exact ⟨lower.covered_bindValue h, upper.covered_bindValue h, hb⟩
  | .expression inner => by
    have hi := inner.covered_bind h
    simpa [bind, Action.Covered] using hi

theorem Statement.covered_bindAll {S : ScopeChain} {visible : Variable → Prop}
    (h : S.Each visible) : (ss : List Statement) →
    Action.CoveredAll visible ((Statement.bindAll ss).result S)
  | [] => by
    simp [Statement.bindAll, Action.CoveredAll]
  | s :: rest => by
    have hs := s.covered_bind h
    have hr := Statement.covered_bindAll (h.scopesAfter_bind s) rest
    simpa [Statement.bindAll, Action.CoveredAll] using ⟨hs, hr⟩

end

end ScalarScript
