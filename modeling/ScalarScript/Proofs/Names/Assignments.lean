import ScalarScript.Proofs.Names.References

set_option autoImplicit false

namespace ScalarScript

open Binder

mutual

def Term.assigned : Term → List Variable
  | .literal _ => []
  | .variable _ => []
  | .assignment v source => source.assigned ++ [v]
  | .unary _ operand => operand.assigned
  | .binary left _ right => left.assigned ++ right.assigned
  | .call _ arguments => Term.assignedAll arguments
  | .conversion _ source => source.assigned
  | .error => []

def Term.assignedAll : List Term → List Variable
  | [] => []
  | t :: rest => t.assigned ++ Term.assignedAll rest

end

mutual

def Action.assigned : Action → List Variable
  | .block actions => Action.assignedAll actions
  | .declaration _ initializer => initializer.assigned
  | .ifThen condition thenAction => condition.assigned ++ thenAction.assigned
  | .ifThenElse condition thenAction elseAction =>
    condition.assigned ++ thenAction.assigned ++ elseAction.assigned
  | .whileLoop condition body => condition.assigned ++ body.assigned
  | .forLoop _ lower upper body => lower.assigned ++ upper.assigned ++ body.assigned
  | .expression term => term.assigned

def Action.assignedAll : List Action → List Variable
  | [] => []
  | a :: rest => a.assigned ++ Action.assignedAll rest

end

mutual

theorem Term.assigned_sublist : (t : Term) → t.assigned.Sublist t.references
  | .literal _ => List.Sublist.refl _
  | .variable _ => List.nil_sublist _
  | .assignment _ source => source.assigned_sublist.append_right _
  | .unary _ operand => operand.assigned_sublist
  | .binary left _ right => left.assigned_sublist.append right.assigned_sublist
  | .call _ arguments => Term.assignedAll_sublist arguments
  | .conversion _ source => source.assigned_sublist
  | .error => List.Sublist.refl _

theorem Term.assignedAll_sublist : (ts : List Term) →
    (Term.assignedAll ts).Sublist (Term.referencesAll ts)
  | [] => List.Sublist.refl _
  | t :: rest => t.assigned_sublist.append (Term.assignedAll_sublist rest)

end

mutual

theorem Action.assigned_sublist : (a : Action) → a.assigned.Sublist a.references
  | .block actions => Action.assignedAll_sublist actions
  | .declaration _ initializer => initializer.assigned_sublist
  | .ifThen condition thenAction => condition.assigned_sublist.append thenAction.assigned_sublist
  | .ifThenElse condition thenAction elseAction =>
    (condition.assigned_sublist.append thenAction.assigned_sublist).append
      elseAction.assigned_sublist
  | .whileLoop condition body => condition.assigned_sublist.append body.assigned_sublist
  | .forLoop _ lower upper body =>
    (lower.assigned_sublist.append upper.assigned_sublist).append body.assigned_sublist
  | .expression term => term.assigned_sublist

theorem Action.assignedAll_sublist : (actions : List Action) →
    (Action.assignedAll actions).Sublist (Action.referencesAll actions)
  | [] => List.Sublist.refl _
  | a :: rest => a.assigned_sublist.append (Action.assignedAll_sublist rest)

end

def Writable (vs : List Variable) : Prop := ∀ v ∈ vs, v.isReadOnly = false

section Parts

variable {S : ScopeChain} {t left right : Term} {span : Span} {vs ws : List Variable}

theorem writable_nil : Writable [] := fun _ h => by cases h

theorem Writable.append (hv : Writable vs) (hw : Writable ws) : Writable (vs ++ ws) :=
  List.forall_mem_append.mpr ⟨hv, hw⟩

theorem writable_name (identifier : Token) :
    Writable ((name identifier).result S).assigned := by
  rcases result_name S identifier with h | ⟨v, -, h⟩
  · rw [h]
    exact writable_nil
  · rw [h]
    exact writable_nil

theorem writable_requireValue (ht : Writable t.assigned) :
    Writable ((requireValue span t).result S).assigned := by
  rcases result_requireValue S span t with h | h
  · rw [h]
    exact writable_nil
  · rwa [h]

theorem writable_assignment {identifier equals : Token}
    (hf : (assignment identifier equals span t).found S = []) (ht : Writable t.assigned) :
    Writable ((assignment identifier equals span t).result S).assigned := by
  rw [(yields_assignment _ _ _ _).found_eq] at hf
  rcases result_assignment S identifier equals span t with h | ⟨v, hv, h⟩
  · rwa [h]
  · simp only [hv, List.append_eq_nil_iff] at hf
    have hwritable : v.isReadOnly = false := by simpa using hf.1
    rw [h]
    exact ht.append fun w hw => List.mem_singleton.mp hw ▸ hwritable

theorem writable_unary (operator : Token) (ht : Writable t.assigned) :
    Writable ((unary operator t).result S).assigned := by
  rcases result_unary S operator t with h | ⟨op, h⟩
  · rw [h]
    exact writable_nil
  · rwa [h]

theorem writable_binary (operator : Token) (hl : Writable left.assigned)
    (hr : Writable right.assigned) :
    Writable ((binary left operator right).result S).assigned := by
  rcases result_binary S left operator right with h | ⟨op, h⟩
  · rw [h]
    exact writable_nil
  · rw [h]
    exact hl.append hr

theorem writable_callOrConversion (identifier : Token) {arguments : List (Span × Term)}
    (ha : Writable (Term.assignedAll (arguments.map Prod.snd))) :
    Writable ((callOrConversion span identifier arguments).result S).assigned := by
  rcases result_callOrConversion S span identifier arguments with
    h | ⟨source, hsource, h | ⟨target, h⟩⟩ | ⟨f, -, h⟩
  · rw [h]
    exact writable_nil
  · rw [hsource, Term.assignedAll, Term.assignedAll, List.append_nil] at ha
    rwa [h]
  · rw [hsource, Term.assignedAll, Term.assignedAll, List.append_nil] at ha
    rwa [h]
  · rwa [h]

end Parts

mutual

theorem Expression.writable_bind (S : ScopeChain) : (e : Expression) → e.bind.found S = [] →
    Writable (e.bind.result S).assigned
  | .literal _ value, _ => writable_nil
  | .name identifier, _ => by
    rw [bind]
    exact writable_name identifier
  | .unary operator operand, hf => by
    rw [bind_unary] at hf ⊢
    simp only [found_bind, List.append_eq_nil_iff] at hf
    have ho := operand.writable_bindValue S hf.1
    rw [result_bind, scopesAfter_still]
    exact writable_unary operator ho
  | .binary left operator right, hf => by
    rw [bind_binary] at hf ⊢
    simp only [found_bind, scopesAfter_still, List.append_eq_nil_iff] at hf
    have hl := left.writable_bindValue S hf.1
    have hr := right.writable_bindValue S hf.2.1
    simp only [result_bind, scopesAfter_still]
    exact writable_binary operator hl hr
  | .parenthesized _ inner _, hf => by
    rw [bind] at hf ⊢
    exact inner.writable_bind S hf
  | .assignment identifier equals source, hf => by
    rw [bind_assignment] at hf ⊢
    simp only [found_bind, scopesAfter_still, List.append_eq_nil_iff] at hf
    have hs := source.writable_bindValue S hf.1
    rw [result_bind, scopesAfter_still]
    exact writable_assignment hf.2 hs
  | .call identifier openParen arguments closeParen, hf => by
    rw [bind_call] at hf ⊢
    simp only [found_bind, List.append_eq_nil_iff] at hf
    have ha := Expression.writable_bindAll S arguments hf.1
    rw [result_bind, scopesAfter_still]
    exact writable_callOrConversion identifier ha

theorem Expression.writable_bindValue (S : ScopeChain) (e : Expression)
    (hf : e.bindValue.found S = []) : Writable (e.bindValue.result S).assigned := by
  rw [bindValue] at hf ⊢
  simp only [found_bind, List.append_eq_nil_iff] at hf
  have hb := e.writable_bind S hf.1
  rw [result_bind, scopesAfter_still]
  exact writable_requireValue hb

theorem Expression.writable_bindAll (S : ScopeChain) : (es : List Expression) →
    (Expression.bindAll es).found S = [] →
    Writable (Term.assignedAll (((Expression.bindAll es).result S).map Prod.snd))
  | [], _ => writable_nil
  | e :: rest, hf => by
    rw [bindAll_cons] at hf ⊢
    simp only [found_bind, scopesAfter_still, List.append_eq_nil_iff] at hf
    have he := e.writable_bindValue S hf.1
    have hr := Expression.writable_bindAll S rest hf.2.1
    simp only [result_bind, scopesAfter_still, result_pure, List.map_cons]
    exact he.append hr

end

theorem Expression.writable_bindTyped {S : ScopeChain} (e : Expression) (target : Ty)
    (hf : (e.bindTyped target).found S = []) : Writable (e.bindValue.result S).assigned := by
  rw [Expression.found_bindTyped] at hf
  exact e.writable_bindValue S (List.append_eq_nil_iff.mp hf).1

mutual

theorem Statement.writable_bind (S : ScopeChain) : (s : Statement) → s.bind.found S = [] →
    Writable (s.bind.result S).assigned
  | .block _ statements _, hf => by
    simp only [bind, found_bind, found_inNewScope, found_pure, List.append_nil] at hf
    have ih := Statement.writable_bindAll S.push statements hf
    simpa [bind, Action.assigned] using ih
  | .declaration keyword identifier clause equals initializer, hf => by
    rw [found_declaration, List.append_eq_nil_iff] at hf
    rw [result_declaration]
    exact initializer.writable_bindValue S hf.1
  | .ifThen _ condition thenStatement, hf => by
    simp only [bind, found_bind, scopesAfter_still, found_pure, List.append_nil,
      List.append_eq_nil_iff] at hf
    have hc := condition.writable_bindTyped .bool hf.1
    have ht := thenStatement.writable_bind S hf.2
    simpa [bind, Action.assigned, Expression.result_bindTyped] using hc.append ht
  | .ifThenElse _ condition thenStatement _ elseStatement, hf => by
    simp only [bind, found_bind, scopesAfter_still, found_pure, List.append_nil,
      List.append_eq_nil_iff] at hf
    have hc := condition.writable_bindTyped .bool hf.1
    have ht := thenStatement.writable_bind S hf.2.1
    have he := elseStatement.writable_bind _ hf.2.2
    simpa [bind, Action.assigned, Expression.result_bindTyped] using hc.append (ht.append he)
  | .whileLoop _ condition body, hf => by
    simp only [bind, found_bind, scopesAfter_still, found_pure, List.append_nil,
      List.append_eq_nil_iff] at hf
    have hc := condition.writable_bindTyped .bool hf.1
    have hb := body.writable_bind S hf.2
    simpa [bind, Action.assigned, Expression.result_bindTyped] using hc.append hb
  | .forLoop _ identifier _ lower _ upper body, hf => by
    simp only [found_forLoop, List.append_eq_nil_iff] at hf
    have hl := lower.writable_bindTyped .int hf.1.1
    have hu := upper.writable_bindTyped .int hf.1.2
    have hb := body.writable_bind _ hf.2
    rw [result_forLoop]
    exact (hl.append hu).append hb
  | .expression inner, hf => by
    simp only [bind, found_bind, found_pure, List.append_nil] at hf
    have hi := inner.writable_bind S hf
    simpa [bind, Action.assigned] using hi

theorem Statement.writable_bindAll (S : ScopeChain) : (ss : List Statement) →
    (Statement.bindAll ss).found S = [] →
    Writable (Action.assignedAll ((Statement.bindAll ss).result S))
  | [], _ => by
    simpa [Statement.bindAll, Action.assignedAll] using writable_nil
  | s :: rest, hf => by
    simp only [Statement.bindAll, found_bind, found_pure, List.append_nil,
      List.append_eq_nil_iff] at hf
    have hs := s.writable_bind S hf.1
    have hr := Statement.writable_bindAll _ rest hf.2
    simpa [Statement.bindAll, Action.assignedAll] using hs.append hr

end

end ScalarScript
