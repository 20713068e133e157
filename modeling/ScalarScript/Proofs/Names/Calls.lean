import ScalarScript.Proofs.Binding.Scoping

set_option autoImplicit false

namespace ScalarScript

open Binder

mutual

def Expression.calls : Expression → List Token
  | .literal _ _ => []
  | .name _ => []
  | .unary _ operand => operand.calls
  | .binary left _ right => left.calls ++ right.calls
  | .parenthesized _ inner _ => inner.calls
  | .assignment _ _ source => source.calls
  | .call identifier _ arguments _ => identifier :: Expression.callsAll arguments

def Expression.callsAll : List Expression → List Token
  | [] => []
  | e :: rest => e.calls ++ Expression.callsAll rest

end

mutual

def Statement.calls : Statement → List Token
  | .block _ statements _ => Statement.callsAll statements
  | .declaration _ _ _ _ initializer => initializer.calls
  | .ifThen _ condition thenStatement => condition.calls ++ thenStatement.calls
  | .ifThenElse _ condition thenStatement _ elseStatement =>
    condition.calls ++ thenStatement.calls ++ elseStatement.calls
  | .whileLoop _ condition body => condition.calls ++ body.calls
  | .forLoop _ _ _ lower _ upper body => lower.calls ++ upper.calls ++ body.calls
  | .expression inner => inner.calls

def Statement.callsAll : List Statement → List Token
  | [] => []
  | s :: rest => s.calls ++ Statement.callsAll rest

end

mutual

def Term.callees : Term → List Function
  | .literal _ => []
  | .variable _ => []
  | .assignment _ source => source.callees
  | .unary _ operand => operand.callees
  | .binary left _ right => left.callees ++ right.callees
  | .call function arguments => function :: Term.calleesAll arguments
  | .conversion _ source => source.callees
  | .error => []

def Term.calleesAll : List Term → List Function
  | [] => []
  | t :: rest => t.callees ++ Term.calleesAll rest

end

mutual

def Action.callees : Action → List Function
  | .block actions => Action.calleesAll actions
  | .declaration _ initializer => initializer.callees
  | .ifThen condition thenAction => condition.callees ++ thenAction.callees
  | .ifThenElse condition thenAction elseAction =>
    condition.callees ++ thenAction.callees ++ elseAction.callees
  | .whileLoop condition body => condition.callees ++ body.callees
  | .forLoop _ lower upper body => lower.callees ++ upper.callees ++ body.callees
  | .expression term => term.callees

def Action.calleesAll : List Action → List Function
  | [] => []
  | a :: rest => a.callees ++ Action.calleesAll rest

end

def Called (functions : List Function) (ts : List Token) : Prop :=
  (functions.map Function.name).Sublist (ts.map Token.text)

section Called

variable {fs gs : List Function} {ts us : List Token}

theorem called_nil (ts : List Token) : Called [] ts := List.nil_sublist _

theorem Called.append (h : Called fs ts) (h' : Called gs us) : Called (fs ++ gs) (ts ++ us) := by
  rw [Called, List.map_append, List.map_append]
  exact List.Sublist.append h h'

theorem Called.of_sublist (h : Called gs ts) (hfs : fs.Sublist gs) : Called fs ts :=
  (hfs.map Function.name).trans h

theorem Called.exists_token (h : Called fs ts) {f : Function} (hf : f ∈ fs) :
    ∃ t ∈ ts, t.text = f.name :=
  List.mem_map.mp (h.subset (List.mem_map_of_mem hf))

end Called

section Parts

variable {S : ScopeChain} {t left right : Term} {span : Span}

theorem callees_name (identifier : Token) : ((name identifier).result S).callees = [] := by
  rcases result_name S identifier with h | ⟨v, -, h⟩
  · rw [h, Term.callees]
  · rw [h, Term.callees]

theorem callees_requireValue : ((requireValue span t).result S).callees.Sublist t.callees := by
  rcases result_requireValue S span t with h | h
  · rw [h]
    exact List.nil_sublist _
  · simp [h]

theorem callees_assignment (identifier equals : Token) :
    ((assignment identifier equals span t).result S).callees = t.callees := by
  rcases result_assignment S identifier equals span t with h | ⟨v, -, h⟩
  · rw [h]
  · rw [h, Term.callees]

theorem callees_unary (operator : Token) :
    ((unary operator t).result S).callees.Sublist t.callees := by
  rcases result_unary S operator t with h | ⟨op, h⟩
  · rw [h]
    exact List.nil_sublist _
  · simp [h, Term.callees]

theorem callees_binary (operator : Token) :
    ((binary left operator right).result S).callees.Sublist (left.callees ++ right.callees) := by
  rcases result_binary S left operator right with h | ⟨op, h⟩
  · rw [h]
    exact List.nil_sublist _
  · simp [h, Term.callees]

theorem called_callOrConversion (identifier : Token) {arguments : List (Span × Term)}
    {ts : List Token} (h : Called (Term.calleesAll (arguments.map Prod.snd)) ts) :
    Called ((callOrConversion span identifier arguments).result S).callees (identifier :: ts) := by
  rcases result_callOrConversion S span identifier arguments with
    hr | ⟨source, hsource, hr | ⟨target, hr⟩⟩ | ⟨f, hf, hr⟩
  · rw [hr]
    exact called_nil _
  · rw [hsource, Term.calleesAll, Term.calleesAll, List.append_nil] at h
    rw [hr]
    exact h.trans (List.sublist_cons_self _ _)
  · rw [hsource, Term.calleesAll, Term.calleesAll, List.append_nil] at h
    rw [hr, Term.callees]
    exact h.trans (List.sublist_cons_self _ _)
  · have hname : f.name = identifier.text := ScopeChain.name_of_functionNamed? hf
    rw [hr, Called, Term.callees, List.map_cons, List.map_cons, hname]
    exact List.Sublist.cons_cons _ h

end Parts

mutual

theorem Expression.called_bind (S : ScopeChain) : (e : Expression) →
    Called (e.bind.result S).callees e.calls
  | .literal _ value => called_nil _
  | .name identifier => by
    rw [bind, callees_name]
    exact called_nil _
  | .unary operator operand => by
    have ho := operand.called_bindValue S
    rw [bind_unary, result_bind, scopesAfter_still]
    exact ho.of_sublist (callees_unary operator)
  | .binary left operator right => by
    have hl := left.called_bindValue S
    have hr := right.called_bindValue S
    rw [bind_binary]
    simp only [result_bind, scopesAfter_still]
    exact (hl.append hr).of_sublist (callees_binary operator)
  | .parenthesized _ inner _ => by
    rw [bind]
    exact inner.called_bind S
  | .assignment identifier equals source => by
    have hs := source.called_bindValue S
    rw [bind_assignment, result_bind, scopesAfter_still, callees_assignment]
    exact hs
  | .call identifier openParen arguments closeParen => by
    have ha := Expression.called_bindAll S arguments
    rw [bind_call, result_bind, scopesAfter_still]
    exact called_callOrConversion identifier ha

theorem Expression.called_bindValue (S : ScopeChain) (e : Expression) :
    Called (e.bindValue.result S).callees e.calls := by
  have hb := e.called_bind S
  rw [bindValue, result_bind, scopesAfter_still]
  exact hb.of_sublist callees_requireValue

theorem Expression.called_bindAll (S : ScopeChain) : (es : List Expression) →
    Called (Term.calleesAll (((Expression.bindAll es).result S).map Prod.snd))
      (Expression.callsAll es)
  | [] => called_nil _
  | e :: rest => by
    have he := e.called_bindValue S
    have hr := Expression.called_bindAll S rest
    rw [bindAll_cons]
    simp only [result_bind, scopesAfter_still, result_pure, List.map_cons]
    exact he.append hr

end

mutual

theorem Statement.called_bind (S : ScopeChain) : (s : Statement) →
    Called (s.bind.result S).callees s.calls
  | .block _ statements _ => by
    have ih := Statement.called_bindAll S.push statements
    simpa [bind, calls, Action.callees] using ih
  | .declaration _ _ _ _ initializer => by
    rw [result_declaration]
    exact initializer.called_bindValue S
  | .ifThen _ condition thenStatement => by
    have hc := condition.called_bindValue S
    have ht := thenStatement.called_bind S
    simpa [bind, calls, Action.callees, Expression.result_bindTyped] using hc.append ht
  | .ifThenElse _ condition thenStatement _ elseStatement => by
    have hc := condition.called_bindValue S
    have ht := thenStatement.called_bind S
    have he := elseStatement.called_bind (thenStatement.bind.scopesAfter S)
    simpa [bind, calls, Action.callees, Expression.result_bindTyped] using
      hc.append (ht.append he)
  | .whileLoop _ condition body => by
    have hc := condition.called_bindValue S
    have hb := body.called_bind S
    simpa [bind, calls, Action.callees, Expression.result_bindTyped] using hc.append hb
  | .forLoop _ identifier _ lower _ upper body => by
    have hl := lower.called_bindValue S
    have hu := upper.called_bindValue S
    have hb := body.called_bind (loopScopes S identifier)
    rw [result_forLoop]
    exact (hl.append hu).append hb
  | .expression inner => by
    have hi := inner.called_bind S
    simpa [bind, calls, Action.callees] using hi

theorem Statement.called_bindAll (S : ScopeChain) : (ss : List Statement) →
    Called (Action.calleesAll ((Statement.bindAll ss).result S)) (Statement.callsAll ss)
  | [] => called_nil _
  | s :: rest => by
    have hs := s.called_bind S
    have hr := Statement.called_bindAll (s.bind.scopesAfter S) rest
    simpa [Statement.bindAll, Statement.callsAll, Action.calleesAll] using hs.append hr

end

end ScalarScript
