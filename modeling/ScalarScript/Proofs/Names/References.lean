import ScalarScript.Proofs.Names.Occurrences
import ScalarScript.Proofs.Typing.Binding

set_option autoImplicit false

namespace ScalarScript

open Binder

mutual

def Term.references : Term → List Variable
  | .literal _ => []
  | .variable v => [v]
  | .assignment v source => source.references ++ [v]
  | .unary _ operand => operand.references
  | .binary left _ right => left.references ++ right.references
  | .call _ arguments => Term.referencesAll arguments
  | .conversion _ source => source.references
  | .error => []

def Term.referencesAll : List Term → List Variable
  | [] => []
  | t :: rest => t.references ++ Term.referencesAll rest

end

mutual

def Action.references : Action → List Variable
  | .block actions => Action.referencesAll actions
  | .declaration _ initializer => initializer.references
  | .ifThen condition thenAction => condition.references ++ thenAction.references
  | .ifThenElse condition thenAction elseAction =>
    condition.references ++ thenAction.references ++ elseAction.references
  | .whileLoop condition body => condition.references ++ body.references
  | .forLoop _ lower upper body => lower.references ++ upper.references ++ body.references
  | .expression term => term.references

def Action.referencesAll : List Action → List Variable
  | [] => []
  | a :: rest => a.references ++ Action.referencesAll rest

end

def ScopeChain.found (S : ScopeChain) (ts : List Token) : List Variable :=
  ts.filterMap fun t => S.variableNamed? t.text

section Found

variable (S : ScopeChain)

@[simp] theorem ScopeChain.found_nil : S.found [] = [] := rfl

@[simp] theorem ScopeChain.found_append (ts us : List Token) :
    S.found (ts ++ us) = S.found ts ++ S.found us := List.filterMap_append

theorem Expression.used_history_eq (scopes : List Nat) (e : Expression) :
    History.used (e.history S scopes) = S.found e.names :=
  e.used_history S scopes

end Found

/-- The term is an error, or it refers to just these variables. -/
def Term.Keeps (t : Term) (vs : List Variable) : Prop := t = .error ∨ t.references = vs

theorem Term.Keeps.sublist {t : Term} {vs : List Variable} (h : t.Keeps vs) :
    t.references.Sublist vs := by
  rcases h with rfl | h
  · exact List.nil_sublist _
  · subst h
    exact List.Sublist.refl _

theorem Term.Keeps.eq {t : Term} {vs : List Variable} (h : t.Keeps vs) (ht : t.Typed False) :
    t.references = vs := by
  rcases h with rfl | h
  · exact (ht.excuse rfl).elim
  · exact h

section Parts

variable {S : ScopeChain} {t left right : Term}

theorem keeps_name (identifier : Token) :
    ((name identifier).result S).Keeps (S.found [identifier]) := by
  rcases result_name S identifier with h | ⟨v, hv, h⟩
  · exact .inl h
  · exact .inr (by simp [h, Term.references, ScopeChain.found, hv])

theorem keeps_requireValue (span : Span) : ((requireValue span t).result S).Keeps t.references :=
  (result_requireValue S span t).imp id fun h => by rw [h]

theorem references_assignment (identifier equals : Token) (span : Span) :
    ((assignment identifier equals span t).result S).references.Sublist
      (t.references ++ S.found [identifier]) := by
  rcases result_assignment S identifier equals span t with h | ⟨v, hv, h⟩
  · rw [h]
    exact List.sublist_append_left _ _
  · simp [h, Term.references, ScopeChain.found, hv]

theorem references_assignment_of_faultless (identifier equals : Token) (span : Span)
    (hf : (assignment identifier equals span t).found S = []) :
    ((assignment identifier equals span t).result S).references =
      t.references ++ S.found [identifier] := by
  rw [(yields_assignment _ _ _ _).found_eq] at hf
  rw [(yields_assignment _ _ _ _).result_eq]
  cases h : S.variableNamed? identifier.text with
  | none => simp [h] at hf
  | some v =>
    have hc : ¬Clash t.type v.type := by
      intro hc
      simp [h, hc] at hf
    simp [hc, Term.references, ScopeChain.found, h]

theorem keeps_unary (operator : Token) : ((unary operator t).result S).Keeps t.references :=
  (result_unary S operator t).imp id fun ⟨op, h⟩ => by rw [h, Term.references]

theorem keeps_binary (operator : Token) :
    ((binary left operator right).result S).Keeps (left.references ++ right.references) :=
  (result_binary S left operator right).imp id fun ⟨op, h⟩ => by rw [h, Term.references]

theorem keeps_callOrConversion (span : Span) (identifier : Token)
    (arguments : List (Span × Term)) :
    ((callOrConversion span identifier arguments).result S).Keeps
      (Term.referencesAll (arguments.map Prod.snd)) := by
  rcases result_callOrConversion S span identifier arguments with
    h | ⟨source, hsource, h | ⟨target, h⟩⟩ | ⟨f, -, h⟩
  · exact .inl h
  · exact .inr (by simp [h, hsource, Term.referencesAll])
  · exact .inr (by simp [h, hsource, Term.references, Term.referencesAll])
  · exact .inr (by rw [h, Term.references])

end Parts

mutual

theorem Expression.references_bind (S : ScopeChain) : (e : Expression) →
    (e.bind.result S).references.Sublist (S.found e.names)
  | .literal _ value => List.nil_sublist _
  | .name identifier => by
    rw [Expression.bind]
    exact (keeps_name identifier).sublist
  | .unary operator operand => by
    have ho := operand.references_bindValue S
    rw [Expression.bind_unary, result_bind, scopesAfter_still]
    exact (keeps_unary operator).sublist.trans ho
  | .binary left operator right => by
    have hl := left.references_bindValue S
    have hr := right.references_bindValue S
    rw [Expression.bind_binary]
    simp only [result_bind, scopesAfter_still, Expression.names, ScopeChain.found_append]
    exact (keeps_binary operator).sublist.trans (hl.append hr)
  | .parenthesized _ inner _ => by
    rw [Expression.bind]
    exact inner.references_bind S
  | .assignment identifier equals source => by
    have hs := source.references_bindValue S
    rw [Expression.bind_assignment, result_bind, scopesAfter_still, Expression.names,
      ScopeChain.found_append]
    exact (references_assignment identifier equals source.span).trans (hs.append_right _)
  | .call identifier openParen arguments closeParen => by
    have ha := Expression.references_bindAll S arguments
    rw [Expression.bind_call, result_bind, scopesAfter_still]
    exact (keeps_callOrConversion _ identifier _).sublist.trans ha

theorem Expression.references_bindValue (S : ScopeChain) (e : Expression) :
    (e.bindValue.result S).references.Sublist (S.found e.names) := by
  have hb := e.references_bind S
  rw [bindValue, result_bind, scopesAfter_still]
  exact (keeps_requireValue e.span).sublist.trans hb

theorem Expression.references_bindAll (S : ScopeChain) : (es : List Expression) →
    (Term.referencesAll (((Expression.bindAll es).result S).map Prod.snd)).Sublist
      (S.found (Expression.namesAll es))
  | [] => List.nil_sublist _
  | e :: rest => by
    have he := e.references_bindValue S
    have hr := Expression.references_bindAll S rest
    rw [Expression.bindAll_cons]
    simp only [result_bind, scopesAfter_still, result_pure, List.map_cons, Term.referencesAll,
      Expression.namesAll, ScopeChain.found_append]
    exact he.append hr

end

mutual

/-- An action refers to variables that the binder found under the names, in their order. -/
theorem Statement.references_bind (S : ScopeChain) (scopes : List Nat) (next : Nat) :
    (s : Statement) →
    (s.bind.result S).references.Sublist (History.used (s.history S scopes next))
  | .block _ statements _ => by
    have ih := Statement.references_bindAll S.push (next :: scopes) (next + 1) statements
    simpa [bind, history, Action.references] using ih
  | .declaration keyword identifier clause equals initializer => by
    have hi := initializer.references_bindValue S
    rw [result_declaration]
    simpa [history, Action.references, Expression.used_history_eq] using hi
  | .ifThen _ condition thenStatement => by
    have hc := condition.references_bindValue S
    have ht := thenStatement.references_bind S scopes next
    simpa [bind, history, Action.references, Expression.used_history_eq,
      Expression.result_bindTyped] using hc.append ht
  | .ifThenElse _ condition thenStatement _ elseStatement => by
    have hc := condition.references_bindValue S
    have ht := thenStatement.references_bind S scopes next
    have he := elseStatement.references_bind (thenStatement.bind.scopesAfter S) scopes
      (next + thenStatement.scopeCount)
    simpa [bind, history, Action.references, Expression.used_history_eq,
      Expression.result_bindTyped] using hc.append (ht.append he)
  | .whileLoop _ condition body => by
    have hc := condition.references_bindValue S
    have hb := body.references_bind S scopes next
    simpa [bind, history, Action.references, Expression.used_history_eq,
      Expression.result_bindTyped] using hc.append hb
  | .forLoop _ identifier _ lower _ upper body => by
    have hl := lower.references_bindValue S
    have hu := upper.references_bindValue S
    have hb := body.references_bind (loopScopes S identifier) (next :: scopes) (next + 1)
    rw [result_forLoop]
    simpa [history, Action.references, Expression.used_history_eq] using
      hl.append (hu.append hb)
  | .expression inner => by
    have hi := inner.references_bind S
    simpa [bind, history, Action.references, Expression.used_history_eq] using hi

theorem Statement.references_bindAll (S : ScopeChain) (scopes : List Nat) (next : Nat) :
    (ss : List Statement) →
    (Action.referencesAll ((Statement.bindAll ss).result S)).Sublist
      (History.used (Statement.historyAll S scopes next ss))
  | [] => List.nil_sublist _
  | s :: rest => by
    have hs := s.references_bind S scopes next
    have hr := Statement.references_bindAll (s.bind.scopesAfter S) scopes (next + s.scopeCount) rest
    simpa [Statement.bindAll, Statement.historyAll, Action.referencesAll] using hs.append hr

end

mutual

theorem Expression.references_eq {S : ScopeChain} (h : S.Typed False) : (e : Expression) →
    Excused False e.tokens (e.bind.found S) → (e.bind.result S).references = S.found e.names
  | .literal _ value, _ => rfl
  | .name identifier, he => by
    have ht := (name identifier : Expression).typed_bind h he
    rw [Expression.bind] at ht ⊢
    exact (keeps_name identifier).eq ht
  | .unary operator operand, he => by
    have ht := (unary operator operand).typed_bind h he
    rw [Expression.bind_unary] at he ht ⊢
    rw [found_bind] at he
    have ho := operand.references_eq_value h (he.part (by simp [Expression.tokens]) (by simp))
    rw [result_bind, scopesAfter_still] at ht ⊢
    rw [(keeps_unary operator).eq ht, ho]
    rfl
  | .binary left operator right, he => by
    have ht := (binary left operator right).typed_bind h he
    rw [Expression.bind_binary] at he ht ⊢
    simp only [found_bind, scopesAfter_still] at he
    have hl := left.references_eq_value h (he.part (by simp [Expression.tokens]) (by simp))
    have hr := right.references_eq_value h (he.part (by simp [Expression.tokens]) (by simp))
    simp only [result_bind, scopesAfter_still] at ht ⊢
    rw [(keeps_binary operator).eq ht, hl, hr, Expression.names, ScopeChain.found_append]
  | .parenthesized _ inner _, he => by
    rw [Expression.bind] at he ⊢
    exact inner.references_eq h (he.part (by simp [Expression.tokens]) (List.Subset.refl _))
  | .assignment identifier equals source, he => by
    rw [Expression.bind_assignment] at he ⊢
    rw [found_bind, scopesAfter_still] at he
    have hs := source.references_eq_value h (he.part (by simp [Expression.tokens]) (by simp))
    have hf := (List.append_eq_nil_iff.mp (Decidable.not_not.mp he.faulty)).2
    rw [result_bind, scopesAfter_still, references_assignment_of_faultless _ _ _ hf, hs,
      Expression.names, ScopeChain.found_append]
  | .call identifier openParen arguments closeParen, he => by
    have ht := (call identifier openParen arguments closeParen).typed_bind h he
    rw [Expression.bind_call] at he ht ⊢
    rw [found_bind] at he
    have ha := Expression.references_eq_all h arguments
      (he.part (fun t ht => by simp [Expression.tokens, ht]) (by simp))
    rw [result_bind, scopesAfter_still] at ht ⊢
    rw [(keeps_callOrConversion _ identifier _).eq ht, ha]
    rfl

theorem Expression.references_eq_value {S : ScopeChain} (h : S.Typed False) (e : Expression)
    (he : Excused False e.tokens (e.bindValue.found S)) :
    (e.bindValue.result S).references = S.found e.names := by
  have ht := e.typed_bindValue h he
  rw [bindValue, found_bind] at he
  have hb := e.references_eq h (he.part (List.Subset.refl _) (by simp))
  rw [bindValue, result_bind, scopesAfter_still] at ht ⊢
  rw [(keeps_requireValue e.span).eq ht, hb]

theorem Expression.references_eq_all {S : ScopeChain} (h : S.Typed False) :
    (es : List Expression) →
    Excused False (Expression.tokensAll es) ((Expression.bindAll es).found S) →
    Term.referencesAll (((Expression.bindAll es).result S).map Prod.snd) =
      S.found (Expression.namesAll es)
  | [], _ => rfl
  | e :: rest, he => by
    rw [Expression.bindAll_cons] at he ⊢
    simp only [found_bind, scopesAfter_still] at he
    have hv := e.references_eq_value h (he.part (by simp [Expression.tokensAll]) (by simp))
    have hr := Expression.references_eq_all h rest
      (he.part (by simp [Expression.tokensAll]) (by simp))
    simp only [result_bind, scopesAfter_still, result_pure, List.map_cons, Term.referencesAll,
      Expression.namesAll, ScopeChain.found_append, hv, hr]

end

theorem Expression.references_eq_typed {S : ScopeChain} (h : S.Typed False) (e : Expression)
    (target : Ty) (he : Excused False e.tokens ((e.bindTyped target).found S)) :
    (e.bindValue.result S).references = S.found e.names := by
  rw [Expression.found_bindTyped] at he
  exact e.references_eq_value h (he.part (List.Subset.refl _) (by simp))

mutual

theorem Statement.references_eq {S : ScopeChain} (h : S.Typed False) (scopes : List Nat)
    (next : Nat) : (s : Statement) → Excused False s.tokens (s.bind.found S) →
    (s.bind.result S).references = History.used (s.history S scopes next)
  | .block openBrace statements closeBrace, he => by
    simp only [bind, found_bind, found_inNewScope, found_pure, List.append_nil] at he
    have ih := Statement.references_eq_all h.push (next :: scopes) (next + 1) statements
      (he.part (fun t ht => by simp [tokens, ht]) (List.Subset.refl _))
    simp [bind, history, Action.references, ih]
  | .declaration keyword identifier clause equals initializer, he => by
    rw [found_declaration] at he
    have hi := initializer.references_eq_value h
      (he.part (fun t ht => by simp [tokens, ht]) (by simp))
    rw [result_declaration]
    simp [history, Action.references, Expression.used_history_eq, hi]
  | .ifThen _ condition thenStatement, he => by
    simp only [bind, found_bind, scopesAfter_still, found_pure, List.append_nil] at he
    have hc := condition.references_eq_typed h .bool
      (he.part (fun t ht => by simp [tokens, ht]) (List.subset_append_left _ _))
    have ht := thenStatement.references_eq h scopes next
      (he.part (fun t ht => by simp [tokens, ht]) (List.subset_append_right _ _))
    simp [bind, history, Action.references, Expression.used_history_eq,
      Expression.result_bindTyped, hc, ht]
  | .ifThenElse _ condition thenStatement _ elseStatement, he => by
    simp only [bind, found_bind, scopesAfter_still, found_pure, List.append_nil] at he
    have hc := condition.references_eq_typed h .bool
      (he.part (fun t ht => by simp [tokens, ht]) (by simp))
    have hthen : Excused False thenStatement.tokens (thenStatement.bind.found S) :=
      he.part (fun t ht => by simp [tokens, ht]) (by simp)
    have ht := thenStatement.references_eq h scopes next hthen
    have hel := elseStatement.references_eq (h.scopesAfter_bind (thenStatement.typed_bind h hthen))
      scopes (next + thenStatement.scopeCount)
      (he.part (fun t ht => by simp [tokens, ht]) (by simp))
    simp [bind, history, Action.references, Expression.used_history_eq,
      Expression.result_bindTyped, hc, ht, hel]
  | .whileLoop _ condition body, he => by
    simp only [bind, found_bind, scopesAfter_still, found_pure, List.append_nil] at he
    have hc := condition.references_eq_typed h .bool
      (he.part (fun t ht => by simp [tokens, ht]) (List.subset_append_left _ _))
    have hb := body.references_eq h scopes next
      (he.part (fun t ht => by simp [tokens, ht]) (List.subset_append_right _ _))
    simp [bind, history, Action.references, Expression.used_history_eq,
      Expression.result_bindTyped, hc, hb]
  | .forLoop _ identifier _ lower _ upper body, he => by
    rw [found_forLoop] at he
    have hl := lower.references_eq_typed h .int
      (he.part (fun t ht => by simp [tokens, ht]) (by simp))
    have hu := upper.references_eq_typed h .int
      (he.part (fun t ht => by simp [tokens, ht]) (by simp))
    have hb := body.references_eq (h.loopScopes identifier) (next :: scopes) (next + 1)
      (he.part (fun t ht => by simp [tokens, ht]) (by simp))
    rw [result_forLoop]
    simp [history, Action.references, Expression.used_history_eq, hl, hu, hb]
  | .expression inner, he => by
    simp only [bind, found_bind, found_pure, List.append_nil] at he
    have hi := inner.references_eq h he
    simp [bind, history, Action.references, Expression.used_history_eq, hi]

theorem Statement.references_eq_all {S : ScopeChain} (h : S.Typed False) (scopes : List Nat)
    (next : Nat) : (ss : List Statement) →
    Excused False (Statement.tokensAll ss) ((Statement.bindAll ss).found S) →
    Action.referencesAll ((Statement.bindAll ss).result S) =
      History.used (Statement.historyAll S scopes next ss)
  | [], _ => rfl
  | s :: rest, he => by
    simp only [Statement.bindAll, found_bind, found_pure, List.append_nil] at he
    have hfirst : Excused False s.tokens (s.bind.found S) :=
      he.part (by simp [Statement.tokensAll]) (by simp)
    have hs := s.references_eq h scopes next hfirst
    have hr := Statement.references_eq_all (h.scopesAfter_bind (s.typed_bind h hfirst)) scopes
      (next + s.scopeCount) rest (he.part (by simp [Statement.tokensAll]) (by simp))
    simp [Statement.bindAll, Statement.historyAll, Action.referencesAll, hs, hr]

end

end ScalarScript
