import ScalarScript.Proofs.Binding.Scoping

set_option autoImplicit false

namespace ScalarScript

/-- A name where it is declared or used. Scopes are numbered as they open: the top of the fragment
is 0, each block and each loop over a range has the next number. -/
structure Occurrence where
  identifier : Token
  declares : Bool
  scopes : List Nat
  deriving DecidableEq, Repr

mutual

def Expression.names : Expression → List Token
  | .literal _ _ => []
  | .name identifier => [identifier]
  | .unary _ operand => operand.names
  | .binary left _ right => left.names ++ right.names
  | .parenthesized _ inner _ => inner.names
  | .assignment identifier _ source => source.names ++ [identifier]
  | .call _ _ arguments _ => Expression.namesAll arguments

def Expression.namesAll : List Expression → List Token
  | [] => []
  | e :: rest => e.names ++ Expression.namesAll rest

end

mutual

def Statement.scopeCount : Statement → Nat
  | .block _ statements _ => 1 + Statement.scopeCountAll statements
  | .declaration _ _ _ _ _ => 0
  | .ifThen _ _ thenStatement => thenStatement.scopeCount
  | .ifThenElse _ _ thenStatement _ elseStatement =>
    thenStatement.scopeCount + elseStatement.scopeCount
  | .whileLoop _ _ body => body.scopeCount
  | .forLoop _ _ _ _ _ _ body => 1 + body.scopeCount
  | .expression _ => 0

def Statement.scopeCountAll : List Statement → Nat
  | [] => 0
  | s :: rest => s.scopeCount + Statement.scopeCountAll rest

end

def Expression.occurrences (scopes : List Nat) (e : Expression) : List Occurrence :=
  e.names.map fun t => ⟨t, false, scopes⟩

mutual

/-- The names in a statement, where these scopes are open and the next one gets the number `next`.
What is declared is met after the initial value, or the bounds of the range. -/
def Statement.occurrences (scopes : List Nat) (next : Nat) : Statement → List Occurrence
  | .block _ statements _ => Statement.occurrencesAll (next :: scopes) (next + 1) statements
  | .declaration _ identifier _ _ initializer =>
    initializer.occurrences scopes ++ [⟨identifier, true, scopes⟩]
  | .ifThen _ condition thenStatement =>
    condition.occurrences scopes ++ thenStatement.occurrences scopes next
  | .ifThenElse _ condition thenStatement _ elseStatement =>
    condition.occurrences scopes ++ thenStatement.occurrences scopes next ++
      elseStatement.occurrences scopes (next + thenStatement.scopeCount)
  | .whileLoop _ condition body => condition.occurrences scopes ++ body.occurrences scopes next
  | .forLoop _ identifier _ lower _ upper body =>
    lower.occurrences scopes ++ upper.occurrences scopes ++
      ⟨identifier, true, next :: scopes⟩ :: body.occurrences (next :: scopes) (next + 1)
  | .expression inner => inner.occurrences scopes

def Statement.occurrencesAll (scopes : List Nat) (next : Nat) : List Statement → List Occurrence
  | [] => []
  | s :: rest =>
    s.occurrences scopes next ++ Statement.occurrencesAll scopes (next + s.scopeCount) rest

end

abbrev History := List (Occurrence × Option Variable)

def Expression.history (S : ScopeChain) (scopes : List Nat) (e : Expression) : History :=
  (e.occurrences scopes).map fun o => (o, S.variableNamed? o.identifier.text)

mutual

/-- The names in a statement, with the variables that the binder declares or finds under them when
it comes to the statement with these scopes. -/
def Statement.history (S : ScopeChain) (scopes : List Nat) (next : Nat) : Statement → History
  | .block _ statements _ => Statement.historyAll S.push (next :: scopes) (next + 1) statements
  | .declaration keyword identifier _ _ initializer =>
    initializer.history S scopes ++
      [(⟨identifier, true, scopes⟩, some (S.fresh identifier.text (keyword.kind == .letKeyword)
        (initializer.bindValue.result S).type))]
  | .ifThen _ condition thenStatement =>
    condition.history S scopes ++ thenStatement.history S scopes next
  | .ifThenElse _ condition thenStatement _ elseStatement =>
    condition.history S scopes ++ thenStatement.history S scopes next ++
      elseStatement.history (thenStatement.bind.scopesAfter S) scopes
        (next + thenStatement.scopeCount)
  | .whileLoop _ condition body => condition.history S scopes ++ body.history S scopes next
  | .forLoop _ identifier _ lower _ upper body =>
    lower.history S scopes ++ upper.history S scopes ++
      (⟨identifier, true, next :: scopes⟩, some (S.fresh identifier.text true .int)) ::
        body.history (Statement.loopScopes S identifier) (next :: scopes) (next + 1)
  | .expression inner => inner.history S scopes

def Statement.historyAll (S : ScopeChain) (scopes : List Nat) (next : Nat) :
    List Statement → History
  | [] => []
  | s :: rest =>
    s.history S scopes next ++
      Statement.historyAll (s.bind.scopesAfter S) scopes (next + s.scopeCount) rest

end

def History.declared (h : History) : List Variable :=
  h.filterMap fun (o, v) => if o.declares then v else none

def History.used (h : History) : List Variable :=
  h.filterMap fun (o, v) => if o.declares then none else v

def History.undefined (h : History) : List Diagnostic :=
  h.filterMap fun (o, v) =>
    match v with
    | some _ => none
    | none => some ⟨o.identifier.span, .undefinedName o.identifier.text⟩

section Laws

variable (h l : History)

section Declaration

variable (t : Token) (scopes : List Nat) (v : Variable)

@[simp] theorem History.declared_declaration :
    declared ((⟨t, true, scopes⟩, some v) :: h) = v :: declared h := rfl

@[simp] theorem History.used_declaration :
    used ((⟨t, true, scopes⟩, some v) :: h) = used h := rfl

@[simp] theorem History.undefined_declaration :
    undefined ((⟨t, true, scopes⟩, some v) :: h) = undefined h := rfl

end Declaration

@[simp] theorem History.declared_nil : declared [] = [] := rfl

@[simp] theorem History.used_nil : used [] = [] := rfl

@[simp] theorem History.undefined_nil : undefined [] = [] := rfl

@[simp] theorem History.declared_append : declared (h ++ l) = declared h ++ declared l :=
  List.filterMap_append

@[simp] theorem History.used_append : used (h ++ l) = used h ++ used l := List.filterMap_append

@[simp] theorem History.undefined_append : undefined (h ++ l) = undefined h ++ undefined l :=
  List.filterMap_append

end Laws

section Expressions

variable (S : ScopeChain) (scopes : List Nat) (e : Expression)

theorem Expression.map_fst_history :
    (e.history S scopes).map Prod.fst = e.occurrences scopes := by
  simp [history, Function.comp_def]

@[simp] theorem Expression.declared_history : History.declared (e.history S scopes) = [] := by
  rw [History.declared, List.filterMap_eq_nil_iff]
  simp [history, occurrences]

theorem Expression.used_history : History.used (e.history S scopes) =
    e.names.filterMap fun t => S.variableNamed? t.text := by
  simp [History.used, history, occurrences, List.filterMap_map, Function.comp_def]

theorem Expression.undefined_history : History.undefined (e.history S scopes) =
    e.names.filterMap fun t =>
      match S.variableNamed? t.text with
      | some _ => none
      | none => some ⟨t.span, .undefinedName t.text⟩ := by
  simp [History.undefined, history, occurrences, List.filterMap_map, Function.comp_def]

end Expressions

mutual

theorem Statement.map_fst_history (S : ScopeChain) (scopes : List Nat) (next : Nat) :
    (s : Statement) → (s.history S scopes next).map Prod.fst = s.occurrences scopes next
  | .block _ statements _ => Statement.map_fst_historyAll S.push (next :: scopes) (next + 1) statements
  | .declaration _ _ _ _ _ => by
    simp [history, occurrences, Expression.map_fst_history]
  | .ifThen _ _ thenStatement => by
    have ih := thenStatement.map_fst_history S scopes next
    simp [history, occurrences, Expression.map_fst_history, ih]
  | .ifThenElse _ _ thenStatement _ elseStatement => by
    have iht := thenStatement.map_fst_history S scopes next
    have ihe := elseStatement.map_fst_history (thenStatement.bind.scopesAfter S) scopes
      (next + thenStatement.scopeCount)
    simp [history, occurrences, Expression.map_fst_history, iht, ihe]
  | .whileLoop _ _ body => by
    have ih := body.map_fst_history S scopes next
    simp [history, occurrences, Expression.map_fst_history, ih]
  | .forLoop _ identifier _ _ _ _ body => by
    have ih := body.map_fst_history (loopScopes S identifier) (next :: scopes) (next + 1)
    simp [history, occurrences, Expression.map_fst_history, ih]
  | .expression inner => inner.map_fst_history S scopes

theorem Statement.map_fst_historyAll (S : ScopeChain) (scopes : List Nat) (next : Nat) :
    (ss : List Statement) →
    (Statement.historyAll S scopes next ss).map Prod.fst = Statement.occurrencesAll scopes next ss
  | [] => rfl
  | s :: rest => by
    have ihs := s.map_fst_history S scopes next
    have ihr := Statement.map_fst_historyAll (s.bind.scopesAfter S) scopes (next + s.scopeCount) rest
    simp [Statement.historyAll, Statement.occurrencesAll, ihs, ihr]

end

mutual

theorem Statement.declared_history (S : ScopeChain) (scopes : List Nat) (next : Nat) :
    (s : Statement) → History.declared (s.history S scopes next) = (s.bind.result S).declared
  | .block _ statements _ => by
    have ih := Statement.declared_historyAll S.push (next :: scopes) (next + 1) statements
    simp [history, bind, Action.declared, ih]
  | .declaration _ _ _ _ _ => by
    rw [result_declaration]
    simp [history, Action.declared]
  | .ifThen _ _ thenStatement => by
    have ih := thenStatement.declared_history S scopes next
    simp [history, bind, Action.declared, ih]
  | .ifThenElse _ _ thenStatement _ elseStatement => by
    have iht := thenStatement.declared_history S scopes next
    have ihe := elseStatement.declared_history (thenStatement.bind.scopesAfter S) scopes
      (next + thenStatement.scopeCount)
    simp [history, bind, Action.declared, iht, ihe]
  | .whileLoop _ _ body => by
    have ih := body.declared_history S scopes next
    simp [history, bind, Action.declared, ih]
  | .forLoop _ identifier _ _ _ _ body => by
    have ih := body.declared_history (loopScopes S identifier) (next :: scopes) (next + 1)
    rw [result_forLoop, Action.declared, ← ih]
    simp [history]
  | .expression inner => by
    simp [history, bind, Action.declared]

theorem Statement.declared_historyAll (S : ScopeChain) (scopes : List Nat) (next : Nat) :
    (ss : List Statement) → History.declared (Statement.historyAll S scopes next ss) =
      Action.declaredAll ((Statement.bindAll ss).result S)
  | [] => rfl
  | s :: rest => by
    have ihs := s.declared_history S scopes next
    have ihr := Statement.declared_historyAll (s.bind.scopesAfter S) scopes
      (next + s.scopeCount) rest
    simp [Statement.historyAll, Statement.bindAll, Action.declaredAll, ihs, ihr]

end

end ScalarScript
