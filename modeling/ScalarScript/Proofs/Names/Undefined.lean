import ScalarScript.Proofs.Names.Occurrences
import ScalarScript.Proofs.Typing.Binding

set_option autoImplicit false

namespace ScalarScript

open Binder

def Diagnostic.isUndefinedName (d : Diagnostic) : Bool := d.fault.kind == .undefinedName

namespace Binder

variable {S : ScopeChain}

def undefined {α : Type} (x : Binder α) (S : ScopeChain) : List Diagnostic :=
  (x.found S).filter Diagnostic.isUndefinedName

@[simp] theorem undefined_bind {α β : Type} (x : Binder α) (f : α → Binder β) (S : ScopeChain)
    [∀ a, Additive (f a)] :
    (x >>= f).undefined S = x.undefined S ++ (f (x.result S)).undefined (x.scopesAfter S) := by
  simp [undefined]

@[simp] theorem undefined_pure {α : Type} (a : α) : (pure a : Binder α).undefined S = [] := rfl

@[simp] theorem undefined_map {α β : Type} (g : α → β) (x : Binder α) :
    (g <$> x).undefined S = x.undefined S := rfl

@[simp] theorem undefined_requireValue (span : Span) (t : Term) :
    (requireValue span t).undefined S = [] := by
  rw [undefined, (yields_requireValue _ _).found_eq]
  split <;> rfl

@[simp] theorem undefined_requireType (span : Span) (actual target : Ty) :
    (requireType span actual target).undefined S = [] := by
  rw [undefined, (yields_requireType _ _ _).found_eq]
  split <;> rfl

def undefinedUse (S : ScopeChain) (t : Token) : Option Diagnostic :=
  match S.variableNamed? t.text with
  | some _ => none
  | none => some ⟨t.span, .undefinedName t.text⟩

theorem undefined_name {t : Token} (ht : t.isMissing = false) :
    (name t).undefined S = [t].filterMap (undefinedUse S) := by
  rw [undefined, (yields_name _).found_eq]
  cases h : S.variableNamed? t.text with
  | none =>
    simp [undefinedUse, ht, h]
    rfl
  | some v => simp [undefinedUse, ht, h]

theorem undefined_assignment (identifier equals : Token) (span : Span) (source : Term) :
    (assignment identifier equals span source).undefined S =
      [identifier].filterMap (undefinedUse S) := by
  rw [undefined, (yields_assignment _ _ _ _).found_eq]
  cases h : S.variableNamed? identifier.text with
  | none =>
    simp [undefinedUse, h]
    rfl
  | some v =>
    simp only [undefinedUse, h, List.filterMap_cons, List.filterMap_nil]
    rw [List.filter_append]
    split <;> split <;> rfl

@[simp] theorem undefined_unary (operator : Token) (operand : Term) :
    (unary operator operand).undefined S = [] := by
  rw [undefined, (yields_unary _ _).found_eq]
  split
  · rfl
  · cases UnaryOperator.find? operator.kind operand.type <;> rfl

@[simp] theorem undefined_binary (left : Term) (operator : Token) (right : Term) :
    (binary left operator right).undefined S = [] := by
  rw [undefined, (yields_binary _ _ _).found_eq]
  split
  · rfl
  · cases BinaryOperator.find? operator.kind left.type right.type <;> rfl

theorem undefined_argumentFaults (parameters : List Parameter) (arguments : List (Span × Term)) :
    (argumentFaults parameters arguments).filter Diagnostic.isUndefinedName = [] := by
  induction parameters generalizing arguments with
  | nil => simp [argumentFaults]
  | cons p parameters ih =>
    cases arguments with
    | nil => rfl
    | cons argument arguments =>
      rw [argumentFaults, List.filter_append, ih]
      split <;> rfl

@[simp] theorem undefined_callOrConversion (span : Span) (identifier : Token)
    (arguments : List (Span × Term)) :
    (callOrConversion span identifier arguments).undefined S = [] := by
  unfold callOrConversion
  split
  · rw [undefined, (yields_conversion _ _ _).found_eq]
    split
    · rfl
    · split <;> rfl
  · rw [undefined, (yields_call _ _ _).found_eq]
    cases S.functionNamed? identifier.text with
    | none => rfl
    | some f =>
      dsimp only
      split
      · rfl
      · exact undefined_argumentFaults _ _

theorem undefined_declarationFaults (identifier : Token) (declared : Except Variable Variable) :
    (declarationFaults identifier declared).filter Diagnostic.isUndefinedName = [] := by
  cases declared with
  | ok v => rfl
  | error v =>
    cases h : identifier.isMissing with
    | false =>
      simp [declarationFaults, h]
      rfl
    | true => simp [declarationFaults, h]

end Binder

theorem Expression.undefined_history_eq (S : ScopeChain) (scopes : List Nat) (e : Expression) :
    History.undefined (e.history S scopes) = e.names.filterMap (undefinedUse S) :=
  e.undefined_history S scopes

mutual

theorem Expression.undefined_bind {S : ScopeChain} : (e : Expression) → Present e.tokens →
    e.bind.undefined S = e.names.filterMap (undefinedUse S)
  | .literal _ _, _ => rfl
  | .name identifier, hp => by
    rw [Expression.bind, undefined_name (by simpa [Expression.tokens] using hp), Expression.names]
  | .unary operator operand, hp => by
    have ho := operand.undefined_bindValue (S := S) (by simp_all [Expression.tokens])
    rw [Expression.bind_unary]
    simp [ho, Expression.names]
  | .binary left operator right, hp => by
    have hl := left.undefined_bindValue (S := S) (by simp_all [Expression.tokens])
    have hr := right.undefined_bindValue (S := S) (by simp_all [Expression.tokens])
    rw [Expression.bind_binary]
    simp [hl, hr, Expression.names]
  | .parenthesized _ inner _, hp => by
    rw [Expression.bind]
    exact inner.undefined_bind (by simp_all [Expression.tokens])
  | .assignment identifier equals source, hp => by
    have hs := source.undefined_bindValue (S := S) (by simp_all [Expression.tokens])
    rw [Expression.bind_assignment]
    simp only [Binder.undefined_bind, hs, scopesAfter_still, undefined_assignment, Expression.names,
      List.filterMap_append]
  | .call identifier openParen arguments closeParen, hp => by
    have ha := Expression.undefined_bindAll (S := S) arguments (by simp_all [Expression.tokens])
    rw [Expression.bind_call]
    simp [ha, Expression.names]

theorem Expression.undefined_bindValue {S : ScopeChain} (e : Expression) (hp : Present e.tokens) :
    e.bindValue.undefined S = e.names.filterMap (undefinedUse S) := by
  have hb := e.undefined_bind (S := S) hp
  simp [bindValue, hb]

theorem Expression.undefined_bindAll {S : ScopeChain} : (es : List Expression) →
    Present (Expression.tokensAll es) →
    (Expression.bindAll es).undefined S = (Expression.namesAll es).filterMap (undefinedUse S)
  | [], _ => by simp [Expression.bindAll, Expression.namesAll]
  | e :: rest, hp => by
    have he := e.undefined_bindValue (S := S) (by simp_all [Expression.tokensAll])
    have hr := Expression.undefined_bindAll (S := S) rest (by simp_all [Expression.tokensAll])
    rw [Expression.bindAll_cons]
    simp [he, hr, Expression.namesAll]

end

@[simp] theorem Binder.undefined_inNewScope {α : Type} (x : Binder α) [Additive x]
    (S : ScopeChain) : (inNewScope x).undefined S = x.undefined S.push := by
  simp [undefined]

theorem Expression.undefined_bindTyped {S : ScopeChain} (e : Expression) (target : Ty)
    (hp : Present e.tokens) :
    (e.bindTyped target).undefined S = e.names.filterMap (undefinedUse S) := by
  have hv := e.undefined_bindValue (S := S) hp
  simp [bindTyped, hv]

mutual

/-- The undefined names noted of a statement are the names under which nothing is found. -/
theorem Statement.undefined_bind (S : ScopeChain) (scopes : List Nat) (next : Nat) :
    (s : Statement) → Present s.tokens →
    s.bind.undefined S = History.undefined (s.history S scopes next)
  | .block _ statements _, hp => by
    have ih := Statement.undefined_bindAll S.push (next :: scopes) (next + 1) statements
      (by simp_all [tokens])
    simp [bind, history, ih]
  | .declaration keyword identifier clause equals initializer, hp => by
    have hi := initializer.undefined_bindValue (S := S) (by simp_all [tokens])
    rw [undefined, found_declaration, List.filter_append, undefined_declarationFaults, ← undefined,
      hi]
    simp [history, Expression.undefined_history_eq]
  | .ifThen _ condition thenStatement, hp => by
    have hc := condition.undefined_bindTyped (S := S) .bool (by simp_all [tokens])
    have ht := thenStatement.undefined_bind S scopes next (by simp_all [tokens])
    simp [bind, history, hc, ht, Expression.undefined_history_eq]
  | .ifThenElse _ condition thenStatement _ elseStatement, hp => by
    have hc := condition.undefined_bindTyped (S := S) .bool (by simp_all [tokens])
    have ht := thenStatement.undefined_bind S scopes next (by simp_all [tokens])
    have he := elseStatement.undefined_bind (thenStatement.bind.scopesAfter S) scopes
      (next + thenStatement.scopeCount) (by simp_all [tokens])
    simp [bind, history, hc, ht, he, Expression.undefined_history_eq]
  | .whileLoop _ condition body, hp => by
    have hc := condition.undefined_bindTyped (S := S) .bool (by simp_all [tokens])
    have hb := body.undefined_bind S scopes next (by simp_all [tokens])
    simp [bind, history, hc, hb, Expression.undefined_history_eq]
  | .forLoop _ identifier _ lower _ upper body, hp => by
    have hl := lower.undefined_bindTyped (S := S) .int (by simp_all [tokens])
    have hu := upper.undefined_bindTyped (S := S) .int (by simp_all [tokens])
    have hb := body.undefined_bind (loopScopes S identifier) (next :: scopes) (next + 1)
      (by simp_all [tokens])
    rw [undefined] at hl hu hb
    rw [undefined, found_forLoop, List.filter_append, List.filter_append, hl, hu, hb]
    simp [history, Expression.undefined_history_eq]
  | .expression inner, hp => by
    have hi := inner.undefined_bind (S := S) (by simp_all [tokens])
    simp [bind, history, hi, Expression.undefined_history_eq]

theorem Statement.undefined_bindAll (S : ScopeChain) (scopes : List Nat) (next : Nat) :
    (ss : List Statement) → Present (Statement.tokensAll ss) →
    (Statement.bindAll ss).undefined S = History.undefined (Statement.historyAll S scopes next ss)
  | [], _ => by simp [Statement.bindAll, Statement.historyAll]
  | s :: rest, hp => by
    have hs := s.undefined_bind S scopes next (by simp_all [Statement.tokensAll])
    have hr := Statement.undefined_bindAll (s.bind.scopesAfter S) scopes (next + s.scopeCount) rest
      (by simp_all [Statement.tokensAll])
    simp [Statement.bindAll, Statement.historyAll, hs, hr]

end

end ScalarScript
