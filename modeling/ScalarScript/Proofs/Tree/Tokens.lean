import ScalarScript.Tree.Outline

set_option autoImplicit false

namespace ScalarScript

mutual

def Expression.tokens : Expression → List Token
  | .literal token _ => [token]
  | .name identifier => [identifier]
  | .unary operator operand => operator :: operand.tokens
  | .binary left operator right => left.tokens ++ operator :: right.tokens
  | .parenthesized openParen inner closeParen => openParen :: inner.tokens ++ [closeParen]
  | .assignment identifier equals source => identifier :: equals :: source.tokens
  | .call identifier openParen arguments closeParen =>
    identifier :: openParen :: Expression.tokensAll arguments ++ [closeParen]

def Expression.tokensAll : List Expression → List Token
  | [] => []
  | e :: rest => e.tokens ++ Expression.tokensAll rest

end

def TypeClause.tokens (clause : TypeClause) : List Token := [clause.colon, clause.identifier]

mutual

def Statement.tokens : Statement → List Token
  | .block openBrace statements closeBrace =>
    openBrace :: Statement.tokensAll statements ++ [closeBrace]
  | .declaration keyword identifier clause equals initializer =>
    keyword :: identifier :: clause.toList.flatMap TypeClause.tokens ++
      equals :: initializer.tokens
  | .ifThen ifKeyword condition thenStatement =>
    ifKeyword :: condition.tokens ++ thenStatement.tokens
  | .ifThenElse ifKeyword condition thenStatement elseKeyword elseStatement =>
    ifKeyword :: condition.tokens ++ thenStatement.tokens ++ elseKeyword :: elseStatement.tokens
  | .whileLoop whileKeyword condition body => whileKeyword :: condition.tokens ++ body.tokens
  | .forLoop forKeyword identifier equals lower toKeyword upper body =>
    forKeyword :: identifier :: equals :: lower.tokens ++ toKeyword :: upper.tokens ++ body.tokens
  | .expression inner => inner.tokens

def Statement.tokensAll : List Statement → List Token
  | [] => []
  | s :: rest => s.tokens ++ Statement.tokensAll rest

end

@[simp] theorem Row.token?_node_cons (depth : Nat) (kind : NodeKind) (span : Span)
    (rows : List Row) :
    (Row.node depth kind span :: rows).filterMap Row.token? = rows.filterMap Row.token? := rfl

@[simp] theorem Row.token?_token_cons (depth : Nat) (t : Token) (rows : List Row) :
    (Row.token depth t :: rows).filterMap Row.token? = t :: rows.filterMap Row.token? := rfl

mutual

theorem Expression.tokens_outline (depth : Nat) : (e : Expression) →
    (e.outline depth).filterMap Row.token? = e.tokens
  | .literal _ _ => rfl
  | .name _ => rfl
  | .unary _ operand => by
    simp [outline, tokens, operand.tokens_outline]
  | .binary left _ right => by
    simp [outline, tokens, left.tokens_outline, right.tokens_outline]
  | .parenthesized _ inner _ => by
    simp [outline, tokens, inner.tokens_outline]
  | .assignment _ _ source => by
    simp [outline, tokens, source.tokens_outline]
  | .call _ _ arguments _ => by
    simp [outline, tokens, Expression.tokensAll_outlines _ arguments]

theorem Expression.tokensAll_outlines (depth : Nat) : (es : List Expression) →
    (Expression.outlines depth es).filterMap Row.token? = Expression.tokensAll es
  | [] => rfl
  | e :: rest => by
    simp [Expression.outlines, Expression.tokensAll, e.tokens_outline,
      Expression.tokensAll_outlines depth rest]

end

@[simp] theorem TypeClause.token?_clauseRows (depth : Nat) (clause : Option TypeClause) :
    (TypeClause.clauseRows depth clause).filterMap Row.token? = [] := by
  cases clause <;> rfl

@[simp] theorem TypeClause.token?_tokenRows (depth : Nat) (clause : Option TypeClause) :
    (TypeClause.tokenRows depth clause).filterMap Row.token? =
      clause.toList.flatMap TypeClause.tokens := by
  cases clause <;> rfl

mutual

theorem Statement.tokens_outline (depth : Nat) : (s : Statement) →
    (s.outline depth).filterMap Row.token? = s.tokens
  | .block _ statements _ => by
    simp [outline, tokens, Statement.tokensAll_outlines _ statements]
  | .declaration _ _ _ _ initializer => by
    simp [outline, tokens, initializer.tokens_outline]
  | .ifThen _ condition thenStatement => by
    simp [outline, tokens, condition.tokens_outline, thenStatement.tokens_outline]
  | .ifThenElse _ condition thenStatement _ elseStatement => by
    simp [outline, tokens, condition.tokens_outline, thenStatement.tokens_outline,
      elseStatement.tokens_outline]
  | .whileLoop _ condition body => by
    simp [outline, tokens, condition.tokens_outline, body.tokens_outline]
  | .forLoop _ _ _ lower _ upper body => by
    simp [outline, tokens, lower.tokens_outline, upper.tokens_outline, body.tokens_outline]
  | .expression inner => by
    simp [outline, tokens, inner.tokens_outline]

theorem Statement.tokensAll_outlines (depth : Nat) : (ss : List Statement) →
    (Statement.outlines depth ss).filterMap Row.token? = Statement.tokensAll ss
  | [] => rfl
  | s :: rest => by
    simp [Statement.outlines, Statement.tokensAll, s.tokens_outline,
      Statement.tokensAll_outlines depth rest]

end

theorem Tree.tokens_eq (tree : Tree) : tree.tokens = tree.statement.tokens ++ [tree.endOfFile] := by
  simp [Tree.tokens, Tree.outline, tree.statement.tokens_outline]

def Present (ts : List Token) : Prop := ∀ t ∈ ts, t.isMissing = false

instance (ts : List Token) : Decidable (Present ts) :=
  inferInstanceAs (Decidable (∀ t ∈ ts, t.isMissing = false))

@[simp] theorem present_nil : Present [] := by simp [Present]

@[simp] theorem present_cons (t : Token) (ts : List Token) :
    Present (t :: ts) ↔ t.isMissing = false ∧ Present ts := by simp [Present]

@[simp] theorem present_append (ts us : List Token) :
    Present (ts ++ us) ↔ Present ts ∧ Present us := List.forall_mem_append

end ScalarScript
