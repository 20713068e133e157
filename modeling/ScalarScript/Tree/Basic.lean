import ScalarScript.Tree.Kind
import ScalarScript.Value

/-!
The tree of a fragment. Every node keeps the tokens it was made of, apart from the commas between
the arguments of a call; its span runs over its first and its last part.
-/

set_option autoImplicit false

namespace ScalarScript

inductive Expression where
  | literal (token : Token) (value : Value)
  | name (identifier : Token)
  | unary (operator : Token) (operand : Expression)
  | binary (left : Expression) (operator : Token) (right : Expression)
  | parenthesized (openParen : Token) (inner : Expression) (closeParen : Token)
  | assignment (identifier equals : Token) (source : Expression)
  | call (identifier openParen : Token) (arguments : List Expression) (closeParen : Token)

namespace Expression

def kind : Expression → NodeKind
  | .literal _ _ => .literalExpression
  | .name _ => .nameExpression
  | .unary _ _ => .unaryExpression
  | .binary _ _ _ => .binaryExpression
  | .parenthesized _ _ _ => .parenthesizedExpression
  | .assignment _ _ _ => .assignmentExpression
  | .call _ _ _ _ => .callExpression

def span : Expression → Span
  | .literal token _ => token.span
  | .name identifier => identifier.span
  | .unary operator operand => operator.span.union operand.span
  | .binary left _ right => left.span.union right.span
  | .parenthesized openParen _ closeParen => openParen.span.union closeParen.span
  | .assignment identifier _ source => identifier.span.union source.span
  | .call identifier _ _ closeParen => identifier.span.union closeParen.span

end Expression

/-- The type named after a colon in a declaration. It says nothing about the variable: the type of
a variable is that of its initial value. -/
structure TypeClause where
  colon : Token
  identifier : Token
  deriving DecidableEq, Repr

namespace TypeClause

def span (clause : TypeClause) : Span := clause.colon.span.union clause.identifier.span

end TypeClause

inductive Statement where
  | block (openBrace : Token) (statements : List Statement) (closeBrace : Token)
  | declaration (keyword identifier : Token) (typeClause : Option TypeClause) (equals : Token)
      (initializer : Expression)
  | ifThen (ifKeyword : Token) (condition : Expression) (thenStatement : Statement)
  | ifThenElse (ifKeyword : Token) (condition : Expression) (thenStatement : Statement)
      (elseKeyword : Token) (elseStatement : Statement)
  | whileLoop (whileKeyword : Token) (condition : Expression) (body : Statement)
  | forLoop (forKeyword identifier equals : Token) (lower : Expression) (toKeyword : Token)
      (upper : Expression) (body : Statement)
  | expression (inner : Expression)

namespace Statement

def kind : Statement → NodeKind
  | .block _ _ _ => .blockStatement
  | .declaration _ _ _ _ _ => .variableDeclaration
  | .ifThen _ _ _ | .ifThenElse _ _ _ _ _ => .ifStatement
  | .whileLoop _ _ _ => .whileStatement
  | .forLoop _ _ _ _ _ _ _ => .forStatement
  | .expression _ => .expressionStatement

def span : Statement → Span
  | .block openBrace _ closeBrace => openBrace.span.union closeBrace.span
  | .declaration keyword _ _ _ initializer => keyword.span.union initializer.span
  | .ifThen ifKeyword _ thenStatement => ifKeyword.span.union thenStatement.span
  | .ifThenElse ifKeyword _ _ elseKeyword elseStatement =>
    ifKeyword.span.union (elseKeyword.span.union elseStatement.span)
  | .whileLoop whileKeyword _ body => whileKeyword.span.union body.span
  | .forLoop forKeyword _ _ _ _ _ body => forKeyword.span.union body.span
  | .expression inner => inner.span

end Statement

structure Tree where
  statement : Statement
  endOfFile : Token

namespace Tree

def span (tree : Tree) : Span := .between 0 tree.endOfFile.span.stop

end Tree

end ScalarScript
