import ScalarScript.Token.Lexeme
import ScalarScript.Tree.Basic

set_option autoImplicit false

namespace ScalarScript

def Token.unplaced (t : Token) : Token := { t with span := ⟨0, 0⟩ }

def Diagnostic.unplaced (d : Diagnostic) : Diagnostic := { d with span := ⟨0, 0⟩ }

def Lexeme.unplaced (l : Lexeme) : Lexeme :=
  ⟨l.token.unplaced, l.value, l.diagnostic.map Diagnostic.unplaced⟩

def TypeClause.unplaced (clause : TypeClause) : TypeClause :=
  ⟨clause.colon.unplaced, clause.identifier.unplaced⟩

mutual

def Expression.unplaced : Expression → Expression
  | .literal token value => .literal token.unplaced value
  | .name identifier => .name identifier.unplaced
  | .unary operator operand => .unary operator.unplaced operand.unplaced
  | .binary left operator right => .binary left.unplaced operator.unplaced right.unplaced
  | .parenthesized openParen inner closeParen =>
    .parenthesized openParen.unplaced inner.unplaced closeParen.unplaced
  | .assignment identifier equals source =>
    .assignment identifier.unplaced equals.unplaced source.unplaced
  | .call identifier openParen arguments closeParen =>
    .call identifier.unplaced openParen.unplaced (Expression.unplacedAll arguments)
      closeParen.unplaced

def Expression.unplacedAll : List Expression → List Expression
  | [] => []
  | e :: rest => e.unplaced :: Expression.unplacedAll rest

end

mutual

def Statement.unplaced : Statement → Statement
  | .block openBrace statements closeBrace =>
    .block openBrace.unplaced (Statement.unplacedAll statements) closeBrace.unplaced
  | .declaration keyword identifier clause equals initializer =>
    .declaration keyword.unplaced identifier.unplaced (clause.map TypeClause.unplaced)
      equals.unplaced initializer.unplaced
  | .ifThen ifKeyword condition thenStatement =>
    .ifThen ifKeyword.unplaced condition.unplaced thenStatement.unplaced
  | .ifThenElse ifKeyword condition thenStatement elseKeyword elseStatement =>
    .ifThenElse ifKeyword.unplaced condition.unplaced thenStatement.unplaced elseKeyword.unplaced
      elseStatement.unplaced
  | .whileLoop whileKeyword condition body =>
    .whileLoop whileKeyword.unplaced condition.unplaced body.unplaced
  | .forLoop forKeyword identifier equals lower toKeyword upper body =>
    .forLoop forKeyword.unplaced identifier.unplaced equals.unplaced lower.unplaced
      toKeyword.unplaced upper.unplaced body.unplaced
  | .expression inner => .expression inner.unplaced

def Statement.unplacedAll : List Statement → List Statement
  | [] => []
  | s :: rest => s.unplaced :: Statement.unplacedAll rest

end

def Tree.unplaced (tree : Tree) : Tree := ⟨tree.statement.unplaced, tree.endOfFile.unplaced⟩

end ScalarScript
