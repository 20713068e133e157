import ScalarScript.Tree.Grammar
import ScalarScript.Proofs.Token.Spaced

set_option autoImplicit false

namespace ScalarScript

def Token.comma : Token := ⟨.comma, .emptyAt 0, ","⟩

mutual

def Expression.printed : Expression → List Token
  | .literal token _ => [token]
  | .name identifier => [identifier]
  | .unary operator operand => operator :: operand.printed
  | .binary left operator right => left.printed ++ operator :: right.printed
  | .parenthesized openParen inner closeParen => openParen :: inner.printed ++ [closeParen]
  | .assignment identifier equals source => identifier :: equals :: source.printed
  | .call identifier openParen arguments closeParen =>
    identifier :: openParen :: (Expression.printedAfter arguments).tail ++ [closeParen]

def Expression.printedAfter : List Expression → List Token
  | [] => []
  | e :: rest => .comma :: e.printed ++ Expression.printedAfter rest

end

mutual

def Statement.printed : Statement → List Token
  | .block openBrace statements closeBrace =>
    openBrace :: Statement.printedAll statements ++ [closeBrace]
  | .declaration keyword identifier clause equals initializer =>
    keyword :: identifier :: clause.toList.flatMap (fun c => [c.colon, c.identifier]) ++
      equals :: initializer.printed
  | .ifThen ifKeyword condition thenStatement =>
    ifKeyword :: condition.printed ++ thenStatement.printed
  | .ifThenElse ifKeyword condition thenStatement elseKeyword elseStatement =>
    ifKeyword :: condition.printed ++ thenStatement.printed ++
      elseKeyword :: elseStatement.printed
  | .whileLoop whileKeyword condition body => whileKeyword :: condition.printed ++ body.printed
  | .forLoop forKeyword identifier equals lower toKeyword upper body =>
    forKeyword :: identifier :: equals :: lower.printed ++ toKeyword :: upper.printed ++
      body.printed
  | .expression inner => inner.printed

def Statement.printedAll : List Statement → List Token
  | [] => []
  | s :: rest => s.printed ++ Statement.printedAll rest

end

def Tree.printed (tree : Tree) : List Token := tree.statement.printed ++ [tree.endOfFile]

def Token.Is (t : Token) (kind : TokenKind) : Prop := t.kind = kind ∧ t.Valid

namespace Expression

/-- How tightly the outermost operator between operands binds; an assignment binds loosest, and what
has no such operator tighter than any. -/
def tightness : Expression → Nat
  | .assignment _ _ _ => Precedence.lowest.level
  | .binary _ operator _ => (operator.kind.binaryPrecedence?.getD .lowest).level
  | _ => Precedence.unary.level + 1

/-- The number of operators of the chain that the expression is, those of its leftmost operands
included. -/
def joints : Expression → Nat
  | .binary left _ _ => left.joints + 1
  | _ => 0

inductive Printable : Expression → Prop where
  | boolean {token : Token} {value : Bool}
    (h : token.Is (if value then .trueKeyword else .falseKeyword)) :
    Printable (.literal token (.bool value))
  | literal {token : Token} {value : Value} (h : token.Denotes (some value)) :
    Printable (.literal token value)
  | name {identifier : Token} (h : identifier.Is .identifier) : Printable (.name identifier)
  | unary {operator : Token} {operand : Expression} {p : Precedence} (hvalid : operator.Valid)
    (hoperator : operator.kind.unaryPrecedence? = some p) (hoperand : Printable operand)
    (htight : p.level < operand.tightness) : Printable (.unary operator operand)
  | binary {left : Expression} {operator : Token} {right : Expression} {p : Precedence}
    (hvalid : operator.Valid) (hoperator : operator.kind.binaryPrecedence? = some p)
    (hleft : Printable left) (hright : Printable right) (htight : p.level ≤ left.tightness)
    (htighter : p.level < right.tightness) : Printable (.binary left operator right)
  | parenthesized {openParen : Token} {inner : Expression} {closeParen : Token}
    (hopen : openParen.Is .openParen) (hinner : Printable inner)
    (hclose : closeParen.Is .closeParen) : Printable (.parenthesized openParen inner closeParen)
  | assignment {identifier equals : Token} {source : Expression}
    (hidentifier : identifier.Is .identifier) (hequals : equals.Is .equals)
    (hsource : Printable source) : Printable (.assignment identifier equals source)
  | call {identifier openParen : Token} {arguments : List Expression} {closeParen : Token}
    (hidentifier : identifier.Is .identifier) (hopen : openParen.Is .openParen)
    (harguments : ∀ e ∈ arguments, Printable e) (hclose : closeParen.Is .closeParen) :
    Printable (.call identifier openParen arguments closeParen)

end Expression

mutual

def Expression.depth : Expression → Nat
  | .literal _ _ | .name _ => 0
  | .unary _ operand => operand.depth + 1
  | .binary left _ right => max left.depth (left.joints + 1 + right.depth)
  | .parenthesized _ inner _ => inner.depth + 1
  | .assignment _ _ source => source.depth + 1
  | .call _ _ arguments _ => Expression.depthAll arguments

def Expression.depthAll : List Expression → Nat
  | [] => 0
  | e :: rest => max (e.depth + 1) (Expression.depthAll rest)

end

mutual

def Statement.nesting : Statement → Nat
  | .block _ statements _ => Statement.nestingAll statements + 1
  | .declaration _ _ _ _ initializer => initializer.depth + 2
  | .ifThen _ condition thenStatement => max (condition.depth + 1) thenStatement.nesting + 1
  | .ifThenElse _ condition thenStatement _ elseStatement =>
    max (condition.depth + 1) (max thenStatement.nesting elseStatement.nesting) + 1
  | .whileLoop _ condition body => max (condition.depth + 1) body.nesting + 1
  | .forLoop _ _ _ lower _ upper body =>
    max (max lower.depth upper.depth + 1) body.nesting + 1
  | .expression inner => inner.depth + 2

def Statement.nestingAll : List Statement → Nat
  | [] => 0
  | s :: rest => max s.nesting (Statement.nestingAll rest)

end

namespace Statement

/-- Statements of printable expressions, in which blocks are governed and no expression that is a
statement begins with a parenthesis or a sign. -/
inductive Printable : Statement → Prop where
  | block {openBrace : Token} {statements : List Statement} {closeBrace : Token}
    (hopen : openBrace.Is .openBrace) (hstatements : ∀ s ∈ statements, Printable s)
    (hclose : closeBrace.Is .closeBrace) : Printable (.block openBrace statements closeBrace)
  | declaration {keyword identifier : Token} {clause : Option TypeClause} {equals : Token}
    {initializer : Expression} (hkeyword : keyword.Is .letKeyword ∨ keyword.Is .varKeyword)
    (hidentifier : identifier.Is .identifier)
    (hclause : ∀ c ∈ clause, c.colon.Is .colon ∧ c.identifier.Is .identifier)
    (hequals : equals.Is .equals) (hinitializer : initializer.Printable) :
    Printable (.declaration keyword identifier clause equals initializer)
  | ifThen {ifKeyword : Token} {condition : Expression} {thenStatement : Statement}
    (hif : ifKeyword.Is .ifKeyword) (hcondition : condition.Printable)
    (hthen : Printable thenStatement) (hblock : thenStatement.kind = .blockStatement) :
    Printable (.ifThen ifKeyword condition thenStatement)
  | ifThenElse {ifKeyword : Token} {condition : Expression} {thenStatement : Statement}
    {elseKeyword : Token} {elseStatement : Statement}
    (hif : ifKeyword.Is .ifKeyword) (hcondition : condition.Printable)
    (hthen : Printable thenStatement) (hblock : thenStatement.kind = .blockStatement)
    (hkeyword : elseKeyword.Is .elseKeyword) (helse : Printable elseStatement)
    (hblock' : elseStatement.kind = .blockStatement) :
    Printable (.ifThenElse ifKeyword condition thenStatement elseKeyword elseStatement)
  | whileLoop {whileKeyword : Token} {condition : Expression} {body : Statement}
    (hwhile : whileKeyword.Is .whileKeyword) (hcondition : condition.Printable)
    (hbody : Printable body) (hblock : body.kind = .blockStatement) :
    Printable (.whileLoop whileKeyword condition body)
  | forLoop {forKeyword identifier equals : Token} {lower : Expression} {toKeyword : Token}
    {upper : Expression} {body : Statement}
    (hfor : forKeyword.Is .forKeyword) (hidentifier : identifier.Is .identifier)
    (hequals : equals.Is .equals) (hlower : lower.Printable) (hto : toKeyword.Is .toKeyword)
    (hupper : upper.Printable) (hbody : Printable body)
    (hblock : body.kind = .blockStatement) :
    Printable (.forLoop forKeyword identifier equals lower toKeyword upper body)
  | expression {inner : Expression} (hinner : inner.Printable)
    (hhead : ∀ t ∈ inner.printed.head?,
      t.kind ≠ .openParen ∧ t.kind ≠ .plus ∧ t.kind ≠ .minus) :
    Printable (.expression inner)

end Statement

structure Tree.Printable (tree : Tree) : Prop where
  statement : tree.statement.Printable
  nesting : tree.statement.nesting ≤ nestingLimit
  endOfFile : tree.endOfFile.kind = .endOfFile ∧ tree.endOfFile.text = ""

end ScalarScript
