import ScalarScript.Tree.Cursor

/-!
The grammar of fragments. A statement is a block, a declaration, a conditional, a loop or an
expression; an expression is an assignment or operands joined by operators. Statements, expressions
and operators nest at most `nestingLimit` levels deep. The readers for each level are made from
those of the level below, so that reading ends on every text.

Each level counts what stands inside a statement, an expression, an operand behind its operator, and
each further operator of a chain.
-/

set_option autoImplicit false

namespace ScalarScript

def nestingLimit : Nat := 200

structure Level where
  statement : Reader Statement
  expression : Reader Expression
  /-- An operand and the operators after it that bind tighter than `least`. -/
  operation (least : Precedence) : Reader Expression
  /-- The operators that bind tighter than `least` and follow `left`, with their right operands. -/
  chain (least : Precedence) (left : Expression) : Reader Expression

namespace Grammar

open Reader

def operatorAbove? (least : Precedence) (kind : TokenKind) : Option Precedence :=
  match kind.binaryPrecedence? with
  | some p => if least.level < p.level then some p else none
  | none => none

def parenthesized (expression : Reader Expression) : Reader Expression := do
  let openParen ← expect .openParen
  let inner ← expression
  return .parenthesized openParen inner (← expect .closeParen)

def booleanLiteral : Reader Expression := do
  let token := (← take).token
  return .literal token (.bool (token.kind == .trueKeyword))

def literal : Reader Expression := do
  let lexeme ← take
  let fallback := if lexeme.token.kind = .string then Value.string "" else Value.int 0
  return .literal lexeme.token (lexeme.value.getD fallback)

/-- Expressions up to the closing parenthesis, with a comma before each one but the first; no more
than there are lexemes left. -/
def argumentsWithin (expression : Reader Expression) : Nat → Reader (List Expression)
  | 0 => return []
  | fuel + 1 => do
    let kind ← kind
    if kind = .closeParen ∨ kind = .endOfFile then return []
    let argument ← expression
    if (← Reader.kind) ≠ .comma then return [argument]
    let _ ← take
    return argument :: (← argumentsWithin expression fuel)

def call (expression : Reader Expression) : Reader Expression := do
  let identifier ← expect .identifier
  let openParen ← expect .openParen
  let arguments ← argumentsWithin expression (← get).ahead.length
  return .call identifier openParen arguments (← expect .closeParen)

/-- An operand without an operator in front of it. What can be none is read as a missing name. -/
def primary (expression : Reader Expression) : Reader Expression := do
  let c ← get
  match c.kind with
  | .openParen => parenthesized expression
  | .trueKeyword | .falseKeyword => booleanLiteral
  | .number | .string => literal
  | .identifier =>
    if (c.peek 1).token.kind = .openParen then call expression
    else return .name (← expect .identifier)
  | _ => return .name (← expect .identifier)

def expression (below : Level) : Reader Expression := do
  let c ← get
  if c.kind = .identifier ∧ (c.peek 1).token.kind = .equals then
    let identifier := (← take).token
    let equals := (← take).token
    return .assignment identifier equals (← below.expression)
  below.operation .lowest

def operand (below : Level) : Reader Expression := do
  match (← kind).unaryPrecedence? with
  | some p =>
    let operator := (← take).token
    return .unary operator (← below.operation p)
  | none => primary (expression below)

def chain (below : Level) (least : Precedence) (left : Expression) : Reader Expression := do
  match operatorAbove? least (← kind) with
  | none => return left
  | some p =>
    let operator := (← take).token
    let right ← below.operation p
    below.chain least (.binary left operator right)

def operation (below : Level) (least : Precedence) : Reader Expression := do
  chain below least (← operand below)

/-- Statements up to the closing brace; no more than there are lexemes left. A statement for which
nothing was read is followed by leaving out the next lexeme. -/
def statementsWithin (statement : Reader Statement) : Nat → Reader (List Statement)
  | 0 => return []
  | fuel + 1 => do
    let kind ← kind
    if kind = .endOfFile ∨ kind = .closeBrace then return []
    let before := (← get).ahead.length
    let first ← statement
    if (← get).ahead.length = before then modify Cursor.advance
    return first :: (← statementsWithin statement fuel)

def block (below : Level) : Reader Statement := do
  let openBrace ← expect .openBrace
  let statements ← statementsWithin below.statement (← get).ahead.length
  return .block openBrace statements (← expect .closeBrace)

def typeClause : Reader (Option TypeClause) := do
  if (← kind) ≠ .colon then return none
  let colon ← expect .colon
  return some ⟨colon, ← expect .identifier⟩

def declaration (below : Level) (keyword : TokenKind) : Reader Statement := do
  let keyword ← expect keyword
  let identifier ← expect .identifier
  let typeClause ← typeClause
  let equals ← expect .equals
  return .declaration keyword identifier typeClause equals (← below.expression)

def conditional (below : Level) : Reader Statement := do
  let ifKeyword ← expect .ifKeyword
  let condition ← below.expression
  let thenStatement ← below.statement
  if (← kind) ≠ .elseKeyword then return .ifThen ifKeyword condition thenStatement
  let elseKeyword ← expect .elseKeyword
  return .ifThenElse ifKeyword condition thenStatement elseKeyword (← below.statement)

def whileLoop (below : Level) : Reader Statement := do
  let whileKeyword ← expect .whileKeyword
  let condition ← below.expression
  return .whileLoop whileKeyword condition (← below.statement)

def forLoop (below : Level) : Reader Statement := do
  let forKeyword ← expect .forKeyword
  let identifier ← expect .identifier
  let equals ← expect .equals
  let lower ← below.expression
  let toKeyword ← expect .toKeyword
  let upper ← below.expression
  return .forLoop forKeyword identifier equals lower toKeyword upper (← below.statement)

/-- A statement, told by its first token; what begins no other statement is an expression. -/
def statement (below : Level) : Reader Statement := do
  match ← kind with
  | .openBrace => block below
  | .letKeyword => declaration below .letKeyword
  | .varKeyword => declaration below .varKeyword
  | .ifKeyword => conditional below
  | .whileKeyword => whileLoop below
  | .forKeyword => forLoop below
  | _ => return .expression (← below.expression)

def tooDeep : Reader Expression := do
  abandon nestingLimit
  missingExpression

end Grammar

namespace Level

open Grammar

/-- Where nothing may be nested deeper. An operand without operators still can be read. -/
def bottom : Level where
  statement := return .expression (← tooDeep)
  expression := tooDeep
  operation least := do
    let left ←
      if (← Reader.kind).unaryPrecedence?.isSome then tooDeep else primary tooDeep
    bottomChain least left
  chain := bottomChain
where
  bottomChain (least : Precedence) (left : Expression) : Reader Expression := do
    if (operatorAbove? least (← Reader.kind)).isSome then Reader.abandon nestingLimit
    return left

def above (below : Level) : Level where
  statement := Grammar.statement below
  expression := Grammar.expression below
  operation := Grammar.operation below
  chain := Grammar.chain below

def ofDepth : Nat → Level
  | 0 => bottom
  | n + 1 => above (ofDepth n)

end Level

namespace Grammar

def tree : Reader Tree := do
  let statement ← (Level.ofDepth nestingLimit).statement
  return ⟨statement, ← Reader.expect .endOfFile⟩

end Grammar

/-- A text as it was read: its tree, and what is wrong with its lexemes, then with their order. -/
structure Fragment where
  text : String
  tree : Tree
  diagnostics : List Diagnostic

namespace Fragment

def ofText (text : String) : Fragment :=
  let lexemes := Lexeme.ofText text
  let (tree, cursor) := Grammar.tree.run (Cursor.ofLexemes lexemes)
  ⟨text, tree, Lexeme.diagnostics lexemes ++ cursor.diagnostics⟩

def hasErrors (fragment : Fragment) : Bool := !fragment.diagnostics.isEmpty

end Fragment

end ScalarScript
