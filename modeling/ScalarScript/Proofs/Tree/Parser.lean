import ScalarScript.Tree.Grammar

/-!
Reading with a position and a count of levels. The readers of the grammar are made level by level
and are given no more rounds than there are lexemes; here nothing keeps a run from calling deeper
and deeper, from looking past the last token or from leaving more levels than were entered. The
tokens stay where they are and a position goes over them, one count says how deep the code is
nested, and the functions call one another, as far as the stack allows. What matters about a run is
noted on the way: each look at a token, each change of the position or the count, each return of a
function and each round of a loop.
-/

set_option autoImplicit false

namespace ScalarScript

inductive Panic where
  | indexOutOfBounds
  | subtractionOverflow
  | stackOverflow
  deriving DecidableEq, Repr

inductive Event where
  | moves (position depth : Nat)
  | peeks (index : Nat)
  | returns (entered left : Nat)
  | round (before after : Nat) (last : Bool)
  deriving DecidableEq, Repr

structure Parser where
  tokens : List Lexeme
  position : Nat
  depth : Nat
  abandoned : Bool
  diagnostics : List Diagnostic
  events : List Event
  deriving DecidableEq, Repr

abbrev Parsing (α : Type) := StateT Parser (Except Panic) α

namespace Parser

def ofTokens (tokens : List Lexeme) : Parser := ⟨tokens, 0, 0, false, [], []⟩

def ofText (text : String) : Parser :=
  ofTokens ((Lexeme.ofText text).filter fun l => !l.isSeparator)

def moved (p : Parser) (position depth : Nat) : Parser :=
  { p with
    position := position, depth := depth, events := p.events ++ [.moves position depth] }

end Parser

namespace Parsing

def note (e : Event) : Parsing Unit := modify fun p => { p with events := p.events ++ [e] }

def report (d : Diagnostic) : Parsing Unit :=
  modify fun p => { p with diagnostics := p.diagnostics ++ [d] }

def peek (offset : Nat) : Parsing Lexeme := do
  let p ← get
  if p.tokens.length = 0 then throw .subtractionOverflow
  let index := min (p.position + offset) (p.tokens.length - 1)
  note (.peeks index)
  match p.tokens[index]? with
  | some lexeme => return lexeme
  | none => throw .indexOutOfBounds

def kind : Parsing TokenKind := do return (← peek 0).token.kind

/-- Takes the next token; behind the last one the position stays. -/
def next : Parsing Lexeme := do
  let lexeme ← peek 0
  modify fun p => if p.position < p.tokens.length then p.moved (p.position + 1) p.depth else p
  return lexeme

def expect (kind : TokenKind) : Parsing Token := do
  if (← Parsing.kind) = kind then return (← next).token
  let token := (← peek 0).token
  if !(← get).abandoned then report ⟨token.span, .unexpectedToken token.kind.name kind.name⟩
  return .missing kind token.span.start

/-- Enters a level, if there is one left. Else that is reported once, and nothing but the last token
is left to be read. -/
def enter : Parsing Bool := do
  let p ← get
  if p.depth < nestingLimit then
    set (p.moved p.position (p.depth + 1))
    return true
  if !p.abandoned then
    report ⟨(← peek 0).token.span, .nestingTooDeep nestingLimit⟩
    modify fun p => { p.moved (p.tokens.length - 1) p.depth with abandoned := true }
  return false

def leave : Parsing Unit := do
  if (← get).depth = 0 then throw .subtractionOverflow
  modify fun p => p.moved p.position (p.depth - 1)

def restore (depth : Nat) : Parsing Unit := modify fun p => p.moved p.position depth

/-- Notes the count before and after what a function does. -/
def tracked {α : Type} (body : Parsing α) : Parsing α := do
  let entered := (← get).depth
  let result ← body
  note (.returns entered (← get).depth)
  return result

def noteRound (before : Nat) (last : Bool) : Parsing Unit := do
  note (.round before (← get).position last)

def skipAt (position : Nat) : Parsing Unit := do
  if (← get).position = position then
    let _ ← next

def missingExpression : Parsing Expression := do
  return .name (.missing .identifier (← peek 0).token.span.start)

def typeClause : Parsing (Option TypeClause) := tracked do
  if (← kind) ≠ .colon then return none
  let colon ← expect .colon
  return some ⟨colon, ← expect .identifier⟩

def booleanLiteral : Parsing Expression := tracked do
  let token := (← next).token
  return .literal token (.bool (token.kind == .trueKeyword))

def literal : Parsing Expression := tracked do
  let lexeme ← next
  let fallback := if lexeme.token.kind = .string then Value.string "" else Value.int 0
  return .literal lexeme.token (lexeme.value.getD fallback)

def name : Parsing Expression := tracked do return .name (← expect .identifier)

def isAssignment : Parsing Bool := do
  if (← kind) ≠ .identifier then return false
  return (← peek 1).token.kind = .equals

mutual

def expression : Nat → Parsing Expression
  | 0 => throw .stackOverflow
  | calls + 1 => tracked do
    if !(← enter) then return (← missingExpression)
    let expression ← assignment calls
    leave
    return expression

def assignment : Nat → Parsing Expression
  | 0 => throw .stackOverflow
  | calls + 1 => tracked do
    if ← isAssignment then
      let identifier := (← next).token
      let equals := (← next).token
      return .assignment identifier equals (← expression calls)
    operation calls .lowest

def operation : Nat → Precedence → Parsing Expression
  | 0, _ => throw .stackOverflow
  | calls + 1, least => tracked do
    let left ← operand calls least
    let depth := (← get).depth
    let whole ← operators calls least left
    restore depth
    return whole

/-- The rounds over the operators that bind tighter than `least` and follow `left`. Each of them
enters a level. -/
def operators : Nat → Precedence → Expression → Parsing Expression
  | 0, _, _ => throw .stackOverflow
  | calls + 1, least, left => do
    let before := (← get).position
    match Grammar.operatorAbove? least (← kind) with
    | none =>
      noteRound before true
      return left
    | some precedence =>
      if !(← enter) then
        noteRound before true
        return left
      let operator := (← next).token
      let right ← operation calls precedence
      noteRound before false
      operators calls least (.binary left operator right)

def operand : Nat → Precedence → Parsing Expression
  | 0, _ => throw .stackOverflow
  | calls + 1, least => tracked do
    match (← kind).unaryPrecedence? with
    | none => primary calls
    | some precedence =>
      if precedence.level < least.level then return (← primary calls)
      if !(← enter) then return (← missingExpression)
      let operator := (← next).token
      let operand ← operation calls precedence
      leave
      return .unary operator operand

def primary : Nat → Parsing Expression
  | 0 => throw .stackOverflow
  | calls + 1 => tracked do
    match ← kind with
    | .openParen => parenthesized calls
    | .trueKeyword | .falseKeyword => booleanLiteral
    | .number | .string => literal
    | .identifier => if (← peek 1).token.kind = .openParen then call calls else name
    | _ => name

def parenthesized : Nat → Parsing Expression
  | 0 => throw .stackOverflow
  | calls + 1 => tracked do
    let openParen ← expect .openParen
    let inner ← expression calls
    return .parenthesized openParen inner (← expect .closeParen)

def call : Nat → Parsing Expression
  | 0 => throw .stackOverflow
  | calls + 1 => tracked do
    let identifier ← expect .identifier
    let openParen ← expect .openParen
    let arguments ← tracked (arguments calls)
    return .call identifier openParen arguments (← expect .closeParen)

def arguments : Nat → Parsing (List Expression)
  | 0 => throw .stackOverflow
  | calls + 1 => do
    let kind ← kind
    if kind = .closeParen ∨ kind = .endOfFile then return []
    let before := (← get).position
    let argument ← expression calls
    if (← Parsing.kind) ≠ .comma then
      noteRound before true
      return [argument]
    let _ ← next
    noteRound before false
    return argument :: (← arguments calls)

end

def declaration (calls : Nat) : Parsing Statement := tracked do
  let keyword ← expect (if (← kind) = .letKeyword then .letKeyword else .varKeyword)
  let identifier ← expect .identifier
  let typeClause ← typeClause
  let equals ← expect .equals
  return .declaration keyword identifier typeClause equals (← expression calls)

def expressionStatement (calls : Nat) : Parsing Statement :=
  tracked do return .expression (← expression calls)

mutual

def statement : Nat → Parsing Statement
  | 0 => throw .stackOverflow
  | calls + 1 => tracked do
    if !(← enter) then return .expression (← missingExpression)
    let statement ← begunStatement calls
    leave
    return statement

def begunStatement : Nat → Parsing Statement
  | 0 => throw .stackOverflow
  | calls + 1 => do
    match ← kind with
    | .openBrace => block calls
    | .letKeyword | .varKeyword => declaration calls
    | .ifKeyword => conditional calls
    | .whileKeyword => whileLoop calls
    | .forKeyword => forLoop calls
    | _ => expressionStatement calls

def block : Nat → Parsing Statement
  | 0 => throw .stackOverflow
  | calls + 1 => tracked do
    let openBrace ← expect .openBrace
    let statements ← statements calls
    return .block openBrace statements (← expect .closeBrace)

/-- The rounds over the statements of a block. After a statement for which nothing was taken, the
next token is left out. -/
def statements : Nat → Parsing (List Statement)
  | 0 => throw .stackOverflow
  | calls + 1 => do
    let kind ← kind
    if kind = .endOfFile ∨ kind = .closeBrace then return []
    let before := (← get).position
    let first ← statement calls
    skipAt before
    noteRound before false
    return first :: (← statements calls)

def conditional : Nat → Parsing Statement
  | 0 => throw .stackOverflow
  | calls + 1 => tracked do
    let ifKeyword ← expect .ifKeyword
    let condition ← expression calls
    let thenStatement ← statement calls
    match ← elseClause calls with
    | none => return .ifThen ifKeyword condition thenStatement
    | some (keyword, other) => return .ifThenElse ifKeyword condition thenStatement keyword other

def elseClause : Nat → Parsing (Option (Token × Statement))
  | 0 => throw .stackOverflow
  | calls + 1 => tracked do
    if (← kind) ≠ .elseKeyword then return none
    let keyword ← expect .elseKeyword
    return some (keyword, ← statement calls)

def whileLoop : Nat → Parsing Statement
  | 0 => throw .stackOverflow
  | calls + 1 => tracked do
    let whileKeyword ← expect .whileKeyword
    let condition ← expression calls
    return .whileLoop whileKeyword condition (← statement calls)

def forLoop : Nat → Parsing Statement
  | 0 => throw .stackOverflow
  | calls + 1 => tracked do
    let forKeyword ← expect .forKeyword
    let identifier ← expect .identifier
    let equals ← expect .equals
    let lower ← expression calls
    let toKeyword ← expect .toKeyword
    let upper ← expression calls
    return .forLoop forKeyword identifier equals lower toKeyword upper (← statement calls)

end

def tree (calls : Nat) : Parsing Tree := tracked do
  let statement ← statement calls
  return ⟨statement, ← expect .endOfFile⟩

end Parsing

end ScalarScript
