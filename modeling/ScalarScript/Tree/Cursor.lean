import ScalarScript.Tree.Basic
import ScalarScript.Token.Lexeme

set_option autoImplicit false

namespace ScalarScript

structure Cursor where
  ahead : List Lexeme
  endOfFile : Lexeme
  abandoned : Bool
  diagnostics : List Diagnostic
  deriving DecidableEq, Repr

abbrev Reader (α : Type) := StateM Cursor α

namespace Cursor

/-- At the first of a fragment's lexemes, of which the end of the file is the last. Separators are
left out. -/
def ofLexemes (lexemes : List Lexeme) : Cursor :=
  ⟨lexemes.dropLast.filter fun l => !l.isSeparator,
    lexemes.getLast?.getD (.endOfFile 0), false, []⟩

def peek (c : Cursor) (k : Nat) : Lexeme := c.ahead[k]?.getD c.endOfFile

def current (c : Cursor) : Lexeme := c.peek 0

def kind (c : Cursor) : TokenKind := c.current.token.kind

def advance (c : Cursor) : Cursor := { c with ahead := c.ahead.drop 1 }

def report (c : Cursor) (d : Diagnostic) : Cursor := { c with diagnostics := c.diagnostics ++ [d] }

end Cursor

namespace Reader

def kind : Reader TokenKind := do return (← get).kind

def take : Reader Lexeme := do
  let lexeme := (← get).current
  modify Cursor.advance
  return lexeme

/-- Takes the next token if it is of this kind. Otherwise puts in a missing one, and notes what
stands there instead unless reading has been given up. -/
def expect (kind : TokenKind) : Reader Token := do
  let c ← get
  let token := c.current.token
  if token.kind = kind then
    modify Cursor.advance
    return token
  if !c.abandoned then
    modify (·.report ⟨token.span, .unexpectedToken token.kind.name kind.name⟩)
  return .missing kind token.span.start

def abandon (limit : Nat) : Reader Unit :=
  modify fun c =>
    if c.abandoned then c
    else
      { c.report ⟨c.current.token.span, .nestingTooDeep limit⟩ with ahead := [], abandoned := true }

def missingExpression : Reader Expression := do
  return .name (.missing .identifier (← get).current.token.span.start)

end Reader

end ScalarScript
