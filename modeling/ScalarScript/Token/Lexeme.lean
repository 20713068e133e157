import ScalarScript.Token.Basic
import ScalarScript.Value
import ScalarScript.Diagnostic
import ScalarScript.Text.Blank
import ScalarScript.Text.CodePoints
import ScalarScript.Text.Decimal

/-!
Cutting a text into lexemes. At each place the longest token there is taken; what begins none is a
bad token of one character. A lexeme is a token with the value it denotes, if it is a number or a
text literal, and what is wrong with it, if something is. The last lexeme is the end of the file.
-/

set_option autoImplicit false

namespace ScalarScript

open Text

structure Lexeme where
  token : Token
  value : Option Value
  diagnostic : Option Diagnostic
  deriving DecidableEq, Repr

/-- The token at the head of a text: its kind, its characters, the value it denotes, its fault and
the text after it. -/
structure Munch where
  kind : TokenKind
  taken : List Char
  value : Option Value
  fault : Option Fault
  rest : List Char
  deriving DecidableEq, Repr

namespace Munch

def plain (kind : TokenKind) (taken rest : List Char) : Munch := ⟨kind, taken, none, none, rest⟩

def bad (c : Char) (rest : List Char) : Munch :=
  ⟨.bad, [c], none, some (.badCharacter c), rest⟩

def withEquals (alone followed : TokenKind) (c : Char) : List Char → Munch
  | '=' :: rest => plain followed [c, '='] rest
  | rest => plain alone [c] rest

def doubled (kind : TokenKind) (c : Char) : List Char → Munch
  | [] => bad c []
  | d :: rest => if d = c then plain kind [c, c] rest else bad c (d :: rest)

/-- What follows the opening quote of a text literal: the characters up to and with the closing
quote, the text they denote, whether there is a closing quote, and the text after them. -/
structure Body where
  taken : List Char
  content : List Char
  closed : Bool
  rest : List Char
  deriving DecidableEq, Repr

/-- Two quotes denote one; a single quote closes; the end of the line leaves the literal open. -/
def body : List Char → Body
  | [] => ⟨[], [], false, []⟩
  | '"' :: '"' :: rest =>
    let b := body rest
    ⟨'"' :: '"' :: b.taken, '"' :: b.content, b.closed, b.rest⟩
  | c :: rest =>
    if c = '"' then ⟨['"'], [], true, rest⟩
    else if c = '\r' ∨ c = '\n' then ⟨[], [], false, c :: rest⟩
    else
      let b := body rest
      ⟨c :: b.taken, c :: b.content, b.closed, b.rest⟩

def string (rest : List Char) : Munch :=
  let b := body rest
  ⟨.string, '"' :: b.taken, some (.string (String.ofList b.content)),
    if b.closed then none else some .unterminatedString, b.rest⟩

/-- A number; one that does not fit into 64 bits with sign counts as zero. -/
def number (c : Char) (rest : List Char) : Munch :=
  let digits := c :: rest.takeWhile isDigit
  let rest := rest.dropWhile isDigit
  match int64OfNumeral? digits with
  | some n => ⟨.number, digits, some (.int n), none, rest⟩
  | none =>
    ⟨.number, digits, some (.int 0), some (.invalidNumber (String.ofList digits) "int"), rest⟩

def word (c : Char) (rest : List Char) : Munch :=
  let letters := c :: rest.takeWhile isIdentifierPart
  plain ((TokenKind.ofKeyword? (String.ofList letters)).getD .identifier) letters
    (rest.dropWhile isIdentifierPart)

def whitespace (c : Char) (rest : List Char) : Munch :=
  plain .whitespace (c :: rest.takeWhile isBlank) (rest.dropWhile isBlank)

def single? : Char → Option TokenKind
  | '(' => some .openParen
  | ')' => some .closeParen
  | '{' => some .openBrace
  | '}' => some .closeBrace
  | ',' => some .comma
  | ':' => some .colon
  | '+' => some .plus
  | '-' => some .minus
  | '*' => some .asterisk
  | '/' => some .slash
  | _ => none

def ofText (c : Char) (rest : List Char) : Munch :=
  match single? c with
  | some kind => plain kind [c] rest
  | none =>
    if c = '=' then withEquals .equals .equalsEquals c rest
    else if c = '!' then withEquals .exclamation .exclamationEquals c rest
    else if c = '<' then withEquals .lessThan .lessThanEquals c rest
    else if c = '>' then withEquals .greaterThan .greaterThanEquals c rest
    else if c = '&' then doubled .ampersandAmpersand c rest
    else if c = '|' then doubled .barBar c rest
    else if c = '"' then string rest
    else if isDigit c then number c rest
    else if isBlank c then whitespace c rest
    else if isIdentifierStart c then word c rest
    else bad c rest

/-- Where a fault of a token at `position` is: a text literal left open is marked at its opening
quote, every other faulty token as a whole. -/
def faultSpan (position length : Nat) : Fault → Span
  | .unterminatedString => ⟨position, 1⟩
  | _ => ⟨position, length⟩

def lexeme (m : Munch) (position : Nat) : Lexeme :=
  let length := byteLength m.taken
  ⟨⟨m.kind, ⟨position, length⟩, String.ofList m.taken⟩, m.value,
    m.fault.map fun fault => ⟨faultSpan position length fault, fault⟩⟩

end Munch

structure Scanner where
  position : Nat
  rest : List Char
  deriving DecidableEq, Repr

namespace Lexeme

def endOfFile (position : Nat) : Lexeme := ⟨⟨.endOfFile, .emptyAt position, ""⟩, none, none⟩

def isSeparator (l : Lexeme) : Bool := l.token.kind.isSeparator

def diagnostics (lexemes : List Lexeme) : List Diagnostic := lexemes.filterMap Lexeme.diagnostic

end Lexeme

namespace Scanner

def ofText (text : String) : Scanner := ⟨0, text.toList⟩

/-- The lexeme at the scanner's place, and the scanner just after it. At the end of the text it is
the end of the file, as often as it is asked for. -/
def next (s : Scanner) : Lexeme × Scanner :=
  match s.rest with
  | [] => (.endOfFile s.position, s)
  | c :: rest =>
    let m := Munch.ofText c rest
    (m.lexeme s.position, ⟨s.position + byteLength m.taken, m.rest⟩)

def take : Nat → Scanner → List Lexeme
  | 0, _ => []
  | n + 1, s => s.next.1 :: take n s.next.2

/-- All lexemes up to and with the end of the file, of a text of at most `fuel` characters. -/
def lexemesWithin : Nat → Scanner → List Lexeme
  | 0, s => [.endOfFile s.position]
  | fuel + 1, s =>
    if s.rest.isEmpty then [.endOfFile s.position]
    else s.next.1 :: lexemesWithin fuel s.next.2

def lexemes (s : Scanner) : List Lexeme := s.lexemesWithin s.rest.length

end Scanner

def Lexeme.ofText (text : String) : List Lexeme := (Scanner.ofText text).lexemes

end ScalarScript
