import ScalarScript.Text.Span

set_option autoImplicit false

namespace ScalarScript

inductive TokenKind where
  | bad
  | endOfFile
  | whitespace
  | number
  | string
  | identifier
  | openBrace
  | closeBrace
  | openParen
  | closeParen
  | comma
  | colon
  | plus
  | minus
  | asterisk
  | slash
  | exclamation
  | equals
  | equalsEquals
  | exclamationEquals
  | lessThan
  | lessThanEquals
  | greaterThan
  | greaterThanEquals
  | ampersandAmpersand
  | barBar
  | elseKeyword
  | falseKeyword
  | forKeyword
  | ifKeyword
  | letKeyword
  | toKeyword
  | trueKeyword
  | varKeyword
  | whileKeyword
  deriving DecidableEq, Repr

namespace TokenKind

def all : List TokenKind :=
  [.bad, .endOfFile, .whitespace, .number, .string, .identifier, .openBrace, .closeBrace,
    .openParen, .closeParen, .comma, .colon, .plus, .minus, .asterisk, .slash, .exclamation,
    .equals, .equalsEquals, .exclamationEquals, .lessThan, .lessThanEquals, .greaterThan,
    .greaterThanEquals, .ampersandAmpersand, .barBar, .elseKeyword, .falseKeyword, .forKeyword,
    .ifKeyword, .letKeyword, .toKeyword, .trueKeyword, .varKeyword, .whileKeyword]

def name : TokenKind → String
  | .bad => "BadToken"
  | .endOfFile => "EndOfFileToken"
  | .whitespace => "WhitespaceTrivia"
  | .number => "NumericLiteral"
  | .string => "StringLiteral"
  | .identifier => "Identifier"
  | .openBrace => "OpenBraceToken"
  | .closeBrace => "CloseBraceToken"
  | .openParen => "OpenParenToken"
  | .closeParen => "CloseParenToken"
  | .comma => "CommaToken"
  | .colon => "ColonToken"
  | .plus => "PlusToken"
  | .minus => "MinusToken"
  | .asterisk => "AsteriskToken"
  | .slash => "SlashToken"
  | .exclamation => "ExclamationToken"
  | .equals => "EqualsToken"
  | .equalsEquals => "EqualsEqualsToken"
  | .exclamationEquals => "ExclamationEqualsToken"
  | .lessThan => "LessThanToken"
  | .lessThanEquals => "LessThanEqualsToken"
  | .greaterThan => "GreaterThanToken"
  | .greaterThanEquals => "GreaterThanEqualsToken"
  | .ampersandAmpersand => "AmpersandAmpersandToken"
  | .barBar => "BarBarToken"
  | .elseKeyword => "ElseKeyword"
  | .falseKeyword => "FalseKeyword"
  | .forKeyword => "ForKeyword"
  | .ifKeyword => "IfKeyword"
  | .letKeyword => "LetKeyword"
  | .toKeyword => "ToKeyword"
  | .trueKeyword => "TrueKeyword"
  | .varKeyword => "VarKeyword"
  | .whileKeyword => "WhileKeyword"

def keywordText? : TokenKind → Option String
  | .elseKeyword => some "else"
  | .falseKeyword => some "false"
  | .forKeyword => some "for"
  | .ifKeyword => some "if"
  | .letKeyword => some "let"
  | .toKeyword => some "to"
  | .trueKeyword => some "true"
  | .varKeyword => some "var"
  | .whileKeyword => some "while"
  | _ => none

def punctuationText? : TokenKind → Option String
  | .openBrace => some "\x7b"
  | .closeBrace => some "\x7d"
  | .openParen => some "("
  | .closeParen => some ")"
  | .comma => some ","
  | .colon => some ":"
  | .plus => some "+"
  | .minus => some "-"
  | .asterisk => some "*"
  | .slash => some "/"
  | .exclamation => some "!"
  | .equals => some "="
  | .equalsEquals => some "=="
  | .exclamationEquals => some "!="
  | .lessThan => some "<"
  | .lessThanEquals => some "<="
  | .greaterThan => some ">"
  | .greaterThanEquals => some ">="
  | .ampersandAmpersand => some "&&"
  | .barBar => some "||"
  | _ => none

def text? (kind : TokenKind) : Option String := kind.punctuationText?.or kind.keywordText?

def isKeyword (kind : TokenKind) : Bool := kind.keywordText?.isSome

def ofKeyword? : String → Option TokenKind
  | "else" => some .elseKeyword
  | "false" => some .falseKeyword
  | "for" => some .forKeyword
  | "if" => some .ifKeyword
  | "let" => some .letKeyword
  | "to" => some .toKeyword
  | "true" => some .trueKeyword
  | "var" => some .varKeyword
  | "while" => some .whileKeyword
  | _ => none

def isSeparator : TokenKind → Bool
  | .whitespace | .bad => true
  | _ => false

theorem mem_all (kind : TokenKind) : kind ∈ all := by cases kind <;> decide

theorem ofKeyword?_keywordText {kind : TokenKind} {word : String}
    (h : kind.keywordText? = some word) : ofKeyword? word = some kind := by
  cases kind <;> simp [keywordText?] at h <;> subst h <;> rfl

end TokenKind

/-- A token with its place and the text it covers. A token put in where one was missing covers
nothing: its text is empty. -/
structure Token where
  kind : TokenKind
  span : Span
  text : String
  deriving DecidableEq, Repr

namespace Token

def missing (kind : TokenKind) (position : Nat) : Token := ⟨kind, .emptyAt position, ""⟩

def isMissing (t : Token) : Bool := t.text.isEmpty

@[simp] theorem isMissing_missing (kind : TokenKind) (position : Nat) :
    (missing kind position).isMissing = true := rfl

end Token

end ScalarScript
