import ScalarScript.Token.Precedence

set_option autoImplicit false

namespace ScalarScript

inductive NodeKind where
  | compilationUnit
  | typeClause
  | elseClause
  | blockStatement
  | variableDeclaration
  | ifStatement
  | whileStatement
  | forStatement
  | expressionStatement
  | literalExpression
  | nameExpression
  | unaryExpression
  | binaryExpression
  | parenthesizedExpression
  | assignmentExpression
  | callExpression
  deriving DecidableEq, Repr

namespace NodeKind

def all : List NodeKind :=
  [.compilationUnit, .typeClause, .elseClause, .blockStatement, .variableDeclaration, .ifStatement,
    .whileStatement, .forStatement, .expressionStatement, .literalExpression, .nameExpression,
    .unaryExpression, .binaryExpression, .parenthesizedExpression, .assignmentExpression,
    .callExpression]

def name : NodeKind → String
  | .compilationUnit => "CompilationUnit"
  | .typeClause => "TypeClause"
  | .elseClause => "ElseClause"
  | .blockStatement => "BlockStatement"
  | .variableDeclaration => "VariableDeclaration"
  | .ifStatement => "IfStatement"
  | .whileStatement => "WhileStatement"
  | .forStatement => "ForStatement"
  | .expressionStatement => "ExpressionStatement"
  | .literalExpression => "LiteralExpression"
  | .nameExpression => "NameExpression"
  | .unaryExpression => "UnaryExpression"
  | .binaryExpression => "BinaryExpression"
  | .parenthesizedExpression => "ParenthesizedExpression"
  | .assignmentExpression => "AssignmentExpression"
  | .callExpression => "CallExpression"

theorem mem_all (kind : NodeKind) : kind ∈ all := by cases kind <;> decide

end NodeKind

inductive PartKind where
  | token (kind : TokenKind)
  | node (kind : NodeKind)
  deriving DecidableEq, Repr

namespace PartKind

def all : List PartKind := TokenKind.all.map .token ++ NodeKind.all.map .node

def name : PartKind → String
  | .token kind => kind.name
  | .node kind => kind.name

def ofName? (name : String) : Option PartKind := all.find? fun kind => kind.name == name

def token? : PartKind → Option TokenKind
  | .token kind => some kind
  | .node _ => none

def isToken (kind : PartKind) : Bool := kind.token?.isSome

def isKeyword (kind : PartKind) : Bool := kind.token?.any TokenKind.isKeyword

def keywordText? (kind : PartKind) : Option String := kind.token?.bind TokenKind.keywordText?

def punctuationText? (kind : PartKind) : Option String :=
  kind.token?.bind TokenKind.punctuationText?

def text? (kind : PartKind) : Option String := kind.token?.bind TokenKind.text?

def binaryPrecedence? (kind : PartKind) : Option Precedence :=
  kind.token?.bind TokenKind.binaryPrecedence?

def unaryPrecedence? (kind : PartKind) : Option Precedence :=
  kind.token?.bind TokenKind.unaryPrecedence?

end PartKind

end ScalarScript
