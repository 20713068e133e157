import ScalarScript.Text.Span
import ScalarScript.Text.Template

/-!
What can be wrong with a fragment before it runs. A fault is a cause with the words it speaks of;
its kind, its number and its message follow from it. A diagnostic is a fault and its place.
-/

set_option autoImplicit false

namespace ScalarScript

/-- The kinds of fault: first those found in reading a fragment, then those found in its meaning. -/
inductive FaultKind where
  | badCharacter
  | unterminatedString
  | invalidNumber
  | unexpectedToken
  | nestingTooDeep
  | undefinedName
  | variableAlreadyDeclared
  | cannotAssign
  | cannotConvert
  | undefinedOperator
  | undefinedFunction
  | wrongArgumentCount
  | wrongArgumentType
  | expressionMustHaveValue
  deriving DecidableEq, Repr

namespace FaultKind

def name : FaultKind → String
  | .badCharacter => "BadCharacter"
  | .unterminatedString => "UnterminatedString"
  | .invalidNumber => "InvalidNumber"
  | .unexpectedToken => "UnexpectedToken"
  | .nestingTooDeep => "NestingTooDeep"
  | .undefinedName => "UndefinedName"
  | .variableAlreadyDeclared => "VariableAlreadyDeclared"
  | .cannotAssign => "CannotAssign"
  | .cannotConvert => "CannotConvert"
  | .undefinedOperator => "UndefinedOperator"
  | .undefinedFunction => "UndefinedFunction"
  | .wrongArgumentCount => "WrongArgumentCount"
  | .wrongArgumentType => "WrongArgumentType"
  | .expressionMustHaveValue => "ExpressionMustHaveValue"

def isSyntactic : FaultKind → Bool
  | .badCharacter | .unterminatedString | .invalidNumber | .unexpectedToken | .nestingTooDeep =>
    true
  | _ => false

end FaultKind

inductive Fault where
  | badCharacter (character : Char)
  | unterminatedString
  | invalidNumber (text type : String)
  | unexpectedToken (actual expected : String)
  | nestingTooDeep (limit : Nat)
  | undefinedName (name : String)
  | variableAlreadyDeclared (name : String)
  | cannotAssign (name : String)
  | cannotConvert (source target : String)
  | undefinedUnaryOperator (operator operand : String)
  | undefinedBinaryOperator (operator left right : String)
  | undefinedFunction (name : String)
  | wrongArgumentCount (function : String) (expected actual : Nat)
  | wrongArgumentType (parameter expected actual : String)
  | expressionMustHaveValue
  deriving DecidableEq, Repr

namespace Fault

def kind : Fault → FaultKind
  | .badCharacter _ => .badCharacter
  | .unterminatedString => .unterminatedString
  | .invalidNumber _ _ => .invalidNumber
  | .unexpectedToken _ _ => .unexpectedToken
  | .nestingTooDeep _ => .nestingTooDeep
  | .undefinedName _ => .undefinedName
  | .variableAlreadyDeclared _ => .variableAlreadyDeclared
  | .cannotAssign _ => .cannotAssign
  | .cannotConvert _ _ => .cannotConvert
  | .undefinedUnaryOperator _ _ => .undefinedOperator
  | .undefinedBinaryOperator _ _ _ => .undefinedOperator
  | .undefinedFunction _ => .undefinedFunction
  | .wrongArgumentCount _ _ _ => .wrongArgumentCount
  | .wrongArgumentType _ _ _ => .wrongArgumentType
  | .expressionMustHaveValue => .expressionMustHaveValue

/-- The number users know a fault by: from 1001 for faults of reading, from 2001 for faults of
meaning. -/
def code : Fault → Nat
  | .badCharacter _ => 1001
  | .unterminatedString => 1002
  | .invalidNumber _ _ => 1003
  | .unexpectedToken _ _ => 1004
  | .nestingTooDeep _ => 1005
  | .undefinedName _ => 2001
  | .variableAlreadyDeclared _ => 2002
  | .cannotAssign _ => 2003
  | .cannotConvert _ _ => 2004
  | .undefinedUnaryOperator _ _ => 2005
  | .undefinedBinaryOperator _ _ _ => 2006
  | .undefinedFunction _ => 2007
  | .wrongArgumentCount _ _ _ => 2008
  | .wrongArgumentType _ _ _ => 2009
  | .expressionMustHaveValue => 2010

def template : Fault → String
  | .badCharacter _ => "Bad character input: '{0}'."
  | .unterminatedString => "Unterminated string literal."
  | .invalidNumber _ _ => "The number {0} isn't a valid {1}."
  | .unexpectedToken _ _ => "Unexpected token <{0}>, expected <{1}>."
  | .nestingTooDeep _ => "Code is nested more than {0} levels deep."
  | .undefinedName _ => "Variable '{0}' doesn't exist."
  | .variableAlreadyDeclared _ => "Variable '{0}' is already declared."
  | .cannotAssign _ => "Variable '{0}' is read-only and cannot be assigned to."
  | .cannotConvert _ _ => "Cannot convert type '{0}' to '{1}'."
  | .undefinedUnaryOperator _ _ => "Unary operator '{0}' is not defined for type '{1}'."
  | .undefinedBinaryOperator _ _ _ =>
    "Binary operator '{0}' is not defined for types '{1}' and '{2}'."
  | .undefinedFunction _ => "Function '{0}' doesn't exist."
  | .wrongArgumentCount _ _ _ => "Function '{0}' requires {1} arguments but was given {2}."
  | .wrongArgumentType _ _ _ =>
    "Parameter '{0}' requires a value of type '{1}' but was given a value of type '{2}'."
  | .expressionMustHaveValue => "Expression must have a value."

def arguments : Fault → List String
  | .badCharacter c => [String.singleton c]
  | .unterminatedString => []
  | .invalidNumber text type => [text, type]
  | .unexpectedToken actual expected => [actual, expected]
  | .nestingTooDeep limit => [toString limit]
  | .undefinedName name => [name]
  | .variableAlreadyDeclared name => [name]
  | .cannotAssign name => [name]
  | .cannotConvert source target => [source, target]
  | .undefinedUnaryOperator operator operand => [operator, operand]
  | .undefinedBinaryOperator operator left right => [operator, left, right]
  | .undefinedFunction name => [name]
  | .wrongArgumentCount function expected actual => [function, toString expected, toString actual]
  | .wrongArgumentType parameter expected actual => [parameter, expected, actual]
  | .expressionMustHaveValue => []

def message (fault : Fault) : String := Text.fill fault.template fault.arguments

end Fault

structure Diagnostic where
  span : Span
  fault : Fault
  deriving DecidableEq, Repr

namespace Diagnostic

def message (d : Diagnostic) : String := d.fault.message

def codeText (d : Diagnostic) : String := s!"MN{d.fault.code}"

def line (d : Diagnostic) : String := s!"error {d.codeText}: {d.message}"

def badCharacter (position : Nat) (c : Char) : Diagnostic :=
  ⟨⟨position, c.utf8Size⟩, .badCharacter c⟩

end Diagnostic

end ScalarScript
