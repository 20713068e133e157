import ScalarScript.Typing.Basic
import ScalarScript.Token.Basic

set_option autoImplicit false

namespace ScalarScript

inductive UnaryOperation where
  | identity
  | negation
  | logicalNegation
  deriving DecidableEq, Repr

def UnaryOperation.name : UnaryOperation → String
  | .identity => "Identity"
  | .negation => "Negation"
  | .logicalNegation => "LogicalNegation"

structure UnaryOperator where
  token : TokenKind
  operation : UnaryOperation
  operand : Ty
  deriving DecidableEq, Repr

namespace UnaryOperator

def result (op : UnaryOperator) : Ty := op.operand

def find? (token : TokenKind) (operand : Ty) : Option UnaryOperator :=
  match token, operand with
  | .plus, .int => some ⟨token, .identity, operand⟩
  | .minus, .int => some ⟨token, .negation, operand⟩
  | .exclamation, .bool => some ⟨token, .logicalNegation, operand⟩
  | _, _ => none

def allOf (token : TokenKind) : List UnaryOperator := Ty.all.filterMap (find? token)

end UnaryOperator

inductive BinaryOperation where
  | addition
  | subtraction
  | multiplication
  | division
  | logicalAnd
  | logicalOr
  | equals
  | notEquals
  | lessThan
  | lessThanOrEquals
  | greaterThan
  | greaterThanOrEquals
  deriving DecidableEq, Repr

def BinaryOperation.name : BinaryOperation → String
  | .addition => "Addition"
  | .subtraction => "Subtraction"
  | .multiplication => "Multiplication"
  | .division => "Division"
  | .logicalAnd => "LogicalAnd"
  | .logicalOr => "LogicalOr"
  | .equals => "Equals"
  | .notEquals => "NotEquals"
  | .lessThan => "LessThan"
  | .lessThanOrEquals => "LessThanOrEquals"
  | .greaterThan => "GreaterThan"
  | .greaterThanOrEquals => "GreaterThanOrEquals"

structure BinaryOperator where
  token : TokenKind
  operation : BinaryOperation
  left : Ty
  right : Ty
  result : Ty
  deriving DecidableEq, Repr

namespace BinaryOperator

def meaning? : TokenKind → Ty → Ty → Option (BinaryOperation × Ty)
  | .plus, .int, .int => some (.addition, .int)
  | .minus, .int, .int => some (.subtraction, .int)
  | .asterisk, .int, .int => some (.multiplication, .int)
  | .slash, .int, .int => some (.division, .int)
  | .plus, .string, .string => some (.addition, .string)
  | .equalsEquals, .int, .int => some (.equals, .bool)
  | .equalsEquals, .bool, .bool => some (.equals, .bool)
  | .exclamationEquals, .int, .int => some (.notEquals, .bool)
  | .exclamationEquals, .bool, .bool => some (.notEquals, .bool)
  | .lessThan, .int, .int => some (.lessThan, .bool)
  | .lessThanEquals, .int, .int => some (.lessThanOrEquals, .bool)
  | .greaterThan, .int, .int => some (.greaterThan, .bool)
  | .greaterThanEquals, .int, .int => some (.greaterThanOrEquals, .bool)
  | .ampersandAmpersand, .bool, .bool => some (.logicalAnd, .bool)
  | .barBar, .bool, .bool => some (.logicalOr, .bool)
  | _, _, _ => none

def find? (token : TokenKind) (left right : Ty) : Option BinaryOperator :=
  (meaning? token left right).map fun (operation, result) => ⟨token, operation, left, right, result⟩

/-- All operators of a token, by the types in their order, that of the left operand first. -/
def allOf (token : TokenKind) : List BinaryOperator :=
  Ty.all.flatMap fun left => Ty.all.filterMap fun right => find? token left right

end BinaryOperator

end ScalarScript
