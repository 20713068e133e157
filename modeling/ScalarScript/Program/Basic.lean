import ScalarScript.Typing.Operator
import ScalarScript.Scope.Symbol

/-!
Programs: what a fragment means. A term is an expression with its names resolved, its operators
chosen and its type known; an action is a statement made of terms. What could not be given a meaning
is the term `error`.
-/

set_option autoImplicit false

namespace ScalarScript

inductive Term where
  | literal (value : Value)
  | variable (v : Variable)
  | assignment (v : Variable) (source : Term)
  | unary (operator : UnaryOperator) (operand : Term)
  | binary (left : Term) (operator : BinaryOperator) (right : Term)
  | call (function : Function) (arguments : List Term)
  | conversion (target : Ty) (source : Term)
  | error

namespace Term

def type : Term → Ty
  | .literal value => value.ty
  | .variable v => v.type
  | .assignment v _ => v.type
  | .unary operator _ => operator.result
  | .binary _ operator _ => operator.result
  | .call function _ => function.result
  | .conversion target _ => target
  | .error => .error

def kindName : Term → String
  | .literal _ => "LiteralExpression"
  | .variable _ => "VariableExpression"
  | .assignment _ _ => "AssignmentExpression"
  | .unary _ _ => "UnaryExpression"
  | .binary _ _ _ => "BinaryExpression"
  | .call _ _ => "CallExpression"
  | .conversion _ _ => "ConversionExpression"
  | .error => "ErrorExpression"

end Term

inductive Action where
  | block (actions : List Action)
  | declaration (v : Variable) (initializer : Term)
  | ifThen (condition : Term) (thenAction : Action)
  | ifThenElse (condition : Term) (thenAction elseAction : Action)
  | whileLoop (condition : Term) (body : Action)
  | forLoop (v : Variable) (lower upper : Term) (body : Action)
  | expression (term : Term)

namespace Action

def kindName : Action → String
  | .block _ => "BlockStatement"
  | .declaration _ _ => "VariableDeclaration"
  | .ifThen _ _ | .ifThenElse _ _ _ => "IfStatement"
  | .whileLoop _ _ => "WhileStatement"
  | .forLoop _ _ _ _ => "ForStatement"
  | .expression _ => "ExpressionStatement"

end Action

end ScalarScript
