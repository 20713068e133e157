import ScalarScript.Run.Error
import ScalarScript.Typing.Operator

/-!
What operators do to values. Integers wrap around at 64 bits, and division cuts off toward zero. A
value of the wrong type is an error, and of two such the left one is complained of, except that a
division looks at its divisor first.
-/

set_option autoImplicit false

namespace ScalarScript

namespace Value

def expectInt (value : Value) : Except RunError Int64 :=
  match value.asInt? with
  | some n => .ok n
  | none => .error (.typeMismatch Ty.int.name value.ty.name)

def expectBool (value : Value) : Except RunError Bool :=
  match value.asBool? with
  | some b => .ok b
  | none => .error (.typeMismatch Ty.bool.name value.ty.name)

def expectString (value : Value) : Except RunError String :=
  match value.asString? with
  | some s => .ok s
  | none => .error (.typeMismatch Ty.string.name value.ty.name)

end Value

def UnaryOperation.apply (operation : UnaryOperation) (operand : Value) : Except RunError Value :=
  match operation with
  | .identity => return .int (← operand.expectInt)
  | .negation => return .int (-(← operand.expectInt))
  | .logicalNegation => return .bool (!(← operand.expectBool))

namespace BinaryOperation

def onInts (f : Int64 → Int64 → Value) (left right : Value) : Except RunError Value := do
  let l ← left.expectInt
  let r ← right.expectInt
  return f l r

def add (left right : Value) : Except RunError Value :=
  match left, right with
  | .string l, .string r => .ok (.string (l ++ r))
  | _, _ => onInts (fun l r => .int (l + r)) left right

def divide (left right : Value) : Except RunError Value := do
  let divisor ← right.expectInt
  if divisor = 0 then throw .divisionByZero
  let dividend ← left.expectInt
  return .int (dividend / divisor)

/-- The right operand is not looked at when the left one decides. -/
def and (left right : Value) : Except RunError Value := do
  if ← left.expectBool then return .bool (← right.expectBool)
  return .bool false

def or (left right : Value) : Except RunError Value := do
  if ← left.expectBool then return .bool true
  return .bool (← right.expectBool)

def apply (operation : BinaryOperation) (left right : Value) : Except RunError Value :=
  match operation with
  | .addition => add left right
  | .subtraction => onInts (fun l r => .int (l - r)) left right
  | .multiplication => onInts (fun l r => .int (l * r)) left right
  | .division => divide left right
  | .logicalAnd => and left right
  | .logicalOr => or left right
  | .equals => .ok (.bool (left == right))
  | .notEquals => .ok (.bool (left != right))
  | .lessThan => onInts (fun l r => .bool (l < r)) left right
  | .lessThanOrEquals => onInts (fun l r => .bool (l ≤ r)) left right
  | .greaterThan => onInts (fun l r => .bool (r < l)) left right
  | .greaterThanOrEquals => onInts (fun l r => .bool (r ≤ l)) left right

theorem apply_division (l r : Int64) :
    apply .division (.int l) (.int r) =
      if r = 0 then .error .divisionByZero else .ok (.int (l / r)) := by
  by_cases h : r = 0
  · subst h
    rfl
  · simp only [apply, divide, Value.expectInt, Value.asInt?, bind, Except.bind, h, if_false]
    rfl

end BinaryOperation

end ScalarScript
