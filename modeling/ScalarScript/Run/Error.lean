import ScalarScript.Value
import ScalarScript.Text.Quoted

set_option autoImplicit false

namespace ScalarScript

inductive RunError where
  | unassignedVariable (name : String)
  | typeMismatch (expected actual : String)
  | invalidConversion (value target : String)
  | divisionByZero
  | negativeRandomBound (max : Int64)
  | errorNodeReached
  | unknownFunction (name : String)
  deriving DecidableEq, Repr

namespace RunError

def name : RunError → String
  | .unassignedVariable _ => "UnassignedVariable"
  | .typeMismatch _ _ => "TypeMismatch"
  | .invalidConversion _ _ => "InvalidConversion"
  | .divisionByZero => "DivisionByZero"
  | .negativeRandomBound _ => "NegativeRandomBound"
  | .errorNodeReached => "ErrorNodeReached"
  | .unknownFunction _ => "UnknownFunction"

def message : RunError → String
  | .unassignedVariable name => s!"variable `{name}` was read before it was assigned"
  | .typeMismatch expected actual =>
    s!"expected a value of type `{expected}` but found `{actual}`"
  | .invalidConversion value target => s!"cannot convert {Text.quoted value} to `{target}`"
  | .divisionByZero => "division by zero"
  | .negativeRandomBound max => s!"`rnd` bound must not be negative, got {max.toInt}"
  | .errorNodeReached => "evaluation reached a node that failed to bind"
  | .unknownFunction name => s!"unknown function `{name}`"

end RunError

/-- Why a run ended before its program did: an error, or a loop that took more rounds than the run
was given. -/
inductive Halt where
  | failed (error : RunError)
  | outOfFuel
  deriving DecidableEq, Repr

end ScalarScript
