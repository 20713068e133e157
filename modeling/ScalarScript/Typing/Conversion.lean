import ScalarScript.Typing.Basic

set_option autoImplicit false

namespace ScalarScript

inductive Conversion where
  | none
  | identity
  | explicit
  deriving DecidableEq, Repr

namespace Conversion

def name : Conversion → String
  | .none => "None"
  | .identity => "Identity"
  | .explicit => "Explicit"

def classify (source target : Ty) : Conversion :=
  if source = target then .identity
  else
    match source, target with
    | .int, .string | .bool, .string | .string, .int | .string, .bool => .explicit
    | _, _ => .none

def isPossible (c : Conversion) : Bool := c != .none

def isIdentity (c : Conversion) : Bool := c == .identity

end Conversion

end ScalarScript
