set_option autoImplicit false

namespace ScalarScript

inductive Value where
  | int (n : Int64)
  | bool (b : Bool)
  | string (s : String)
  deriving DecidableEq, Repr

namespace Value

def asInt? : Value → Option Int64
  | .int n => some n
  | _ => none

def asBool? : Value → Option Bool
  | .bool b => some b
  | _ => none

def asString? : Value → Option String
  | .string s => some s
  | _ => none

def text : Value → String
  | .int n => toString n.toInt
  | .bool true => "true"
  | .bool false => "false"
  | .string s => s

end Value

end ScalarScript
