import ScalarScript.Value

set_option autoImplicit false

namespace ScalarScript

inductive Ty where
  | error
  | bool
  | int
  | string
  | void
  deriving DecidableEq, Repr

namespace Ty

def all : List Ty := [.error, .bool, .int, .string, .void]

def name : Ty → String
  | .error => "?"
  | .bool => "bool"
  | .int => "int"
  | .string => "string"
  | .void => "void"

def ofName? : String → Option Ty
  | "bool" => some .bool
  | "int" => some .int
  | "string" => some .string
  | _ => none

def ofLabel? (label : String) : Option Ty := all.find? fun ty => ty.name == label

theorem mem_all (ty : Ty) : ty ∈ all := by cases ty <;> decide

end Ty

def Value.ty : Value → Ty
  | .int _ => .int
  | .bool _ => .bool
  | .string _ => .string

end ScalarScript
