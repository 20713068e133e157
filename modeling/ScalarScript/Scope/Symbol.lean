import ScalarScript.Typing.Basic

set_option autoImplicit false

namespace ScalarScript

/-- The number of a fragment in its session, and that of a declaration in the fragment. Both
are exact while there are fewer than `2 ^ 32` of them. -/
structure SymbolId where
  fragment : Nat
  index : Nat
  deriving DecidableEq, Repr

structure Variable where
  id : SymbolId
  name : String
  isReadOnly : Bool
  type : Ty
  deriving DecidableEq, Repr

namespace Variable

def keyword (v : Variable) : String := if v.isReadOnly then "let" else "var"

def text (v : Variable) : String := s!"{v.name}: {v.type.name}"

def label (v : Variable) : String :=
  s!"#{v.id.fragment}.{v.id.index} {v.keyword} {v.text}"

end Variable

structure Parameter where
  name : String
  type : Ty
  ordinal : Nat
  deriving DecidableEq, Repr

structure Function where
  name : String
  parameters : List Parameter
  result : Ty
  deriving DecidableEq, Repr

namespace Function

def ofSignature (name : String) (parameters : List (String × Ty)) (result : Ty) : Function :=
  ⟨name, parameters.zipIdx.map fun ((name, type), ordinal) => ⟨name, type, ordinal⟩, result⟩

def text (f : Function) : String :=
  let parameters := String.intercalate ", " (f.parameters.map fun p => s!"{p.name}: {p.type.name}")
  s!"{f.name}({parameters}): {f.result.name}"

def read : Function := ofSignature "read" [] .string

def write : Function := ofSignature "write" [("text", .string)] .void

def rnd : Function := ofSignature "rnd" [("max", .int)] .int

def builtins : List Function := [read, write, rnd]

end Function

end ScalarScript
