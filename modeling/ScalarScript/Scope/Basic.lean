import ScalarScript.Scope.Symbol

set_option autoImplicit false

namespace ScalarScript

structure Scope where
  vars : List Variable
  functions : List Function
  deriving DecidableEq, Repr

namespace Scope

def empty : Scope := ⟨[], []⟩

def builtins : Scope := ⟨[], Function.builtins⟩

def variableNamed? (scope : Scope) (name : String) : Option Variable :=
  scope.vars.find? fun v => v.name == name

def functionNamed? (scope : Scope) (name : String) : Option Function :=
  scope.functions.find? fun f => f.name == name

def declare? (scope : Scope) (v : Variable) : Option Scope :=
  if (scope.variableNamed? v.name).isSome then none
  else some { scope with vars := scope.vars ++ [v] }

def declareFunction? (scope : Scope) (f : Function) : Option Scope :=
  if (scope.functionNamed? f.name).isSome then none
  else some { scope with functions := scope.functions ++ [f] }

end Scope

end ScalarScript
