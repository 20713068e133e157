import ScalarScript.Scope.Basic

/-!
Nested scopes. The outermost one holds the built-in functions and is never left. A name is looked up
from the innermost scope outwards. Every attempt to declare a variable takes a fresh id, also one
that fails.
-/

set_option autoImplicit false

namespace ScalarScript

structure ScopeChain where
  /-- The scopes inside the outermost one, the innermost first. -/
  inner : List Scope
  root : Scope
  fragment : Nat
  nextIndex : Nat
  deriving DecidableEq, Repr

namespace ScopeChain

def ofFragment (fragment : Nat) : ScopeChain := ⟨[], .builtins, fragment, 0⟩

def scopes (chain : ScopeChain) : List Scope := chain.inner ++ [chain.root]

def depth (chain : ScopeChain) : Nat := chain.scopes.length

def push (chain : ScopeChain) : ScopeChain := { chain with inner := .empty :: chain.inner }

def pop? (chain : ScopeChain) : Option (Scope × ScopeChain) :=
  match chain.inner with
  | [] => none
  | scope :: rest => some (scope, { chain with inner := rest })

def pop (chain : ScopeChain) : ScopeChain := { chain with inner := chain.inner.tail }

def current (chain : ScopeChain) : Scope := chain.inner.headD chain.root

def setCurrent (chain : ScopeChain) (scope : Scope) : ScopeChain :=
  match chain.inner with
  | [] => { chain with root := scope }
  | _ :: rest => { chain with inner := scope :: rest }

/-- Adds a variable as it is to the innermost scope, unless its name is taken there. -/
def import? (chain : ScopeChain) (v : Variable) : Option ScopeChain :=
  (chain.current.declare? v).map chain.setCurrent

def fresh (chain : ScopeChain) (name : String) (isReadOnly : Bool) (type : Ty) : Variable :=
  ⟨⟨chain.fragment, chain.nextIndex⟩, name, isReadOnly, type⟩

/-- Declares a variable with a fresh id in the innermost scope. It is an error if its name is taken
there; the variable that could not be declared comes with it. -/
def declare (chain : ScopeChain) (name : String) (isReadOnly : Bool) (type : Ty) :
    Except Variable Variable × ScopeChain :=
  let v := chain.fresh name isReadOnly type
  let counted := { chain with nextIndex := chain.nextIndex + 1 }
  match counted.import? v with
  | some declared => (.ok v, declared)
  | none => (.error v, counted)

def variableNamed? (chain : ScopeChain) (name : String) : Option Variable :=
  chain.scopes.findSome? fun scope => scope.variableNamed? name

def functionNamed? (chain : ScopeChain) (name : String) : Option Function :=
  chain.scopes.findSome? fun scope => scope.functionNamed? name

end ScopeChain

end ScalarScript
