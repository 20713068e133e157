import ScalarScript.Program.Snapshot
import ScalarScript.Run.Evaluate
import ScalarScript.Tree.Grammar
import ScalarScript.Json.Document

set_option autoImplicit false

namespace ScalarScript

structure Compilation where
  fragment : Fragment
  snapshot : Snapshot

/-- What a compilation gave: what is wrong with it, or else the value it was evaluated to. -/
structure Evaluation where
  diagnostics : List Diagnostic
  value : Option Value
  deriving DecidableEq, Repr

namespace Evaluation

def isSuccess (e : Evaluation) : Bool := e.diagnostics.isEmpty

end Evaluation

namespace Compilation

def after (chain : List Compilation) (fragment : Fragment) : Compilation :=
  ⟨fragment, .bind (chain.map Compilation.snapshot) fragment.tree⟩

def ordinalAfter : List Compilation → Nat
  | [] => 0
  | _ :: earlier => ordinalAfter earlier + 1

def chainOf (fragments : List Fragment) : List Compilation :=
  fragments.foldl (fun chain fragment => after chain fragment :: chain) []

theorem chainOf_concat (fragments : List Fragment) (fragment : Fragment) :
    chainOf (fragments ++ [fragment]) =
      after (chainOf fragments) fragment :: chainOf fragments := by
  simp [chainOf]

/-- What is wrong with the fragment as a text, then with the meaning of it and all before it. -/
def diagnostics (c : Compilation) : List Diagnostic :=
  c.fragment.diagnostics ++ c.snapshot.diagnostics

/-- Evaluates a compilation over a store, in a world. If anything is wrong with it nothing runs. -/
def evaluate (c : Compilation) (rounds : Nat) (store : Store) (host : Host)
    (seed : Option UInt64) : Outcome Evaluation :=
  if c.diagnostics.isEmpty then
    let outcome := c.snapshot.action.execute rounds store host seed
    { outcome with result := outcome.result.map fun value => ⟨[], value⟩ }
  else ⟨.ok ⟨c.diagnostics, none⟩, store, host⟩

end Compilation

def Value.document : Value → Document
  | .int n => .int n.toInt
  | .bool b => .bool b
  | .string s => .string s

def Value.documentOf (value : Option Value) : Document := (value.map Value.document).getD .null

def Diagnostic.document (d : Diagnostic) : Document :=
  .object [("span", .object [("start", .int d.span.start), ("length", .int d.span.length)]),
    ("kind", .string d.fault.kind.name), ("code", .int d.fault.code),
    ("message", .string d.message)]

def Evaluation.document (e : Evaluation) : Document :=
  .object [("diagnostics", .list (e.diagnostics.map Diagnostic.document)),
    ("value", Value.documentOf e.value)]

end ScalarScript
