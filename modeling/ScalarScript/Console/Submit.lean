import ScalarScript.Console.Report
import ScalarScript.Session.Basic
import ScalarScript.Program.Outline
import ScalarScript.Tree.Outline

set_option autoImplicit false

namespace ScalarScript

structure Console where
  session : Session
  /-- How many rounds a loop of a program may take before its run is left off. -/
  rounds : Nat
  showTree : Bool
  showProgram : Bool
  style : Style

inductive Verdict where
  | success
  | diagnostics
  | runtimeError
  /-- The run was left off in a loop. Nothing is shown or read after it. -/
  | unfinished
  deriving DecidableEq, Repr

/-- The status that a program ends with after a submission. One that was left off has not ended. -/
def Verdict.exitStatus : Verdict → Nat
  | .success => 0
  | .diagnostics => 1
  | .runtimeError | .unfinished => 2

inductive Origin where
  | typed
  | file
  deriving DecidableEq, Repr

def Origin.showsValue (origin : Origin) (format : OutputFormat) : Bool :=
  origin == .typed || format == .json

namespace Console

def dumps (console : Console) (c : Compilation) : List Printed :=
  (if console.showTree then [.text c.fragment.tree.text] else []) ++
    (if console.showProgram then [.text c.snapshot.action.text] else [])

def conclusion (console : Console) (origin : Origin) (name : String) (fragment : Fragment)
    (result : Except Halt Evaluation) : Verdict × List Printed :=
  match result with
  | .error .outOfFuel => (.unfinished, [])
  | .error (.failed error) => (.runtimeError, console.style.runtimeError error)
  | .ok evaluation =>
    if evaluation.isSuccess then
      (.success,
        if origin.showsValue console.style.format then console.style.value evaluation.value else [])
    else
      (.diagnostics, console.style.diagnostics name fragment.text evaluation.diagnostics)

/-- Submits a text under a name. What its program writes is shown between dumps and conclusion. -/
def submit (console : Console) (origin : Origin) (name : String) (fragment : Fragment) :
    Verdict × List Printed × Console :=
  let c := console.session.compile fragment
  let (result, session) := console.session.run console.rounds c
  let written := session.host.writtenSince console.session.host.written.size
  let (verdict, conclusion) := console.conclusion origin name fragment result
  (verdict, console.dumps c ++ written.map Printed.line ++ conclusion, { console with session })

end Console

end ScalarScript
