import ScalarScript.Console.Arguments
import ScalarScript.Console.Repl
import ScalarScript.Options.File

set_option autoImplicit false

namespace ScalarScript

structure Surroundings where
  folder : Folder
  input : List String
  outputIsTerminal : Bool
  errorsAreTerminal : Bool
  /-- Something that no one can tell, for random numbers without a seed. -/
  entropy : UInt64

structure Completion where
  status : Nat
  printed : List Printed
  folder : Folder

namespace Command

def created : String := s!"Successfully created a {Options.fileName} file."

def runInit (s : Surroundings) (plain : Style) : Completion :=
  match Options.writeDefault Options.fileName s.folder with
  | .ok folder => ⟨0, [.line created], folder⟩
  | .error e => ⟨1, [plain.error e.message], s.folder⟩

def runFile (s : Surroundings) (console : Console) (path : String) : Completion :=
  match s.folder.read path with
  | .error refusal =>
    ⟨Verdict.diagnostics.exitStatus,
      [console.style.error s!"cannot read {path}: {refusal.text}"], s.folder⟩
  | .ok text =>
    let (verdict, printed, _) := console.submit .file path (.ofText text)
    ⟨verdict.exitStatus, printed, s.folder⟩

def runWith (s : Surroundings) (arguments : Arguments) : Completion :=
  let plain : Style := ⟨.text, s.errorsAreTerminal⟩
  if arguments.init then runInit s plain
  else
    match Options.load arguments.config s.folder with
    | .error e => ⟨1, [plain.error e.message], s.folder⟩
    | .ok options =>
      let options := arguments.applyTo options
      let host := { Host.ofLines s.input with entropy := s.entropy }
      let console : Console :=
        ⟨.start host options.seed, Eval.amply, options.showTree, options.showProgram,
          ⟨options.format, options.color && s.outputIsTerminal⟩⟩
      match arguments.file with
      | some path => runFile s console path
      | none => ⟨0, Repl.run console, s.folder⟩

/-- Runs the command with arguments. Arguments that cannot be read end it with status 2. -/
def run (s : Surroundings) (arguments : List String) : Completion :=
  match Arguments.ofList arguments with
  | .ok arguments => runWith s arguments
  | .error message => ⟨2, [.error ("error: " ++ message)], s.folder⟩

def paths (arguments : List String) : List String :=
  match Arguments.ofList arguments with
  | .ok a => Options.fileName :: a.config.toList ++ a.file.toList
  | .error _ => []

end Command

namespace Completion

def output (c : Completion) : String :=
  String.join (c.printed.filterMap fun
    | .text s => some s
    | .error _ => none)

/-- All lines printed on the channel for errors. What was printed as one line makes several if there
are line feeds in it. -/
def errors (c : Completion) : List String :=
  Text.lines <| String.join (c.printed.filterMap fun
    | .text _ => none
    | .error line => some (line ++ "\n"))

end Completion

end ScalarScript
