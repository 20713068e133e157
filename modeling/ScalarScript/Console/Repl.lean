import ScalarScript.Console.Submit

/-!
The loop that reads, evaluates and prints. Lines are gathered until they can be read as a fragment,
or until one is blank, and then submitted. Between submissions blank lines are skipped, and a line
that begins with a number sign is a command. The lines that programs read come from the same input.
-/

set_option autoImplicit false

namespace ScalarScript

inductive MetaCommand where
  | showTree
  | showProgram
  | reset
  | clear
  | exit
  deriving DecidableEq, Repr

namespace MetaCommand

def name : MetaCommand → String
  | .showTree => "ShowTree"
  | .showProgram => "ShowProgram"
  | .reset => "Reset"
  | .clear => "Cls"
  | .exit => "Exit"

def ofWord? : String → Option MetaCommand
  | "showTree" => some .showTree
  | "showProgram" => some .showProgram
  | "reset" => some .reset
  | "cls" => some .clear
  | "exit" => some .exit
  | _ => none

/-- The command on a line: a word just after a number sign, blanks around both left out. -/
def ofLine? (line : String) : Option MetaCommand :=
  match Text.trim line.toList with
  | '#' :: word => ofWord? (String.ofList word)
  | _ => none

end MetaCommand

/-- Whether gathered text, read as a fragment, is submitted after a line that is blank or not: a
blank line submits it also when something is wrong with it. -/
def Fragment.isComplete (fragment : Fragment) (lastLineBlank : Bool) : Bool :=
  lastLineBlank || !fragment.hasErrors

inductive LineUse where
  | skipped
  /-- A line for the loop itself, with the command on it if there is one. -/
  | command (line : String) (command : Option MetaCommand)
  | gathered (text : String)
  | submitted (fragment : Fragment)

namespace LineUse

def ofLine (gathered line : String) : LineUse :=
  if gathered.isEmpty ∧ Text.allBlank line then .skipped
  else if gathered.isEmpty ∧ line.toList.head? = some '#' then
    .command line (MetaCommand.ofLine? line)
  else
    let text := gathered ++ line ++ "\n"
    let fragment := Fragment.ofText text
    if fragment.isComplete (Text.allBlank line) then .submitted fragment else .gathered text

end LineUse

structure Repl where
  console : Console
  gathered : String

namespace Repl

def prompt (repl : Repl) : Printed :=
  .text (repl.console.style.paint .green (if repl.gathered.isEmpty then "» " else "· "))

def announcement (shown : Bool) (what : String) : String :=
  (if shown then "Showing " else "Not showing ") ++ what ++ "."

def apply (console : Console) : MetaCommand → List Printed × Console
  | .showTree =>
    let shown := !console.showTree
    ([console.style.info (announcement shown "parse trees")], { console with showTree := shown })
  | .showProgram =>
    let shown := !console.showProgram
    ([console.style.info (announcement shown "bound trees")], { console with showProgram := shown })
  | .reset =>
    ([console.style.info "Session reset."], { console with session := console.session.reset })
  | .clear => ([.text "\x1b[2J\x1b[H"], console)
  | .exit => ([], console)

/-- What is shown after one line, and the loop behind it, unless it ends there. -/
def step (repl : Repl) (line : String) : List Printed × Option Repl :=
  match LineUse.ofLine repl.gathered line with
  | .skipped => ([], some repl)
  | .command _ (some .exit) => ([], none)
  | .command _ (some command) =>
    let (printed, console) := apply repl.console command
    (printed, some { repl with console })
  | .command line none =>
    ([repl.console.style.error ("invalid command " ++ Text.trimmed line)], some repl)
  | .gathered text => ([], some { repl with gathered := text })
  | .submitted fragment =>
    let (verdict, printed, console) := repl.console.submit .typed "repl" fragment
    (printed, if verdict = .unfinished then none else some ⟨console, ""⟩)

def takeLine? (repl : Repl) : Option (String × Repl) :=
  match repl.console.session.host.pending with
  | [] => none
  | line :: rest =>
    let host := { repl.console.session.host with pending := rest }
    let session := { repl.console.session with host }
    some (line, { repl with console := { repl.console with session } })

def runWithin : Nat → Repl → List Printed
  | 0, repl => [repl.prompt]
  | fuel + 1, repl =>
    repl.prompt ::
      match repl.takeLine? with
      | none => []
      | some (line, repl) =>
        match repl.step line with
        | (printed, none) => printed
        | (printed, some repl) => printed ++ runWithin fuel repl

def run (console : Console) : List Printed :=
  runWithin console.session.host.pending.length ⟨console, ""⟩

end Repl

end ScalarScript
