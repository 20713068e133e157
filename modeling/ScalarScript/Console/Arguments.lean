import ScalarScript.Options.Basic

/-!
The arguments of the command line. Long options begin with two hyphens, and their value follows as
the next argument or after an equals sign; short ones are a letter after one hyphen, and several may
share it. After a lone pair of hyphens nothing is an option. An option stands at most once, the wish
for more words excepted.
-/

set_option autoImplicit false

namespace ScalarScript

structure Arguments where
  file : Option String
  config : Option String
  init : Bool
  showTree : Bool
  showProgram : Bool
  seed : Option UInt64
  format : Option OutputFormat
  noColor : Bool
  /-- How often more words were asked for. There are none to give. -/
  verbosity : Nat
  deriving DecidableEq, Repr

namespace Arguments

def none : Arguments := ⟨.none, .none, false, false, false, .none, .none, false, 0⟩

inductive Valued where
  | config
  | seed
  | format
  deriving DecidableEq, Repr

def Valued.ofName? : String → Option Valued
  | "config" => some .config
  | "seed" => some .seed
  | "format" => some .format
  | _ => .none

def Valued.usage : Valued → String
  | .config => "--config <CONFIG>"
  | .seed => "--seed <SEED>"
  | .format => "--format <FORMAT>"

def missingValue (usage : String) : String :=
  s!"a value is required for '{usage}' but none was supplied"

def repeated (usage : String) : String := s!"the argument '{usage}' cannot be used multiple times"

def invalidValue (value usage : String) : String := s!"invalid value '{value}' for '{usage}'"

def unexpected (argument : String) : String := s!"unexpected argument '{argument}' found"

def fill {α : Type} (field : Option α) (usage : String) (a : Arguments) : Except String Arguments :=
  if field.isSome then .error (repeated usage) else .ok a

def switch (field : Bool) (usage : String) (a : Arguments) : Except String Arguments :=
  if field then .error (repeated usage) else .ok a

/-- A seed: digits, with a plus sign before them or not, that make a number below 2^64. Other text is
refused with the reason why. -/
def seedOfText (text : String) : Except String UInt64 :=
  let digits :=
    match text.toList with
    | '+' :: rest => rest
    | cs => cs
  match Text.natOfNumeral? digits with
  | some n =>
    if n < UInt64.size then .ok (UInt64.ofNat n)
    else .error "number too large to fit in target type"
  | .none =>
    .error <|
      if text.isEmpty then "cannot parse integer from empty string"
      else "invalid digit found in string"

def withValue (a : Arguments) (option : Valued) (value : String) : Except String Arguments :=
  match option with
  | .config =>
    if value.isEmpty then .error (missingValue option.usage)
    else fill a.config option.usage { a with config := some value }
  | .seed =>
    match seedOfText value with
    | .ok seed => fill a.seed option.usage { a with seed := some seed }
    | .error reason => .error (invalidValue value option.usage ++ ": " ++ reason)
  | .format =>
    if value.isEmpty then .error (missingValue option.usage)
    else match OutputFormat.ofName? value with
    | some format => fill a.format option.usage { a with format := some format }
    | .none => .error (invalidValue value option.usage)

def withFlag (a : Arguments) : String → Except String Arguments
  | "init" => switch a.init "--init" { a with init := true }
  | "show-tree" => switch a.showTree "--show-tree" { a with showTree := true }
  | "show-program" => switch a.showProgram "--show-program" { a with showProgram := true }
  | "no-color" => switch a.noColor "--no-color" { a with noColor := true }
  | "verbose" => .ok { a with verbosity := a.verbosity + 1 }
  | name => .error (unexpected ("--" ++ name))

def withFile (a : Arguments) (path : String) : Except String Arguments :=
  if path.isEmpty then .error (missingValue "[FILE]")
  else if a.file.isSome then .error (unexpected path)
  else .ok { a with file := some path }

inductive Shape where
  | file (path : String)
  | endOfOptions
  | long (name : String) (value : Option String)
  /-- Short options: so many letters that only ask for more words, then perhaps the option of a file
  of options, and its value if that is in the same argument. -/
  | short (letters : List Char)

def Shape.ofText (argument : String) : Shape :=
  match argument.toList with
  | ['-', '-'] => .endOfOptions
  | '-' :: '-' :: rest =>
    let name := rest.takeWhile (· ≠ '=')
    let value := (rest.dropWhile (· ≠ '=')).tail?
    .long (String.ofList name) (value.map String.ofList)
  | '-' :: c :: rest => .short (c :: rest)
  | _ => .file argument

/-- Reads letters of short options: the arguments they make, and the value of the option of a file
of options if that is among them; that value may stand behind an equals sign, and may be missing. -/
def withLetters (a : Arguments) : List Char → Except String (Arguments × Option (Option String))
  | [] => .ok (a, .none)
  | 'v' :: rest => withLetters { a with verbosity := a.verbosity + 1 } rest
  | 'c' :: rest =>
    match rest with
    | [] => .ok (a, some .none)
    | '=' :: value => .ok (a, some (some (String.ofList value)))
    | value => .ok (a, some (some (String.ofList value)))
  | c :: _ => .error (unexpected s!"-{c}")

/-- The value of an option, where it is the next argument. What looks like an option is none. -/
def nextValue (option : Valued) : List String → Except String (String × List String)
  | [] => .error (missingValue option.usage)
  | value :: rest =>
    match Shape.ofText value with
    | .file value => .ok (value, rest)
    | _ => .error (missingValue option.usage)

def readWithin : Nat → Arguments → List String → Except String Arguments
  | 0, a, _ => .ok a
  | _ + 1, a, [] => .ok a
  | fuel + 1, a, argument :: rest =>
    match Shape.ofText argument with
    | .file path => do readWithin fuel (← a.withFile path) rest
    | .endOfOptions => rest.foldlM withFile a
    | .long name inlined =>
      match Valued.ofName? name, inlined with
      | some option, some value => do readWithin fuel (← a.withValue option value) rest
      | some option, .none => do
        let (value, rest) ← nextValue option rest
        readWithin fuel (← a.withValue option value) rest
      | .none, .none => do readWithin fuel (← a.withFlag name) rest
      | .none, some _ => .error (unexpected ("--" ++ name))
    | .short letters => do
      let (a, value) ← a.withLetters letters
      match value with
      | .none => readWithin fuel a rest
      | some (some path) => do readWithin fuel (← a.withValue .config path) rest
      | some .none => do
        let (path, rest) ← nextValue .config rest
        readWithin fuel (← a.withValue .config path) rest

def ofList (arguments : List String) : Except String Arguments :=
  readWithin arguments.length none arguments

def applyTo (a : Arguments) (options : Options) : Options where
  showTree := options.showTree || a.showTree
  showProgram := options.showProgram || a.showProgram
  seed := a.seed.or options.seed
  format := a.format.getD options.format
  color := options.color && !a.noColor

end Arguments

end ScalarScript
