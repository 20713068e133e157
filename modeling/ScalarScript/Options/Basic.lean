import ScalarScript.Json.Document
import ScalarScript.Json.Read

set_option autoImplicit false

namespace ScalarScript

inductive OutputFormat where
  | text
  | json
  deriving DecidableEq, Repr

namespace OutputFormat

def name : OutputFormat → String
  | .text => "text"
  | .json => "json"

def ofName? : String → Option OutputFormat
  | "text" => some .text
  | "json" => some .json
  | _ => none

end OutputFormat

structure Options where
  showTree : Bool
  showProgram : Bool
  seed : Option UInt64
  format : OutputFormat
  color : Bool
  deriving DecidableEq, Repr

namespace Options

def default : Options := ⟨false, false, none, .text, true⟩

inductive Field where
  | showTree
  | showProgram
  | seed
  | format
  | color
  deriving DecidableEq, Repr

namespace Field

def all : List Field := [.showTree, .showProgram, .seed, .format, .color]

def name : Field → String
  | .showTree => "showTree"
  | .showProgram => "showProgram"
  | .seed => "seed"
  | .format => "format"
  | .color => "color"

def ofName? (name : String) : Option Field := all.find? fun field => field.name == name

end Field

def field (options : Options) : Field → Document
  | .showTree => .bool options.showTree
  | .showProgram => .bool options.showProgram
  | .seed => (options.seed.map fun seed => Document.int seed.toNat).getD .null
  | .format => .string options.format.name
  | .color => .bool options.color

def text (options : Options) : String :=
  let lines := Field.all.map fun f =>
    "  " ++ Document.stringText f.name ++ ": " ++ (options.field f).text
  "\x7b\n" ++ String.intercalate ",\n" lines ++ "\n\x7d\n"

def formatOfName (name : String) : JsonReader OutputFormat :=
  match OutputFormat.ofName? name with
  | some format => return format
  | none => throw .unfit

/-- A format: its name, or an object with nothing but null under its name. -/
def readFormat : JsonReader OutputFormat := do
  match ← JsonReader.peek with
  | '"' =>
    JsonReader.skip
    formatOfName (← JsonReader.string)
  | '{' =>
    JsonReader.skip
    let format ← formatOfName (← JsonReader.name)
    JsonReader.colon
    JsonReader.null
    if (← JsonReader.peek) ≠ '}' then throw .malformed
    JsonReader.skip
    return format
  | _ => throw .malformed

def readField (options : Options) : Field → JsonReader Options
  | .showTree => do return { options with showTree := ← JsonReader.bool }
  | .showProgram => do return { options with showProgram := ← JsonReader.bool }
  | .seed => do
    let seed ← JsonReader.optional JsonReader.natural
    return { options with seed := seed.map UInt64.ofNat }
  | .format => do return { options with format := ← readFormat }
  | .color => do return { options with color := ← JsonReader.bool }

/-- The fields of an object up to its end. A name that is unknown, or was seen before, does not fit;
so there are no more fields than names. -/
def readFieldsWithin : Nat → List Field → Options → JsonReader Options
  | 0, _, _ => throw .unfit
  | fuel + 1, seen, options => do
    match ← JsonReader.fieldName? seen.isEmpty with
    | none => return options
    | some name =>
      match Field.ofName? name with
      | none => throw .unfit
      | some field =>
        if field ∈ seen then throw .unfit
        JsonReader.colon
        readFieldsWithin fuel (field :: seen) (← readField options field)

def readItems (isFirst : Bool) : List Field → Options → JsonReader Options
  | [], options => return options
  | field :: rest, options => do
    if ← JsonReader.hasItem isFirst then readItems false rest (← readField options field)
    else return options

def reader : JsonReader Options := do
  let options ←
    match ← JsonReader.peek with
    | '{' => do
      JsonReader.skip
      readFieldsWithin (Field.all.length + 1) [] default
    | '[' => do
      JsonReader.skip
      let options ← readItems true Field.all default
      JsonReader.listEnd
      pure options
    | _ => JsonReader.misfit
  JsonReader.textEnd
  return options

def ofText (text : String) : Except Trouble Options :=
  (reader.run text.toList).map Prod.fst

end Options

end ScalarScript
