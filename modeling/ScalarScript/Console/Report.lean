import ScalarScript.Session.Compilation
import ScalarScript.Options.Basic
import ScalarScript.Text.LineMap

set_option autoImplicit false

namespace ScalarScript

inductive Color where
  | red
  | green
  | magenta
  | gray
  deriving DecidableEq, Repr

def Color.sequence : Color → String
  | .red => "\x1b[31m"
  | .green => "\x1b[32m"
  | .magenta => "\x1b[35m"
  | .gray => "\x1b[90m"

/-- A piece of output: some text, or a line on the channel for errors. -/
inductive Printed where
  | text (s : String)
  | error (line : String)
  deriving DecidableEq, Repr

namespace Printed

def line (s : String) : Printed := .text (s ++ "\n")

end Printed

structure Style where
  format : OutputFormat
  color : Bool
  deriving DecidableEq, Repr

namespace Style

def paint (style : Style) (color : Color) (text : String) : String :=
  if style.color then color.sequence ++ text ++ "\x1b[0m" else text

/-- A diagnostic as a document, with the line and column where it begins, counted from one. -/
def diagnosticDocument (lines : LineMap) (d : Diagnostic) : Document :=
  let place := lines.place d.span.start
  .object [("code", .string d.codeText), ("column", .int (place.column + 1)),
    ("kind", .string d.fault.kind.name), ("line", .int (place.line + 1)),
    ("message", .string d.message),
    ("span", .object [("length", .int d.span.length), ("start", .int d.span.start)])]

def diagnosticsDocument (text : String) (ds : List Diagnostic) : Document :=
  .object [("diagnostics", .list (ds.map (diagnosticDocument (.ofText text)))), ("value", .null)]

def diagnosticLines (name text : String) (ds : List Diagnostic) : List Printed :=
  let lines := LineMap.ofText text
  ds.map fun d =>
    let place := lines.place d.span.start
    .error s!"{d.line} [{name}:{place.line + 1}:{place.column + 1}]"

def diagnostics (style : Style) (name text : String) (ds : List Diagnostic) : List Printed :=
  match style.format with
  | .json => [.line (diagnosticsDocument text ds).text]
  | .text => diagnosticLines name text ds

/-- The value of a text that succeeded. As text it is shown only if there is one. -/
def value (style : Style) (v : Option Value) : List Printed :=
  match style.format with
  | .json =>
    [.line (Document.object [("diagnostics", .list []), ("value", Value.documentOf v)]).text]
  | .text => v.toList.map fun v => .line (style.paint .magenta v.text)

def runtimeError (style : Style) (error : RunError) : List Printed :=
  match style.format with
  | .json =>
    [.line (Document.object [("diagnostics", .list []), ("error", .string error.message),
      ("value", .null)]).text]
  | .text =>
    let title := style.paint .red "runtime error"
    [.error s!"{title}: {error.message}"]

def error (style : Style) (message : String) : Printed :=
  let title := style.paint .red "error"
  .error s!"{title}: {message}"

def info (style : Style) (message : String) : Printed := .line (style.paint .gray message)

end Style

end ScalarScript
