import ScalarScript.Options.Basic
import ScalarScript.Folder

set_option autoImplicit false

namespace ScalarScript

inductive OptionsError where
  | read (path : String) (refusal : Folder.Refusal)
  | parse (path : String) (trouble : Trouble)
  | write (path : String) (refusal : Folder.Refusal)
  | alreadyExists (path : String)
  deriving DecidableEq, Repr

def Trouble.text : Trouble → String
  | .incomplete => "the text ends too early"
  | .malformed => "malformed JSON"
  | .unfit => "unknown field or unfit value"

def OptionsError.message : OptionsError → String
  | .read path refusal => s!"cannot read {path}: {refusal.text}"
  | .parse path trouble => s!"invalid options in {path}: {trouble.text}"
  | .write path refusal => s!"cannot write {path}: {refusal.text}"
  | .alreadyExists path => s!"{path} already exists"

namespace Options

def fileName : String := "minnow.json"

def file? (explicit : Option String) (folder : Folder) : Option String :=
  match explicit with
  | some path => some path
  | none => if (folder.read? fileName).isSome then some fileName else none

def readFile (path : String) (folder : Folder) : Except OptionsError Options :=
  match folder.read path with
  | .error refusal => .error (.read path refusal)
  | .ok text => (ofText text).mapError (.parse path)

/-- The options that hold in a folder. In an error the usual file is called by its whole path. -/
def load (explicit : Option String) (folder : Folder) : Except OptionsError Options :=
  match file? explicit folder with
  | none => .ok default
  | some path => readFile (if explicit.isSome then path else "./" ++ path) folder

def writeDefault (path : String) (folder : Folder) : Except OptionsError Folder :=
  if folder.isPresent path then .error (.alreadyExists path)
  else (folder.create path default.text).mapError (.write path)

end Options

end ScalarScript
