import ScalarScript.Text.Span

/-!
Folders of files, and the paths that lead to the files. A path is a list of steps between slashes:
a name leads into a folder or to a file, one dot stays, and two dots lead back. No step leads on
from a file.
-/

set_option autoImplicit false

namespace ScalarScript

/-- The files of a folder by their paths, and their contents. What lies around the folder is not
known. -/
structure Folder where
  files : List (String × String)
  deriving DecidableEq, Repr

namespace Folder

def stretches : List Char → List (List Char)
  | [] => [[]]
  | c :: rest =>
    if c = '/' then [] :: stretches rest
    else
      match stretches rest with
      | [] => [[c]]
      | stretch :: more => (c :: stretch) :: more

def stay : List Char := ['.']

def back : List Char := ['.', '.']

/-- The steps of a path. A slash at its end is a step that stays. -/
def steps (path : String) : List (List Char) :=
  let taken := (stretches path.toList).filter fun step => !step.isEmpty
  if path.toList.getLast? = some '/' then taken ++ [stay] else taken

def names (path : String) : List (List Char) := (steps path).filter fun step => step ≠ stay

def isAbsolute (path : String) : Bool := path.toList.head? = some '/'

def lastName? (path : String) : Option String :=
  match (names path).getLast? with
  | some name => if name = back then none else some (String.ofList name)
  | none => none

inductive Refusal where
  | absent
  | isFolder
  /-- The path leads on from a file, as if that were a folder. -/
  | throughFile
  | tooLong
  | hasNul
  deriving DecidableEq, Repr

def Refusal.text : Refusal → String
  | .absent => "No such file or directory (os error 2)"
  | .isFolder => "Is a directory (os error 21)"
  | .throughFile => "Not a directory (os error 20)"
  | .tooLong => "File name too long (os error 36)"
  | .hasNul => "file name contained an unexpected NUL byte"

inductive Place where
  | file (contents : String)
  | inside (names : List (List Char))
  | outside
  deriving DecidableEq, Repr

def fileAt? (folder : Folder) (path : List (List Char)) : Option String :=
  (folder.files.find? fun file => !isAbsolute file.1 && names file.1 == path).map Prod.snd

def hasFolderAt (folder : Folder) (path : List (List Char)) : Bool :=
  folder.files.any fun file =>
    !isAbsolute file.1 && path.isPrefixOf (names file.1) && path.length < (names file.1).length

/-- Why a name leads nowhere where nothing has it. A name has at most 255 bytes. -/
def missing (name : List Char) : Refusal :=
  if 255 < Text.byteLength name then .tooLong else .absent

def enter (folder : Folder) (path : List (List Char)) (name : List Char) : Except Refusal Place :=
  match folder.fileAt? (path ++ [name]) with
  | some contents => .ok (.file contents)
  | none =>
    if folder.hasFolderAt (path ++ [name]) then .ok (.inside (path ++ [name]))
    else .error (missing name)

def follow (folder : Folder) : Place → List (List Char) → Except Refusal Place
  | place, [] => .ok place
  | .file _, _ :: _ => .error .throughFile
  | .outside, step :: rest =>
    if step = stay ∨ step = back then folder.follow .outside rest else .error (missing step)
  | .inside path, step :: rest =>
    if step = stay then folder.follow (.inside path) rest
    else if step = back then
      folder.follow (if path.isEmpty then .outside else .inside path.dropLast) rest
    else
      match folder.enter path step with
      | .ok place => folder.follow place rest
      | .error refusal => .error refusal

def start (path : String) : Place := if isAbsolute path then .outside else .inside []

/-- Where a path leads. It has less than 4096 bytes, and none of them is zero. -/
def place (folder : Folder) (path : String) : Except Refusal Place :=
  if path.toList.any fun c => c.toNat == 0 then .error .hasNul
  else if 4096 ≤ Text.byteLength path.toList then .error .tooLong
  else folder.follow (start path) (steps path)

/-- The contents of a file, or why there are none. A path by which a file is known leads to it. -/
def read (folder : Folder) (path : String) : Except Refusal String :=
  match folder.files.lookup path with
  | some contents => .ok contents
  | none =>
    match folder.place path with
    | .ok (.file contents) => .ok contents
    | .ok _ => .error .isFolder
    | .error refusal => .error refusal

def read? (folder : Folder) (path : String) : Option String := (folder.read path).toOption

def isPresent (folder : Folder) (path : String) : Bool :=
  (folder.read? path).isSome || (folder.place path).toOption.isSome

/-- The folder with a new file. Its path must end in a folder there is, with a name that is not
taken; one that is taken is refused as if it were that of a folder. -/
def create (folder : Folder) (path contents : String) : Except Refusal Folder :=
  match folder.place path with
  | .ok _ => .error .isFolder
  | .error .absent =>
    match folder.follow (start path) (steps path).dropLast with
    | .ok _ => .ok ⟨folder.files ++ [(path, contents)]⟩
    | .error refusal => .error refusal
  | .error refusal => .error refusal

end Folder

end ScalarScript
