/-!
Lines and columns of positions. A line ends just after a line feed; a carriage return before it
belongs to the line it ends. Lines and columns count from zero, columns in UTF-8 bytes.
-/

set_option autoImplicit false

namespace ScalarScript

/-- Where the lines of a text begin: line 0 at position 0, and each later line at its own start,
in ascending order. -/
structure LineMap where
  laterStarts : List Nat
  deriving DecidableEq, Repr

structure Place where
  line : Nat
  column : Nat
  deriving DecidableEq, Repr

namespace LineMap

def startsAfter (position : Nat) : List Char → List Nat
  | [] => []
  | c :: rest =>
    let next := position + c.utf8Size
    if c = '\n' then next :: startsAfter next rest else startsAfter next rest

def ofText (text : String) : LineMap := ⟨startsAfter 0 text.toList⟩

def lineCount (lines : LineMap) : Nat := lines.laterStarts.length + 1

/-- The place of a position: its line is the last one to begin at or before it. -/
def place (lines : LineMap) (position : Nat) : Place :=
  let begun := lines.laterStarts.takeWhile (· ≤ position)
  ⟨begun.length, position - begun.getLast?.getD 0⟩

end LineMap

end ScalarScript
