set_option autoImplicit false

namespace ScalarScript.Text

def indentedLine (depth : Nat) (label : String) : String :=
  String.ofList (List.replicate (2 * depth) ' ') ++ label ++ "\n"

/-- The stretches between line feeds. Nothing follows a line feed at the very end. -/
def cut : List Char → List (List Char)
  | [] => []
  | c :: rest =>
    if c = '\n' then [] :: cut rest
    else
      match cut rest with
      | [] => [[c]]
      | line :: more => (c :: line) :: more

def dropReturns (line : List Char) : List Char :=
  (line.reverse.dropWhile (· == '\r')).reverse

/-- The lines of a stream, without their ends: each ends at a line feed or with the stream, and
carriage returns before the end belong to it. -/
def lines (text : String) : List String :=
  (cut text.toList).map fun line => String.ofList (dropReturns line)

end ScalarScript.Text
