/-!
Message templates. The placeholder of the argument with number `i` is its decimal number between
braces. Arguments are put in one after another, so that a placeholder inside the text of an argument
is itself replaced by a later one.
-/

set_option autoImplicit false

namespace ScalarScript.Text

/-- `text` without its first `skip` characters, and with each occurrence of the pattern, found from
left to right and without overlap, replaced by `new`. The pattern is not empty. -/
def replaceFrom (pattern new : List Char) (skip : Nat) : List Char → List Char
  | [] => []
  | c :: rest =>
    match skip with
    | k + 1 => replaceFrom pattern new k rest
    | 0 =>
      if pattern.isPrefixOf (c :: rest) then
        new ++ replaceFrom pattern new (pattern.length - 1) rest
      else c :: replaceFrom pattern new 0 rest

def replaceAll (pattern new text : List Char) : List Char := replaceFrom pattern new 0 text

def placeholder (i : Nat) : List Char := ['{'] ++ Nat.toDigits 10 i ++ ['}']

def fillFrom (i : Nat) (text : List Char) : List (List Char) → List Char
  | [] => text
  | argument :: rest => fillFrom (i + 1) (replaceAll (placeholder i) argument text) rest

def fill (template : String) (arguments : List String) : String :=
  String.ofList (fillFrom 0 template.toList (arguments.map String.toList))

end ScalarScript.Text
