import ScalarScript.Run.Error
import ScalarScript.Typing.Basic
import ScalarScript.Text.Blank
import ScalarScript.Text.Decimal

set_option autoImplicit false

namespace ScalarScript

def Text.lowerChar (c : Char) : Char := if 'A' ≤ c ∧ c ≤ 'Z' then Char.ofNat (c.toNat + 32) else c

def Text.boolOfWord? (cs : List Char) : Option Bool :=
  let word := cs.map lowerChar
  if word = ['t', 'r', 'u', 'e'] then some true
  else if word = ['f', 'a', 'l', 's', 'e'] then some false
  else none

namespace Value

def convert (value : Value) (target : Ty) : Except RunError Value :=
  let invalid := Except.error (RunError.invalidConversion value.text target.name)
  match target, value with
  | .string, _ => .ok (.string value.text)
  | .int, .int n => .ok (.int n)
  | .bool, .bool b => .ok (.bool b)
  | .int, .string s =>
    match Text.int64OfNumeral? (Text.trim s.toList) with
    | some n => .ok (.int n)
    | none => invalid
  | .bool, .string s =>
    match Text.boolOfWord? (Text.trim s.toList) with
    | some b => .ok (.bool b)
    | none => invalid
  | _, _ => invalid

end Value

end ScalarScript
