set_option autoImplicit false

namespace ScalarScript

/-- A document without fractions. The fields of an object keep their order. -/
inductive Document where
  | null
  | bool (b : Bool)
  | int (n : Int)
  | string (s : String)
  | list (items : List Document)
  | object (fields : List (String × Document))

namespace Document

def hexByte (n : Nat) : List Char := [Nat.digitChar (n / 16), Nat.digitChar (n % 16)]

def escapedChar (c : Char) : List Char :=
  if c = '"' then ['\\', '"']
  else if c = '\\' then ['\\', '\\']
  else if c = '\n' then ['\\', 'n']
  else if c = '\r' then ['\\', 'r']
  else if c = '\t' then ['\\', 't']
  else if c.toNat = 8 then ['\\', 'b']
  else if c.toNat = 12 then ['\\', 'f']
  else if c.toNat < 32 then ['\\', 'u', '0', '0'] ++ hexByte c.toNat
  else [c]

def stringText (s : String) : String :=
  String.ofList ('"' :: s.toList.flatMap escapedChar ++ ['"'])

mutual

def text : Document → String
  | .null => "null"
  | .bool true => "true"
  | .bool false => "false"
  | .int n => toString n
  | .string s => stringText s
  | .list items => "[" ++ String.intercalate "," (itemTexts items) ++ "]"
  | .object fields => "\x7b" ++ String.intercalate "," (fieldTexts fields) ++ "\x7d"

def itemTexts : List Document → List String
  | [] => []
  | item :: rest => item.text :: itemTexts rest

def fieldTexts : List (String × Document) → List String
  | [] => []
  | (name, field) :: rest => (stringText name ++ ":" ++ field.text) :: fieldTexts rest

end

end Document

end ScalarScript
