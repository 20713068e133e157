set_option autoImplicit false

namespace ScalarScript.Text

def isDigit (c : Char) : Bool := '0' ≤ c && c ≤ '9'

def digitValue (c : Char) : Nat := c.toNat - '0'.toNat

def numberOfDigits (digits : List Char) : Nat :=
  digits.foldl (fun n c => 10 * n + digitValue c) 0

/-- One or more digits and nothing else. -/
def natOfNumeral? (cs : List Char) : Option Nat :=
  if cs.isEmpty || !cs.all isDigit then none else some (numberOfDigits cs)

def intOfNumeral? : List Char → Option Int
  | '+' :: digits => (natOfNumeral? digits).map Int.ofNat
  | '-' :: digits => (natOfNumeral? digits).map fun n => -(Int.ofNat n)
  | digits => (natOfNumeral? digits).map Int.ofNat

def int64OfInt? (n : Int) : Option Int64 :=
  if -9223372036854775808 ≤ n ∧ n ≤ 9223372036854775807 then some (Int64.ofInt n) else none

def int64OfNumeral? (cs : List Char) : Option Int64 := (intOfNumeral? cs).bind int64OfInt?

end ScalarScript.Text
