import ScalarScript.Text.Span
import ScalarScript.Text.Decimal

/-!
Reading JSON from left to right, by readers that know what they expect. The first trouble met
decides: the text ends too early, it is no JSON, or it is JSON that does not fit what is expected.
-/

set_option autoImplicit false

namespace ScalarScript

open Text

inductive Trouble where
  | incomplete
  | malformed
  | unfit
  deriving DecidableEq, Repr

abbrev JsonReader (α : Type) := StateT (List Char) (Except Trouble) α

namespace JsonReader

def isBlank (c : Char) : Bool := c == ' ' || c == '\n' || c == '\t' || c == '\r'

def peek? : JsonReader (Option Char) := do
  modify (·.dropWhile isBlank)
  return (← get).head?

def peek : JsonReader Char := do
  match ← peek? with
  | some c => return c
  | none => throw .incomplete

def skip : JsonReader Unit := modify (·.drop 1)

def exactly : List Char → JsonReader Unit
  | [] => return
  | c :: rest => do
    match (← get).head? with
    | none => throw .incomplete
    | some d =>
      if d ≠ c then throw .malformed
      skip
      exactly rest

def hexDigit? (c : Char) : Option Nat :=
  if isDigit c then some (digitValue c)
  else if 'a' ≤ c ∧ c ≤ 'f' then some (c.toNat - 'a'.toNat + 10)
  else if 'A' ≤ c ∧ c ≤ 'F' then some (c.toNat - 'A'.toNat + 10)
  else none

/-- Four hexadecimal digits. The text is too short for them if it has less than four bytes. -/
def hexFour : JsonReader Nat := do
  let cs ← get
  if byteLength cs < 4 then throw .incomplete
  match (cs.take 4).mapM hexDigit? with
  | some digits =>
    set (cs.drop 4)
    return digits.foldl (fun n d => 16 * n + d) 0
  | none => throw .malformed

def anyChar : JsonReader Char := do
  match ← get with
  | [] => throw .incomplete
  | c :: rest =>
    set rest
    return c

def lowSurrogate : JsonReader Nat := do
  if (← anyChar) ≠ '\\' then throw .malformed
  if (← anyChar) ≠ 'u' then throw .malformed
  let unit ← hexFour
  if unit < 0xDC00 ∨ 0xDFFF < unit then throw .malformed
  return unit

/-- The character that an escape stands for, after its backslash. A character above U+FFFF is
written as a pair of code units, and neither stands alone. -/
def escape : JsonReader Char := do
  match ← anyChar with
  | '"' => return '"'
  | '\\' => return '\\'
  | '/' => return '/'
  | 'b' => return Char.ofNat 8
  | 'f' => return Char.ofNat 12
  | 'n' => return '\n'
  | 'r' => return '\r'
  | 't' => return '\t'
  | 'u' =>
    let unit ← hexFour
    if 0xDC00 ≤ unit ∧ unit ≤ 0xDFFF then throw .malformed
    if 0xD800 ≤ unit ∧ unit ≤ 0xDBFF then
      let low ← lowSurrogate
      return Char.ofNat (0x10000 + (unit - 0xD800) * 0x400 + (low - 0xDC00))
    return Char.ofNat unit
  | _ => throw .malformed

def stringWithin : Nat → JsonReader (List Char)
  | 0 => throw .incomplete
  | fuel + 1 => do
    let c ← anyChar
    if c = '"' then return []
    if c.toNat < 32 then throw .malformed
    let c ← if c = '\\' then escape else pure c
    return c :: (← stringWithin fuel)

def string : JsonReader String := do
  return String.ofList (← stringWithin ((← get).length + 1))

/-- The longest run of digits that, put after `n`, keeps it below 2^64: the number they make, how
many they are, and the rest. -/
def absorb (n : Nat) : List Char → Nat × Nat × List Char
  | [] => (n, 0, [])
  | c :: rest =>
    if isDigit c ∧ 10 * n + digitValue c < UInt64.size then
      let (m, count, rest) := absorb (10 * n + digitValue c) rest
      (m, count + 1, rest)
    else (n, 0, c :: rest)

def round53 (n : Nat) : Nat :=
  let unit := Nat.pow 2 (Nat.log2 n - 52)
  let quotient := n / unit
  let remainder := n % unit
  let up := unit < 2 * remainder ∨ (unit = 2 * remainder ∧ quotient % 2 = 1)
  (if up then quotient + 1 else quotient) * unit

/-- Whether a significand times a power of ten is too large for a number of double precision, where
both factors and the product are rounded. -/
def isTooLarge (significand : Nat) (exponent : Int) : Bool :=
  if significand = 0 ∨ exponent < 0 then false
  else if 308 < exponent then true
  else
    Nat.pow 2 1024 - Nat.pow 2 970 ≤ round53 significand * round53 (Nat.pow 10 exponent.toNat)

def exponent (significand : Nat) (before : Int) : JsonReader Unit := do
  let sign := (← get).head?
  if sign = some '+' ∨ sign = some '-' then skip
  let isNegative := sign = some '-'
  let cs ← get
  match cs.head? with
  | none => throw .incomplete
  | some c => if !isDigit c then throw .malformed
  set (cs.dropWhile isDigit)
  let power := numberOfDigits (cs.takeWhile isDigit)
  if 0x80000000 ≤ power then
    if significand ≠ 0 ∧ !isNegative then throw .malformed
  else
    let total := if isNegative then before - power else before + power
    if isTooLarge significand total then throw .malformed

def fraction (significand : Nat) (before : Int) : JsonReader (Nat × Int) := do
  let (n, count, rest) := absorb significand (← get)
  if count = 0 ∧ (rest.head?.all fun c => !isDigit c) then
    if rest.isEmpty then throw .incomplete else throw .malformed
  set (rest.dropWhile isDigit)
  return (n, before - count)

/-- A number after its sign: the natural number it is, if it has neither fraction nor exponent and
fits into 64 bits. -/
def magnitude : JsonReader (Option Nat) := do
  let cs ← get
  match cs with
  | [] => throw .incomplete
  | c :: rest =>
    if !isDigit c then throw .malformed
    if c = '0' ∧ rest.head?.any isDigit then throw .malformed
  let (n, _, rest) := absorb 0 cs
  let dropped := (rest.takeWhile isDigit).length
  set (rest.dropWhile isDigit)
  let point := (← get).head? = some '.'
  let (n, power) ← if point then (do skip; fraction n dropped) else pure (n, (dropped : Int))
  let letter := (← get).head?
  if letter = some 'e' ∨ letter = some 'E' then
    skip
    exponent n power
    return none
  if isTooLarge n power then throw .malformed
  return if point ∨ dropped ≠ 0 then none else some n

def number : JsonReader (Option Nat) := do
  if (← peek) = '-' then
    skip
    let _ ← magnitude
    return none
  magnitude

/-- What stands next does not fit. It is read as far as to tell that it is JSON. -/
def misfit {α : Type} : JsonReader α := do
  match (← get).head? with
  | some 'n' => exactly ['n', 'u', 'l', 'l']
  | some 't' => exactly ['t', 'r', 'u', 'e']
  | some 'f' => exactly ['f', 'a', 'l', 's', 'e']
  | some '"' =>
    skip
    let _ ← string
  | some '[' => pure ()
  | some '{' => pure ()
  | some c =>
    if c = '-' ∨ isDigit c then
      let _ ← number
    else throw .malformed
  | none => throw .malformed
  throw .unfit

def bool : JsonReader Bool := do
  match ← peek with
  | 't' =>
    exactly ['t', 'r', 'u', 'e']
    return true
  | 'f' =>
    exactly ['f', 'a', 'l', 's', 'e']
    return false
  | _ => misfit

def null : JsonReader Unit := do
  if (← peek) = 'n' then exactly ['n', 'u', 'l', 'l'] else misfit

def name : JsonReader String := do
  if (← peek) ≠ '"' then throw .malformed
  skip
  string

def natural : JsonReader Nat := do
  let c ← peek
  if c ≠ '-' ∧ !isDigit c then misfit
  match ← number with
  | some n => return n
  | none => throw .unfit

def optional {α : Type} (reader : JsonReader α) : JsonReader (Option α) := do
  if (← peek?) = some 'n' then
    exactly ['n', 'u', 'l', 'l']
    return none
  return some (← reader)

def colon : JsonReader Unit := do
  if (← peek) ≠ ':' then throw .malformed
  skip

/-- The name of the next field of an object, unless the object ends; it is the first one or follows
others. -/
def fieldName? (isFirst : Bool) : JsonReader (Option String) := do
  let c ← peek
  if c = '}' then
    skip
    return none
  if !isFirst then
    if c ≠ ',' then throw .malformed
    skip
  return some (← name)

def hasItem (isFirst : Bool) : JsonReader Bool := do
  let c ← peek
  if c = ']' then return false
  if !isFirst then
    if c ≠ ',' then throw .malformed
    skip
    if (← peek) = ']' then throw .malformed
  return true

def listEnd : JsonReader Unit := do
  if (← peek) ≠ ']' then throw .malformed
  skip

def textEnd : JsonReader Unit := do
  if (← peek?).isSome then throw .malformed

end JsonReader

end ScalarScript
