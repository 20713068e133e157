/-!
Random numbers from a seed. The seed is expanded into a key, the key into a stream of words by
twelve rounds of ChaCha over a block counter, and each draw below a bound takes words from the
stream until one is accepted. A draw is thus a function of the seed and of how many words were taken
before.
-/

set_option autoImplicit false

namespace ScalarScript

namespace Random

def rotateLeft (x : UInt32) (n : UInt32) : UInt32 := (x <<< n) ||| (x >>> (32 - n))

def rotateRight (x : UInt32) (n : UInt32) : UInt32 := (x >>> n) ||| (x <<< ((32 - n) % 32))

structure Lane where
  w : UInt32
  x : UInt32
  y : UInt32
  z : UInt32
  deriving DecidableEq, Repr

namespace Lane

def zip (f : UInt32 → UInt32 → UInt32) (a b : Lane) : Lane :=
  ⟨f a.w b.w, f a.x b.x, f a.y b.y, f a.z b.z⟩

def turn (n : UInt32) (a : Lane) : Lane :=
  ⟨rotateLeft a.w n, rotateLeft a.x n, rotateLeft a.y n, rotateLeft a.z n⟩

def shift (a : Lane) : Lane := ⟨a.x, a.y, a.z, a.w⟩

def toList (a : Lane) : List UInt32 := [a.w, a.x, a.y, a.z]

end Lane

structure Block where
  a : Lane
  b : Lane
  c : Lane
  d : Lane
  deriving DecidableEq, Repr

namespace Block

def zip (f : UInt32 → UInt32 → UInt32) (s t : Block) : Block :=
  ⟨s.a.zip f t.a, s.b.zip f t.b, s.c.zip f t.c, s.d.zip f t.d⟩

def toList (s : Block) : List UInt32 := s.a.toList ++ s.b.toList ++ s.c.toList ++ s.d.toList

def mixColumns (s : Block) : Block :=
  let a := s.a.zip (· + ·) s.b
  let d := (s.d.zip (· ^^^ ·) a).turn 16
  let c := s.c.zip (· + ·) d
  let b := (s.b.zip (· ^^^ ·) c).turn 12
  let a := a.zip (· + ·) b
  let d := (d.zip (· ^^^ ·) a).turn 8
  let c := c.zip (· + ·) d
  let b := (b.zip (· ^^^ ·) c).turn 7
  ⟨a, b, c, d⟩

def skew (s : Block) : Block := ⟨s.a, s.b.shift, s.c.shift.shift, s.d.shift.shift.shift⟩

def unskew (s : Block) : Block := ⟨s.a, s.b.shift.shift.shift, s.c.shift.shift, s.d.shift⟩

def doubleRound (s : Block) : Block := s.mixColumns.skew.mixColumns.unskew

/-- The words of "expand 32-byte k". -/
def constants : Lane := ⟨0x61707865, 0x3320646E, 0x79622D32, 0x6B206574⟩

end Block

structure Key where
  low : Lane
  high : Lane
  deriving DecidableEq, Repr

namespace Key

def step (state : UInt64) : UInt64 := state * 6364136223846793005 + 11634580027462260723

def word (state : UInt64) : UInt32 :=
  rotateRight (((state >>> 18) ^^^ state) >>> 27).toUInt32 (state >>> 59).toUInt32

def ofSeed (seed : UInt64) : Key :=
  let s1 := step seed
  let s2 := step s1
  let s3 := step s2
  let s4 := step s3
  let s5 := step s4
  let s6 := step s5
  let s7 := step s6
  let s8 := step s7
  ⟨⟨word s1, word s2, word s3, word s4⟩, ⟨word s5, word s6, word s7, word s8⟩⟩

def block (key : Key) (counter : UInt64) : Block :=
  let start : Block :=
    ⟨Block.constants, key.low, key.high, ⟨counter.toUInt32, (counter >>> 32).toUInt32, 0, 0⟩⟩
  let mixed :=
    start.doubleRound.doubleRound.doubleRound.doubleRound.doubleRound.doubleRound
  mixed.zip (· + ·) start

/-- Word number `n` of the stream in 64 bits: two words of a block, the lower half first. -/
def word64 (key : Key) (n : Nat) : UInt64 :=
  let words := (key.block (UInt64.ofNat (n / 8))).toList.drop (2 * (n % 8))
  match words with
  | low :: high :: _ => low.toUInt64 ||| (high.toUInt64 <<< 32)
  | _ => 0

end Key

/-- How many of the words below 2^64, times the bound, are accepted by their lower half: a multiple
of the bound, so that no result is preferred, less one. -/
def zone (bound : Nat) : Nat := bound * Nat.pow 2 (63 - Nat.log2 bound) - 1

/-- The number below `bound` that word number `n` or the first accepted one after it gives, and the
number of the word after that. A word is refused with less than even odds; should all of `tries`
words be refused, the number is 0. -/
def drawFrom (key : Key) (bound : Nat) : Nat → Nat → Nat × Nat
  | 0, n => (0, n)
  | tries + 1, n =>
    let product := (key.word64 n).toNat * bound
    if product % UInt64.size ≤ zone bound then (product / UInt64.size, n + 1)
    else drawFrom key bound tries (n + 1)

end Random

/-- A source of random numbers: the key of its stream, and how many words were taken from it. -/
structure Generator where
  key : Random.Key
  taken : Nat
  deriving DecidableEq, Repr

namespace Generator

def ofSeed (seed : UInt64) : Generator := ⟨.ofSeed seed, 0⟩

def below (g : Generator) (bound : Nat) : Nat × Generator :=
  let (n, taken) := Random.drawFrom g.key bound 1000 g.taken
  (n, { g with taken })

end Generator

end ScalarScript
