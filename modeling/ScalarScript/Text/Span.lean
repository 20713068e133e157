set_option autoImplicit false

namespace ScalarScript

/-- The half-open stretch `[start, start + length)` of a text, in UTF-8 bytes from its start. The
positions are natural numbers. They are exact for texts shorter than `2 ^ 32` bytes; in a longer one
positions of 32 bits would wrap around. -/
structure Span where
  start : Nat
  length : Nat
  deriving DecidableEq, Repr

namespace Span

def stop (s : Span) : Nat := s.start + s.length

/-- From `first` up to, not including, `last`; empty when `last` comes before `first`. -/
def between (first last : Nat) : Span := ⟨first, last - first⟩

def emptyAt (position : Nat) : Span := ⟨position, 0⟩

def isEmpty (s : Span) : Bool := s.length == 0

def union (s t : Span) : Span := between (min s.start t.start) (max s.stop t.stop)

/-- Written with a square bracket at the end that belongs to it and a round one at the end that does
not. -/
def brackets (s : Span) : String := s!"[{s.start}, {s.stop})"

def ends (s : Span) : String := s!"{s.start}..{s.stop}"

@[simp] theorem stop_emptyAt (p : Nat) : (emptyAt p).stop = p := rfl

theorem stop_between {first last : Nat} (h : first ≤ last) : (between first last).stop = last := by
  simp only [between, stop]; omega

theorem start_union (s t : Span) : (s.union t).start = min s.start t.start := rfl

theorem stop_union (s t : Span) : (s.union t).stop = max s.stop t.stop := by
  simp only [union, between, stop]; omega

theorem union_comm (s t : Span) : s.union t = t.union s := by
  simp only [union, Nat.min_comm, Nat.max_comm]

end Span

namespace Text

def byteLength : List Char → Nat
  | [] => 0
  | c :: rest => c.utf8Size + byteLength rest

theorem byteLength_append (cs ds : List Char) :
    byteLength (cs ++ ds) = byteLength cs + byteLength ds := by
  induction cs with
  | nil => simp [byteLength]
  | cons c cs ih => simp only [List.cons_append, byteLength, ih]; omega

end Text

end ScalarScript
