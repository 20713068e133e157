import ScalarScript.Text.Initial
import ScalarScript.Text.Medial
import ScalarScript.Text.Extending
import ScalarScript.Text.Unprintable

/-!
Classes of characters: which ones begin an identifier, stand in one, extend the character before
them, or can be printed as they are. Below U+0080 each class is given by a rule, above it by the
ranges of a Unicode property.
-/

set_option autoImplicit false

namespace ScalarScript.Text

def inRanges (ranges : List (Nat × Nat)) (n : Nat) : Bool :=
  ranges.any fun range => range.1 ≤ n && n ≤ range.2

def isAscii (c : Char) : Bool := c.toNat < 0x80

def isIdentifierStart (c : Char) : Bool :=
  if isAscii c then c == '_' || c.isAlpha else inRanges initialRanges c.toNat

def isIdentifierPart (c : Char) : Bool :=
  if isAscii c then c == '_' || c.isAlphanum
  else inRanges initialRanges c.toNat || inRanges medialRanges c.toNat

def isExtending (c : Char) : Bool := !isAscii c && inRanges extendingRanges c.toNat

/-- A character that shows a mark of its own; of the separators only the space does. -/
def isPrintable (c : Char) : Bool :=
  if isAscii c then 0x20 ≤ c.toNat && c.toNat < 0x7F else !inRanges unprintableRanges c.toNat

theorem isIdentifierPart_of_start {c : Char} (h : isIdentifierStart c = true) :
    isIdentifierPart c = true := by
  unfold isIdentifierStart at h
  unfold isIdentifierPart
  split at h <;> simp_all [Char.isAlphanum]
  rcases h with h | h <;> simp [h]

end ScalarScript.Text
