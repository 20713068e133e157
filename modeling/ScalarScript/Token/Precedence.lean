import ScalarScript.Token.Basic

set_option autoImplicit false

namespace ScalarScript

/-- From the loosest to the tightest. No operator has the lowest. -/
inductive Precedence where
  | lowest
  | logicalOr
  | logicalAnd
  | comparison
  | additive
  | multiplicative
  | unary
  deriving DecidableEq, Repr

namespace Precedence

def level : Precedence → Nat
  | .lowest => 0
  | .logicalOr => 1
  | .logicalAnd => 2
  | .comparison => 3
  | .additive => 4
  | .multiplicative => 5
  | .unary => 6

def name : Precedence → String
  | .lowest => "Lowest"
  | .logicalOr => "LogicalOr"
  | .logicalAnd => "LogicalAnd"
  | .comparison => "Comparison"
  | .additive => "Additive"
  | .multiplicative => "Multiplicative"
  | .unary => "Unary"

theorem level_injective {p q : Precedence} (h : p.level = q.level) : p = q := by
  cases p <;> cases q <;> first | rfl | cases h

end Precedence

namespace TokenKind

def binaryPrecedence? : TokenKind → Option Precedence
  | .barBar => some .logicalOr
  | .ampersandAmpersand => some .logicalAnd
  | .equalsEquals | .exclamationEquals | .lessThan | .lessThanEquals | .greaterThan
  | .greaterThanEquals => some .comparison
  | .plus | .minus => some .additive
  | .asterisk | .slash => some .multiplicative
  | _ => none

def unaryPrecedence? : TokenKind → Option Precedence
  | .plus | .minus | .exclamation => some .unary
  | _ => none

theorem binaryPrecedence?_bounds {kind : TokenKind} {p : Precedence}
    (h : kind.binaryPrecedence? = some p) :
    Precedence.lowest.level < p.level ∧ p.level < Precedence.unary.level := by
  cases kind <;> simp [binaryPrecedence?] at h <;> subst h <;> decide

end TokenKind

end ScalarScript
