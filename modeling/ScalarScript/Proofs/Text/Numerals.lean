import Mathlib.Data.Nat.Digits.Defs
import ScalarScript.Text.Decimal

set_option autoImplicit false

namespace ScalarScript.Text

def decimal (digits : List Char) : Nat := Nat.ofDigits 10 (digits.map digitValue).reverse

def Digits (cs : List Char) : Prop := cs ≠ [] ∧ ∀ c ∈ cs, isDigit c = true

/-- Digits with at most one sign before them, and the integer they denote. -/
inductive Numeral : List Char → Int → Prop where
  | unsigned {digits : List Char} (h : Digits digits) : Numeral digits (decimal digits)
  | plus {digits : List Char} (h : Digits digits) : Numeral ('+' :: digits) (decimal digits)
  | minus {digits : List Char} (h : Digits digits) : Numeral ('-' :: digits) (-decimal digits)

variable {cs digits : List Char}

theorem not_digits_cons {c : Char} (hc : isDigit c = false) : ¬Digits (c :: cs) := by
  rintro ⟨-, h⟩
  rw [h c List.mem_cons_self] at hc
  cases hc

theorem numberOfDigits_eq (digits : List Char) : numberOfDigits digits = decimal digits := by
  rw [decimal, Nat.ofDigits_eq_foldr, List.foldr_reverse, List.foldl_map, numberOfDigits]
  simp only [Nat.cast_id, Nat.add_comm]

theorem map_natOfNumeral?_eq_some {f : Nat → Int} {i : Int} :
    (natOfNumeral? cs).map f = some i ↔ Digits cs ∧ f (decimal cs) = i := by
  simp [natOfNumeral?, Digits, numberOfDigits_eq]

theorem intOfNumeral?_eq_some {i : Int} : intOfNumeral? cs = some i ↔ Numeral cs i := by
  unfold intOfNumeral?
  constructor
  · intro h
    split at h <;> obtain ⟨hdigits, rfl⟩ := map_natOfNumeral?_eq_some.mp h
    · exact .plus hdigits
    · exact .minus hdigits
    · exact .unsigned hdigits
  · rintro (h | h | h)
    · split
      · exact absurd h (not_digits_cons rfl)
      · exact absurd h (not_digits_cons rfl)
      · exact map_natOfNumeral?_eq_some.mpr ⟨h, rfl⟩
    · exact map_natOfNumeral?_eq_some.mpr ⟨h, rfl⟩
    · exact map_natOfNumeral?_eq_some.mpr ⟨h, rfl⟩

theorem int64OfInt?_eq_some {i : Int} {n : Int64} : int64OfInt? i = some n ↔ n.toInt = i := by
  rw [int64OfInt?, Option.ite_none_right_eq_some, Option.some.injEq]
  constructor
  · rintro ⟨⟨hleast, hgreatest⟩, rfl⟩
    exact Int64.toInt_ofInt_of_le hleast (Int.lt_add_one_of_le hgreatest)
  · rintro rfl
    exact ⟨⟨n.le_toInt, Int.le_of_lt_add_one n.toInt_lt⟩, n.ofInt_toInt⟩

/-- What is read as a number of 64 bits with sign is a numeral that denotes the number. -/
theorem int64OfNumeral?_eq_some {n : Int64} :
    int64OfNumeral? cs = some n ↔ Numeral cs n.toInt := by
  rw [int64OfNumeral?, Option.bind_eq_some_iff]
  simp only [intOfNumeral?_eq_some, int64OfInt?_eq_some, exists_eq_right']

theorem Numeral.unique {i j : Int} (h : Numeral cs i) (h' : Numeral cs j) : i = j :=
  Option.some.inj ((intOfNumeral?_eq_some.mpr h).symm.trans (intOfNumeral?_eq_some.mpr h'))

theorem int64OfNumeral?_digits (h : Digits digits) {n : Int64} :
    int64OfNumeral? digits = some n ↔ n.toInt = decimal digits := by
  rw [int64OfNumeral?_eq_some]
  refine ⟨fun hn => hn.unique (.unsigned h), fun hn => ?_⟩
  rw [hn]
  exact .unsigned h

/-- Digits are refused exactly when there is no room for their number. -/
theorem int64OfNumeral?_eq_none (h : Digits digits) :
    int64OfNumeral? digits = none ↔ 2 ^ 63 ≤ decimal digits := by
  rw [Option.eq_none_iff_forall_ne_some]
  simp only [ne_eq, int64OfNumeral?_digits h]
  constructor
  · intro hnone
    by_contra hless
    have hroom := Int64.toInt_ofInt_of_le (n := decimal digits) (by omega) (by omega)
    exact hnone _ hroom
  · intro hle n hn
    have hroom := n.toInt_lt
    omega

theorem digits_toDigits (n : Nat) : Digits (Nat.toDigits 10 n) :=
  ⟨Nat.toDigits_ne_nil, fun _ hc => Nat.isDigit_of_mem_toDigits (by decide) (by decide) hc⟩

theorem decimal_toDigits (n : Nat) : decimal (Nat.toDigits 10 n) = n := by
  have h := Nat.ofDigitChars_eq_foldl.symm.trans (Nat.ofDigitChars_ten_toDigits (n := n))
  rwa [← numberOfDigits_eq]

theorem numeral_toString (i : Int) : Numeral (toString i).toList i := by
  cases i with
  | ofNat n =>
    have htext : (toString (Int.ofNat n)).toList = Nat.toDigits 10 n := String.toList_ofList
    have h := Numeral.unsigned (digits_toDigits n)
    rwa [decimal_toDigits, ← htext] at h
  | negSucc n =>
    have htext : (toString (Int.negSucc n)).toList = '-' :: Nat.toDigits 10 (n + 1) := by
      rw [show toString (Int.negSucc n) = "-" ++ String.ofList (Nat.toDigits 10 (n + 1)) from rfl]
      simp
    have h := Numeral.minus (digits_toDigits (n + 1))
    rwa [decimal_toDigits, ← htext] at h

end ScalarScript.Text
