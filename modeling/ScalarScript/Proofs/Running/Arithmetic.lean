import Mathlib.Data.Int.ModEq
import ScalarScript.Proofs.Names.References
import ScalarScript.Proofs.Running.Triple

/-!
Integers of 64 bits beside all integers. Signs, sums, differences and products keep the remainder
modulo 2 to the power of 64, so a term made of them has the value that it has in the integers
wherever there is room for it, whatever came in between. Division cuts off toward zero; it fails for
the divisor zero alone, and there is one quotient it has no room for.
-/

set_option autoImplicit false

namespace ScalarScript

def UnaryOperation.integer? : UnaryOperation → Int → Option Int
  | .identity, i => some i
  | .negation, i => some (-i)
  | .logicalNegation, _ => none

/-- What an operation gives in the integers, if it does to integers what arithmetic does, other than
dividing. -/
def BinaryOperation.integer? : BinaryOperation → Int → Int → Option Int
  | .addition, i, j => some (i + j)
  | .subtraction, i, j => some (i - j)
  | .multiplication, i, j => some (i * j)
  | _, _, _ => none

def Term.integer? (store : Store) : Term → Option Int
  | .literal value => value.asInt?.map Int64.toInt
  | .variable v => ((store.get? v).bind Value.asInt?).map Int64.toInt
  | .unary operator operand => do operator.operation.integer? (← operand.integer? store)
  | .binary left operator right => do
    operator.operation.integer? (← left.integer? store) (← right.integer? store)
  | _ => none

/-- Terms made of literals and variables for integers with signs, sums, differences and products. -/
inductive Term.Arithmetic : Term → Prop where
  | literal (n : Int64) : Arithmetic (.literal (.int n))
  | variable {v : Variable} (h : v.type = .int) : Arithmetic (.variable v)
  | unary {operator : UnaryOperator} {operand : Term}
    (h : operator.operation ∈ [.identity, .negation]) (ho : Arithmetic operand) :
    Arithmetic (.unary operator operand)
  | binary {left right : Term} {operator : BinaryOperator}
    (h : operator.operation ∈ [.addition, .subtraction, .multiplication])
    (hl : Arithmetic left) (hr : Arithmetic right) : Arithmetic (.binary left operator right)

section Numbers

variable {n k : Int64} {i j : Int}

theorem toInt_of_modEq (h : n.toInt ≡ i [ZMOD 2 ^ 64]) (hmin : Int64.minValue.toInt ≤ i)
    (hmax : i ≤ Int64.maxValue.toInt) : n.toInt = i := by
  have hlt := n.toInt_lt
  have hle := n.le_toInt
  rw [Int64.toInt_minValue] at hmin
  rw [Int64.toInt_maxValue] at hmax
  rw [Int.ModEq] at h
  omega

theorem eq_of_modEq (hn : n.toInt ≡ i [ZMOD 2 ^ 64]) (hk : k.toInt ≡ i [ZMOD 2 ^ 64]) : k = n := by
  have hbounds := And.intro n.minValue_le_toInt n.toInt_le
  exact Int64.toInt_inj.mp (toInt_of_modEq (hk.trans hn.symm) hbounds.1 hbounds.2)

theorem bmod_modEq (i : Int) : i.bmod (2 ^ 64) ≡ i [ZMOD 2 ^ 64] := Int.bmod_emod

theorem UnaryOperation.apply_modEq {operation : UnaryOperation}
    (h : operation ∈ [.identity, .negation]) (hn : n.toInt ≡ i [ZMOD 2 ^ 64]) :
    ∃ j m, operation.integer? i = some j ∧ operation.apply (.int n) = .ok (.int m) ∧
      m.toInt ≡ j [ZMOD 2 ^ 64] := by
  cases operation with
  | identity => exact ⟨i, n, rfl, rfl, hn⟩
  | negation =>
    refine ⟨-i, -n, rfl, rfl, ?_⟩
    rw [Int64.toInt_neg]
    exact (bmod_modEq _).trans hn.neg
  | logicalNegation => simp at h

theorem BinaryOperation.apply_modEq {operation : BinaryOperation}
    (h : operation ∈ [.addition, .subtraction, .multiplication]) (hn : n.toInt ≡ i [ZMOD 2 ^ 64])
    (hk : k.toInt ≡ j [ZMOD 2 ^ 64]) :
    ∃ l m, operation.integer? i j = some l ∧ operation.apply (.int n) (.int k) = .ok (.int m) ∧
      m.toInt ≡ l [ZMOD 2 ^ 64] := by
  cases operation with
  | addition =>
    refine ⟨i + j, n + k, rfl, rfl, ?_⟩
    rw [Int64.toInt_add]
    exact (bmod_modEq _).trans (hn.add hk)
  | subtraction =>
    refine ⟨i - j, n - k, rfl, rfl, ?_⟩
    rw [Int64.toInt_sub]
    exact (bmod_modEq _).trans (hn.sub hk)
  | multiplication =>
    refine ⟨i * j, n * k, rfl, rfl, ?_⟩
    rw [Int64.toInt_mul]
    exact (bmod_modEq _).trans (hn.mul hk)
  | _ => simp at h

/-- The quotient of the least number by -1 has no room. -/
theorem toInt_div (a b : Int64) :
    (a / b).toInt =
      if a = Int64.minValue ∧ b = -1 then Int64.minValue.toInt else a.toInt.tdiv b.toInt := by
  split
  · rename_i h
    rw [h.1, h.2, Int64.minValue_div_neg_one]
  · rename_i h
    by_cases ha : a = Int64.minValue
    · exact Int64.toInt_div_of_ne_right a b fun hb => h ⟨ha, hb⟩
    · exact Int64.toInt_div_of_ne_left a b ha

end Numbers

namespace Term

variable {m m' m'' : Machine} {left right operand : Term}

theorem evaluate_unary (operator : UnaryOperator) {value result : Value}
    (ho : Eval.value operand.evaluate m = (.ok value, m'))
    (happly : operator.operation.apply value = .ok result) :
    (Term.unary operator operand).evaluate m = (.ok (some result), m') := by
  refine (Eval.bind_of_ok ho).trans (Eval.bind_of_ok (a := result) (n := m') ?_)
  rw [happly]
  rfl

theorem evaluate_binary (operator : BinaryOperator) {l r : Value}
    (hl : Eval.value left.evaluate m = (.ok l, m'))
    (hr : Eval.value right.evaluate m' = (.ok r, m'')) :
    (Term.binary left operator right).evaluate m =
      (((operator.operation.apply l r).mapError Halt.failed).map some, m'') := by
  refine (Eval.bind_of_ok hl).trans ((Eval.bind_of_ok hr).trans ?_)
  cases operator.operation.apply l r with
  | ok value => rfl
  | error e => rfl

theorem value_of_evaluate {t : Term} {value : Value} (h : t.evaluate m = (.ok (some value), m')) :
    Eval.value t.evaluate m = (.ok value, m') := Eval.bind_of_ok h

/-- Where its variables have values of their types, an arithmetic term has a value, and its exact
value has the same remainder. -/
theorem Arithmetic.evaluate {t : Term} (ht : t.Arithmetic)
    (hv : ∀ v ∈ t.references, ∃ value, m.store.get? v = some value ∧ value.ty = v.type) :
    ∃ i n, t.integer? m.store = some i ∧ t.evaluate m = (.ok (some (.int n)), m) ∧
      n.toInt ≡ i [ZMOD 2 ^ 64] := by
  induction ht with
  | literal n => exact ⟨n.toInt, n, rfl, rfl, .rfl⟩
  | @«variable» v h =>
    obtain ⟨value, hvalue, hty⟩ := hv v (List.mem_singleton_self v)
    have hload : Eval.load v m = (.ok value, m) := by rw [Eval.load, hvalue]
    cases value with
    | int n =>
      refine ⟨n.toInt, n, ?_, Eval.bind_of_ok hload, .rfl⟩
      rw [integer?, hvalue]
      rfl
    | bool b => cases hty.trans h
    | string s => cases hty.trans h
  | unary h ho ih =>
    obtain ⟨i, n, hinteger, heval, hn⟩ := ih hv
    obtain ⟨j, k, hj, happly, hk⟩ := UnaryOperation.apply_modEq h hn
    refine ⟨j, k, ?_, evaluate_unary _ (value_of_evaluate heval) happly, hk⟩
    rw [integer?, hinteger]
    exact hj
  | binary h hl hr ihl ihr =>
    simp only [references, List.forall_mem_append] at hv
    obtain ⟨i, n, hi, hevall, hn⟩ := ihl hv.1
    obtain ⟨j, k, hj, hevalr, hk⟩ := ihr hv.2
    obtain ⟨l, p, hl, happly, hp⟩ := BinaryOperation.apply_modEq h hn hk
    refine ⟨l, p, ?_, ?_, hp⟩
    · rw [integer?, hi, hj]
      exact hl
    · rw [evaluate_binary _ (value_of_evaluate hevall) (value_of_evaluate hevalr), happly]
      rfl

theorem evaluate_division {operator : BinaryOperator} (hop : operator.operation = .division)
    {a b : Int64} (hl : Eval.value left.evaluate m = (.ok (.int a), m'))
    (hr : Eval.value right.evaluate m' = (.ok (.int b), m'')) :
    (Term.binary left operator right).evaluate m =
      (if b = 0 then .error (.failed .divisionByZero) else .ok (some (.int (a / b))), m'') := by
  rw [evaluate_binary operator hl hr, hop, BinaryOperation.apply_division]
  split <;> rfl

/-- Where their variables have values of their types, arithmetic terms of any size have values: the
one number of 64 bits that has the remainder of the exact value, which is the exact value itself if
there is room for it. And of two numbers the quotient is the exact one, cut off toward zero, but for
that of the least number by -1; there is an error exactly for the divisor zero. -/
theorem arithmetic_exact :
    (∀ (t : Term) (m : Machine), t.Arithmetic →
      (∀ v ∈ t.references, ∃ value, m.store.get? v = some value ∧ value.ty = v.type) →
      ∃ i n, t.integer? m.store = some i ∧ t.evaluate m = (.ok (some (.int n)), m) ∧
        n.toInt ≡ i [ZMOD 2 ^ 64] ∧ (∀ k : Int64, k.toInt ≡ i [ZMOD 2 ^ 64] → k = n) ∧
        (Int64.minValue.toInt ≤ i → i ≤ Int64.maxValue.toInt → n.toInt = i)) ∧
    ∀ (left right : Term) (operator : BinaryOperator) (m m' m'' : Machine) (a b : Int64),
      operator.operation = .division →
      Eval.value left.evaluate m = (.ok (.int a), m') →
      Eval.value right.evaluate m' = (.ok (.int b), m'') →
      ((Term.binary left operator right).evaluate m =
        (.error (.failed .divisionByZero), m'') ↔ b = 0) ∧
      (b ≠ 0 → ∃ q : Int64,
        (Term.binary left operator right).evaluate m = (.ok (some (.int q)), m'') ∧
        q.toInt =
          if a = Int64.minValue ∧ b = -1 then Int64.minValue.toInt else a.toInt.tdiv b.toInt) := by
  constructor
  · intro t m ht hv
    obtain ⟨i, n, hinteger, heval, hn⟩ := ht.evaluate hv
    exact ⟨i, n, hinteger, heval, hn, fun k hk => eq_of_modEq hn hk, toInt_of_modEq hn⟩
  · intro left right operator m m' m'' a b hop hl hr
    have heval := evaluate_division hop hl hr
    by_cases hb : b = 0
    · rw [if_pos hb] at heval
      exact ⟨⟨fun _ => hb, fun _ => heval⟩, fun hne => absurd hb hne⟩
    · rw [if_neg hb] at heval
      refine ⟨⟨fun h => ?_, fun h => absurd h hb⟩, fun _ => ⟨a / b, heval, toInt_div a b⟩⟩
      rw [heval] at h
      cases h

/-- A sum goes over the greatest number and a difference comes back; the least number is divided by
-1, and 1 by zero. -/
theorem arithmetic_exact_at_the_ends :
    let x : Variable := ⟨⟨0, 0⟩, "x", false, .int⟩
    let m : Machine := ⟨⟨[(x, .int Int64.maxValue)]⟩, .ofLines [], none, none, none⟩
    let number (n : Int64) : Term := .literal (.int n)
    let plus : BinaryOperator := ⟨.plus, .addition, .int, .int, .int⟩
    let minus : BinaryOperator := ⟨.minus, .subtraction, .int, .int, .int⟩
    let slash : BinaryOperator := ⟨.slash, .division, .int, .int, .int⟩
    let t : Term := .binary (.binary (.variable x) plus (number 1)) minus (number 1)
    t.Arithmetic ∧
      (∀ v ∈ t.references, ∃ value, m.store.get? v = some value ∧ value.ty = v.type) ∧
      (∃ n : Int64, t.evaluate m = (.ok (some (.int n)), m) ∧ n.toInt = 9223372036854775807) ∧
      (∃ q : Int64, (Term.binary (number Int64.minValue) slash (number (-1))).evaluate m =
        (.ok (some (.int q)), m) ∧ q.toInt = -9223372036854775808) ∧
      (Term.binary (number 1) slash (number 0)).evaluate m =
        (.error (.failed .divisionByZero), m) := by
  intro x m number plus minus slash t
  have ht : t.Arithmetic :=
    .binary (by decide) (.binary (by decide) (.variable rfl) (.literal 1)) (.literal 1)
  have hv : ∀ v ∈ t.references, ∃ value, m.store.get? v = some value ∧ value.ty = v.type := by
    intro v hv
    obtain rfl := List.mem_singleton.mp hv
    exact ⟨.int Int64.maxValue, rfl, rfl⟩
  obtain ⟨i, n, hi, heval, -, -, hfits⟩ := arithmetic_exact.1 t m ht hv
  obtain rfl : i = 9223372036854775807 := (Option.some.inj hi).symm
  have hdivision := arithmetic_exact.2 (number Int64.minValue) (number (-1)) slash m m m
    Int64.minValue (-1) rfl rfl rfl
  have hzero := arithmetic_exact.2 (number 1) (number 0) slash m m m 1 0 rfl rfl rfl
  obtain ⟨q, hq, hquotient⟩ := hdivision.2 (by decide)
  exact ⟨ht, hv, ⟨n, heval, hfits (by decide) (by decide)⟩, ⟨q, hq, hquotient⟩, hzero.1.mpr rfl⟩

end Term

end ScalarScript
