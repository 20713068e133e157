import Mathlib.Data.List.Basic
import ScalarScript.Proofs.Running.Triple

/-!
Loops over a range. Both bounds are evaluated before the first round, and the numbers of the rounds
are those from the one bound to the other: whatever a round does to the store, the next one begins
with the next number, and only a round that halts ends the loop before all of them were taken.
-/

set_option autoImplicit false

namespace ScalarScript

namespace Eval

/-- A body is run for the numbers of a list in turn, each time with the variable set to the number.
A run of the body that halts is the last. -/
inductive RunsFor (v : Variable) (body : Eval Unit) :
    List Int64 → Machine → Except Halt Unit → Machine → Prop where
  | done (m : Machine) : RunsFor v body [] m (.ok ()) m
  | next {i : Int64} {rest : List Int64} {m m' n : Machine} {result : Except Halt Unit}
    (hb : body { m with store := m.store.insert v (.int i) } = (.ok (), m'))
    (h : RunsFor v body rest m' result n) : RunsFor v body (i :: rest) m result n
  | halts {i : Int64} {m n : Machine} {halt : Halt} (rest : List Int64)
    (hb : body { m with store := m.store.insert v (.int i) } = (.error halt, n)) :
    RunsFor v body (i :: rest) m (.error halt) n

def numbersFrom : Nat → Int64 → List Int64
  | 0, _ => []
  | count + 1, n => n :: numbersFrom count (n + 1)

theorem toInt_add_one {n : Int64} (h : n.toInt < Int64.maxValue.toInt) :
    (n + 1).toInt = n.toInt + 1 := by
  have hmax := Int64.toInt_maxValue
  have hmin := n.le_toInt
  rw [Int64.toInt_add, Int64.toInt_one]
  exact Int.bmod_eq_of_le (by omega) (by omega)

theorem toInt_numbersFrom (count : Nat) (n : Int64)
    (h : n.toInt + count ≤ Int64.maxValue.toInt + 1) :
    (numbersFrom count n).map Int64.toInt = (List.range count).map fun k : Nat => n.toInt + k := by
  induction count generalizing n with
  | zero => rfl
  | succ count ih =>
    rw [numbersFrom, List.map_cons, List.range_succ_eq_map, List.map_cons, List.map_map]
    refine List.cons_eq_cons.mpr ⟨by simp, ?_⟩
    cases count with
    | zero => rfl
    | succ count =>
      have hnext : (n + 1).toInt = n.toInt + 1 := toInt_add_one (by omega)
      rw [ih (n + 1) (by omega), hnext]
      refine List.map_congr_left fun k _ => ?_
      simp only [Function.comp_apply, Nat.succ_eq_add_one]
      omega

theorem runsFor_countUp (v : Variable) (body : Eval Unit) (count : Nat) (n : Int64) (m : Machine) :
    RunsFor v body (numbersFrom count n) m (countUp v body count n m).1
      (countUp v body count n m).2 := by
  induction count generalizing n m with
  | zero => exact .done m
  | succ count ih =>
    unfold countUp
    cases hb : body { m with store := m.store.insert v (.int n) } with
    | mk result m' =>
      cases result with
      | ok _ => exact .next hb (ih (n + 1) m')
      | error halt => exact .halts _ hb

variable {v : Variable} {body : Eval Unit}

theorem RunsFor.unique {is : List Int64} {m n n' : Machine} {result result' : Except Halt Unit}
    (h : RunsFor v body is m result n) (h' : RunsFor v body is m result' n') :
    (result, n) = (result', n') := by
  induction h with
  | done m =>
    cases h'
    rfl
  | next hb _ ih =>
    cases h' with
    | next hb' h' =>
      rw [hb] at hb'
      cases hb'
      exact ih h'
    | halts rest hb' =>
      rw [hb] at hb'
      cases hb'
  | halts rest hb =>
    cases h' with
    | next hb' h' =>
      rw [hb] at hb'
      cases hb'
    | halts rest hb' =>
      rw [hb] at hb'
      cases hb'
      rfl

theorem countUp_iff {count : Nat} {n : Int64} {m m' : Machine} {result : Except Halt Unit} :
    countUp v body count n m = (result, m') ↔
      RunsFor v body (numbersFrom count n) m result m' := by
  have hruns := runsFor_countUp v body count n m
  constructor
  · intro h
    rwa [h] at hruns
  · exact hruns.unique

end Eval

open Eval

namespace Action

variable {v : Variable} {lower upper : Term} {rounds : Nat} {m m₁ m₂ : Machine} {first last : Int64}

/-- If first the lower bound and then the upper one has a number for its value, the loop comes to
what the runs of its body come to for the numbers from the lower bound to the upper one, in their
order, from the state behind the upper bound on. -/
theorem run_forLoop (body : Action) (hl : Eval.int lower.evaluate m = (.ok first, m₁))
    (hu : Eval.int upper.evaluate m₁ = (.ok last, m₂)) :
    ∃ is : List Int64,
      is.map Int64.toInt =
        (List.range (last.toInt - first.toInt + 1).toNat).map (fun k : Nat => first.toInt + k) ∧
      ∀ result n, (Action.forLoop v lower upper body).run rounds m = (result, n) ↔
        RunsFor v (body.run rounds) is m₂ result n := by
  refine ⟨numbersFrom (rangeLength first last) first, ?_, fun result n => ?_⟩
  · refine toInt_numbersFrom _ first ?_
    have hlast := last.toInt_lt
    have hfirst := first.toInt_lt
    rw [rangeLength, Int64.toInt_maxValue]
    omega
  · have hrun : (Action.forLoop v lower upper body).run rounds m =
        countUp v (body.run rounds) (rangeLength first last) first m₂ :=
      (bind_of_ok hl).trans (bind_of_ok hu)
    rw [hrun]
    exact countUp_iff

/-- The last two numbers there are, with a body that assigns to the variable of the loop and to the
one that its upper bound reads. -/
theorem run_forLoop_greatest :
    let i : Variable := ⟨⟨0, 1⟩, "i", true, .int⟩
    let n : Variable := ⟨⟨0, 0⟩, "n", false, .int⟩
    let zero : Term := .literal (.int 0)
    let body : Action := .block [.expression (.assignment n zero), .expression (.assignment i zero)]
    let start : Machine := ⟨⟨[(n, .int Int64.maxValue)]⟩, .ofLines [], none, none, none⟩
    let finish : Machine :=
      ⟨⟨[(n, .int 0), (i, .int 0)]⟩, .ofLines [], none, none, some (.int 0)⟩
    Eval.int (Term.literal (.int 9223372036854775806)).evaluate start =
        (.ok 9223372036854775806, start) ∧
      Eval.int (Term.variable n).evaluate start = (.ok Int64.maxValue, start) ∧
      ∃ is : List Int64, is.map Int64.toInt = [9223372036854775806, 9223372036854775807] ∧
        RunsFor i (body.run 0) is start (.ok ()) finish := by
  intro i n zero body start finish
  have hl : Eval.int (Term.literal (.int 9223372036854775806)).evaluate start =
      (.ok 9223372036854775806, start) := rfl
  have hu : Eval.int (Term.variable n).evaluate start = (.ok Int64.maxValue, start) := rfl
  obtain ⟨is, his, hruns⟩ := @run_forLoop i _ _ 0 _ _ _ _ _ body hl hu
  have hrun : (Action.forLoop i (.literal (.int 9223372036854775806)) (.variable n) body).run 0
      start = (.ok (), finish) := by decide +kernel
  exact ⟨hl, hu, is, his, (hruns _ _).mp hrun⟩

end Action

end ScalarScript
