import ScalarScript.Proofs.Running.Stepping
import ScalarScript.Proofs.Running.Rounds

/-!
Programs that come to an end. Only a loop under a condition can go on for ever: a loop over a range
has its rounds counted before the first of them, whatever its body then does to the variables.
-/

set_option autoImplicit false

namespace ScalarScript

namespace Eval

variable {α β : Type}

def Ends (x : Eval α) : Prop :=
  Ensures (fun _ => True) x (fun _ _ => True) fun halt _ => halt ≠ .outOfFuel

theorem Ends.ne_outOfFuel {x : Eval α} (h : Ends x) (m : Machine) :
    (x m).1 ≠ .error .outOfFuel := by
  have hx := h m trivial
  match hxm : x m, hx with
  | (.ok a, n), _ => exact nofun
  | (.error halt, n), hhalt => exact fun heq => hhalt (Except.error.inj heq)

theorem ends_of_ok {x : Eval α} (h : ∀ m, ∃ a n, x m = (.ok a, n)) : Ends x := by
  intro m _
  obtain ⟨a, n, hx⟩ := h m
  rw [hx]
  trivial

theorem ends_pure (a : α) : Ends (pure a : Eval α) := fun _ _ => trivial

theorem ends_fail (error : RunError) : Ends (fail error : Eval α) := fun _ _ => nofun

theorem ends_lift (result : Except RunError α) : Ends (lift result) := by
  cases result with
  | ok a => exact fun _ _ => trivial
  | error e => exact fun _ _ => nofun

theorem ends_load (v : Variable) : Ends (load v) :=
  ensures_load v (fun _ _ _ _ => trivial) fun _ _ _ => nofun

theorem Ends.bind {x : Eval α} {f : α → Eval β} (hx : Ends x) (hf : ∀ a, Ends (f a)) :
    Ends (x >>= f) :=
  Ensures.bind hx hf

theorem Ends.value {x : Eval (Option Value)} (h : Ends x) : Ends (value x) :=
  h.bind fun o => by
    cases o with
    | none => exact ends_fail _
    | some value => exact ends_pure value

theorem Ends.int {x : Eval (Option Value)} (h : Ends x) : Ends (int x) :=
  h.value.bind fun value => ends_lift value.expectInt

theorem Ends.bool {x : Eval (Option Value)} (h : Ends x) : Ends (bool x) :=
  h.value.bind fun value => ends_lift value.expectBool

theorem ends_randomBelow (bound : Int64) : Ends (randomBelow bound) := by
  have hgenerator : Ends generator := ends_of_ok fun m => by
    unfold generator
    split <;> exact ⟨_, _, rfl⟩
  unfold randomBelow
  split
  · exact ends_fail _
  · split
    · exact ends_pure _
    · exact hgenerator.bind fun g => ends_of_ok fun m => ⟨_, _, rfl⟩

theorem ends_call (function : Function) {first : Option (Eval (Option Value))}
    (h : ∀ x, first = some x → Ends x) : Ends (call function first) := by
  unfold call
  split
  · exact ends_of_ok fun m => ⟨_, _, rfl⟩
  · split
    · cases first with
      | none => exact ends_fail _
      | some argument =>
        exact (h argument rfl).value.bind fun value => (ends_lift value.expectString).bind
          fun line => ends_of_ok fun m => ⟨_, _, rfl⟩
    · split
      · cases first with
        | none => exact ends_fail _
        | some argument =>
          exact (h argument rfl).int.bind fun bound =>
            (ends_randomBelow bound).bind fun _ => ends_pure _
      · exact ends_fail _

end Eval

open Eval

theorem Term.ends_evaluate : (t : Term) → Ends t.evaluate
  | .literal _ => ends_pure _
  | .variable v => (ends_load v).bind fun _ => ends_pure _
  | .assignment _ source =>
    source.ends_evaluate.value.bind fun _ => ends_of_ok fun _ => ⟨_, _, rfl⟩
  | .unary _ operand =>
    operand.ends_evaluate.value.bind fun _ => (ends_lift _).bind fun _ => ends_pure _
  | .binary left _ right =>
    left.ends_evaluate.value.bind fun _ => right.ends_evaluate.value.bind fun _ =>
      (ends_lift _).bind fun _ => ends_pure _
  | .call function [] => ends_call function nofun
  | .call function (first :: _) =>
    have hfirst := first.ends_evaluate
    ends_call function fun _ h => Option.some.inj h ▸ hfirst
  | .conversion _ source =>
    source.ends_evaluate.value.bind fun _ => (ends_lift _).bind fun _ => ends_pure _
  | .error => ends_fail _

mutual

def Action.isWhileFree : Action → Bool
  | .block actions => Action.areWhileFree actions
  | .declaration _ _ => true
  | .ifThen _ thenAction => thenAction.isWhileFree
  | .ifThenElse _ thenAction elseAction => thenAction.isWhileFree && elseAction.isWhileFree
  | .whileLoop _ _ => false
  | .forLoop _ _ _ body => body.isWhileFree
  | .expression _ => true

def Action.areWhileFree : List Action → Bool
  | [] => true
  | a :: rest => a.isWhileFree && Action.areWhileFree rest

end

mutual

theorem Action.ends_run (rounds : Nat) : (a : Action) → a.isWhileFree → Ends (a.run rounds)
  | .block actions, h => Action.ends_runAll rounds actions h
  | .declaration _ initializer, _ =>
    initializer.ends_evaluate.value.bind fun _ => ends_of_ok fun _ => ⟨_, _, rfl⟩
  | .ifThen condition thenAction, h =>
    condition.ends_evaluate.bool.bind fun b => by
      cases b with
      | true => exact thenAction.ends_run rounds h
      | false => exact ends_pure ()
  | .ifThenElse condition thenAction elseAction, h => by
    obtain ⟨hthen, helse⟩ := Bool.and_eq_true_iff.mp h
    refine condition.ends_evaluate.bool.bind fun b => ?_
    cases b with
    | true => exact thenAction.ends_run rounds hthen
    | false => exact elseAction.ends_run rounds helse
  | .forLoop v lower upper body, h =>
    lower.ends_evaluate.int.bind fun first => upper.ends_evaluate.int.bind fun last =>
      ensures_countUp (fun _ _ _ => trivial) (body.ends_run rounds h) (rangeLength first last) first
  | .expression t, _ => t.ends_evaluate.bind fun _ => ends_of_ok fun _ => ⟨_, _, rfl⟩

theorem Action.ends_runAll (rounds : Nat) : (actions : List Action) →
    Action.areWhileFree actions → Ends (Action.runAll rounds actions)
  | [], _ => ends_pure ()
  | a :: rest, h => by
    obtain ⟨ha, hrest⟩ := Bool.and_eq_true_iff.mp h
    exact (a.ends_run rounds ha).bind fun _ => Action.ends_runAll rounds rest hrest

end

theorem Action.execute_over {a : Action} {rounds : Nat} {store : Store} {host : Host}
    {seed : Option UInt64} (h : (a.execute rounds store host seed).result ≠ .error .outOfFuel) :
    ∃ n result m,
      Progress.step^[n] (.start a ⟨store, host, seed, none, none⟩) = .over result m ∧
      a.execute rounds store host seed =
        ⟨result.map fun _ => m.lastValue, m.store, m.host⟩ := by
  rw [execute_eq] at h ⊢
  cases hrun : a.run rounds ⟨store, host, seed, none, none⟩ with
  | mk result m =>
    rw [hrun] at h
    have hends : result ≠ .error .outOfFuel := by
      rintro rfl
      exact h rfl
    obtain ⟨n, hn⟩ := Progress.reaches_over hrun hends
    exact ⟨n, result, m, hn, rfl⟩

theorem exists_failed {α : Type} {result : Except Halt α} (h : result ≠ .error .outOfFuel) :
    ∃ result' : Except RunError α, result = Except.mapError Halt.failed result' :=
  match result, h with
  | .ok a, _ => ⟨.ok a, rfl⟩
  | .error (.failed e), _ => ⟨.error e, rfl⟩
  | .error .outOfFuel, h => absurd rfl h

/-- A program without loops under a condition is over after finitely many steps, with a value or an
error, whatever store, world and seed it is begun with. Its run needs no rounds at all: with any
number of them it gives what the steps have come to. -/
theorem Action.finishes {a : Action} (h : a.isWhileFree) (store : Store) (host : Host)
    (seed : Option UInt64) :
    ∃ n result m,
      Progress.step^[n] (.start a ⟨store, host, seed, none, none⟩) =
        .over (Except.mapError Halt.failed result) m ∧
      ∀ rounds, a.execute rounds store host seed =
        ⟨(Except.mapError Halt.failed result).map fun _ => m.lastValue, m.store, m.host⟩ := by
  have hends : (a.execute 0 store host seed).result ≠ .error .outOfFuel := by
    have hrun := (a.ends_run 0 h).ne_outOfFuel ⟨store, host, seed, none, none⟩
    rw [execute_eq]
    cases hresult : (a.run 0 ⟨store, host, seed, none, none⟩).1 with
    | ok _ => exact nofun
    | error halt => exact fun heq => hrun (by rw [hresult, Except.error.inj heq])
  obtain ⟨n, result, m, hn, hexecute⟩ := execute_over hends
  have hresult : result ≠ .error .outOfFuel := by
    rintro rfl
    exact hends (by rw [hexecute]; rfl)
  obtain ⟨result, rfl⟩ := exists_failed hresult
  exact ⟨n, result, m, hn, fun rounds =>
    (execute_of_le (Nat.zero_le rounds) hends).trans hexecute⟩

/-- A loop in a loop whose body assigns to the upper bound and to the variables of both loops; in
the end a number is divided by a text. -/
theorem Action.finishes_nested :
    let n : Variable := ⟨⟨0, 0⟩, "n", false, .int⟩
    let i : Variable := ⟨⟨0, 1⟩, "i", true, .int⟩
    let j : Variable := ⟨⟨0, 2⟩, "j", true, .int⟩
    let plus : BinaryOperator := ⟨.plus, .addition, .int, .int, .int⟩
    let slash : BinaryOperator := ⟨.slash, .division, .int, .int, .int⟩
    let more (v : Variable) : Action :=
      .expression (.assignment v (.binary (.variable v) plus (.literal (.int 1))))
    let inner : Action := .forLoop j (.variable i) (.variable n) (.block [more n, more i, more j])
    let a : Action := .block [.forLoop i (.literal (.int 1)) (.variable n) inner,
      .expression (.binary (.variable n) slash (.literal (.string "0")))]
    let store : Store := ⟨[(n, .int 3)]⟩
    a.isWhileFree ∧ ∃ k m,
      Progress.step^[k] (.start a ⟨store, .ofLines [], none, none, none⟩) =
        .over (.error (.failed (.typeMismatch "int" "string"))) m ∧
      ∀ rounds, a.execute rounds store (.ofLines []) none =
        ⟨.error (.failed (.typeMismatch "int" "string")), m.store, m.host⟩ := by
  intro n i j plus slash more inner a store
  have hfree : a.isWhileFree := by decide
  have hresult : (a.execute 0 store (.ofLines []) none).result =
      .error (.failed (.typeMismatch "int" "string")) := by decide +kernel
  obtain ⟨k, result, m, hsteps, hrounds⟩ := finishes hfree store (.ofLines []) none
  rw [hrounds 0] at hresult
  match result, hresult with
  | .error e, hresult =>
    cases hresult
    exact ⟨hfree, k, m, hsteps, hrounds⟩

end ScalarScript
