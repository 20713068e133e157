import ScalarScript.Run.Evaluate

set_option autoImplicit false

namespace ScalarScript

inductive Term.Reads : Term → Machine → Variable → Machine → Prop where
  | variable (v : Variable) (m : Machine) : Reads (.variable v) m v m
  | assignment {target v : Variable} {source : Term} {m n : Machine} (h : Reads source m v n) :
      Reads (.assignment target source) m v n
  | unary {operator : UnaryOperator} {operand : Term} {m n : Machine} {v : Variable}
      (h : Reads operand m v n) : Reads (.unary operator operand) m v n
  | left {left right : Term} {operator : BinaryOperator} {m n : Machine} {v : Variable}
      (h : Reads left m v n) : Reads (.binary left operator right) m v n
  | right {left right : Term} {operator : BinaryOperator} {m m' n : Machine} {v : Variable}
      {value : Value} (hl : Eval.value left.evaluate m = (.ok value, m')) (h : Reads right m' v n) :
      Reads (.binary left operator right) m v n
  | argument {function : Function} {first : Term} {rest : List Term} {m n : Machine} {v : Variable}
      (h : Reads first m v n) : Reads (.call function (first :: rest)) m v n
  | conversion {target : Ty} {source : Term} {m n : Machine} {v : Variable}
      (h : Reads source m v n) : Reads (.conversion target source) m v n

namespace Eval

/-- A loop under a condition, begun in the first state, comes to the second before a round. -/
inductive Repeats (condition : Eval Bool) (body : Eval Unit) : Machine → Machine → Prop where
  | here (m : Machine) : Repeats condition body m m
  | next {m m' m'' n : Machine} (hc : condition m = (.ok true, m')) (hb : body m' = (.ok (), m''))
      (h : Repeats condition body m'' n) : Repeats condition body m n

/-- A loop over a range, with so many rounds to go from a number on, comes to begin its body in the
second state. -/
inductive Counts (v : Variable) (body : Eval Unit) : Nat → Int64 → Machine → Machine → Prop where
  | here (rounds : Nat) (n : Int64) (m : Machine) :
      Counts v body (rounds + 1) n m { m with store := m.store.insert v (.int n) }
  | next {rounds : Nat} {n : Int64} {m m' k : Machine}
      (hb : body { m with store := m.store.insert v (.int n) } = (.ok (), m'))
      (h : Counts v body rounds (n + 1) m' k) : Counts v body (rounds + 1) n m k

end Eval

inductive Action.Reads (rounds : Nat) : Action → Machine → Variable → Machine → Prop where
  | head {a : Action} {rest : List Action} {m n : Machine} {v : Variable}
      (h : Reads rounds a m v n) : Reads rounds (.block (a :: rest)) m v n
  | tail {a : Action} {rest : List Action} {m m' n : Machine} {v : Variable}
      (ha : a.run rounds m = (.ok (), m')) (h : Reads rounds (.block rest) m' v n) :
      Reads rounds (.block (a :: rest)) m v n
  | initializer {w v : Variable} {initializer : Term} {m n : Machine}
      (h : initializer.Reads m v n) : Reads rounds (.declaration w initializer) m v n
  | ifCondition {condition : Term} {thenAction : Action} {m n : Machine} {v : Variable}
      (h : condition.Reads m v n) : Reads rounds (.ifThen condition thenAction) m v n
  | ifThen {condition : Term} {thenAction : Action} {m m' n : Machine} {v : Variable}
      (hc : Eval.bool condition.evaluate m = (.ok true, m')) (h : Reads rounds thenAction m' v n) :
      Reads rounds (.ifThen condition thenAction) m v n
  | elseCondition {condition : Term} {thenAction elseAction : Action} {m n : Machine}
      {v : Variable} (h : condition.Reads m v n) :
      Reads rounds (.ifThenElse condition thenAction elseAction) m v n
  | elseThen {condition : Term} {thenAction elseAction : Action} {m m' n : Machine} {v : Variable}
      (hc : Eval.bool condition.evaluate m = (.ok true, m')) (h : Reads rounds thenAction m' v n) :
      Reads rounds (.ifThenElse condition thenAction elseAction) m v n
  | elseElse {condition : Term} {thenAction elseAction : Action} {m m' n : Machine} {v : Variable}
      (hc : Eval.bool condition.evaluate m = (.ok false, m')) (h : Reads rounds elseAction m' v n) :
      Reads rounds (.ifThenElse condition thenAction elseAction) m v n
  | whileCondition {condition : Term} {body : Action} {m m' n : Machine} {v : Variable}
      (hr : Eval.Repeats (Eval.bool condition.evaluate) (body.run rounds) m m')
      (h : condition.Reads m' v n) : Reads rounds (.whileLoop condition body) m v n
  | whileBody {condition : Term} {body : Action} {m m' m'' n : Machine} {v : Variable}
      (hr : Eval.Repeats (Eval.bool condition.evaluate) (body.run rounds) m m')
      (hc : Eval.bool condition.evaluate m' = (.ok true, m'')) (h : Reads rounds body m'' v n) :
      Reads rounds (.whileLoop condition body) m v n
  | lower {w v : Variable} {lower upper : Term} {body : Action} {m n : Machine}
      (h : lower.Reads m v n) : Reads rounds (.forLoop w lower upper body) m v n
  | upper {w v : Variable} {lower upper : Term} {body : Action} {m m' n : Machine} {first : Int64}
      (hl : Eval.int lower.evaluate m = (.ok first, m')) (h : upper.Reads m' v n) :
      Reads rounds (.forLoop w lower upper body) m v n
  | forBody {w v : Variable} {lower upper : Term} {body : Action} {m m' m'' k n : Machine}
      {first last : Int64} (hl : Eval.int lower.evaluate m = (.ok first, m'))
      (hu : Eval.int upper.evaluate m' = (.ok last, m''))
      (hr : Eval.Counts w (body.run rounds) (Eval.rangeLength first last) first m'' k)
      (h : Reads rounds body k v n) : Reads rounds (.forLoop w lower upper body) m v n
  | expression {term : Term} {m n : Machine} {v : Variable} (h : term.Reads m v n) :
      Reads rounds (.expression term) m v n

section Results

variable {α β : Type}

def Blameless (result : Except RunError α) : Prop :=
  ∀ name, result ≠ .error (.unassignedVariable name)

theorem blameless_ok (a : α) : Blameless (.ok a : Except RunError α) := fun _ h => by cases h

theorem Blameless.bind {x : Except RunError α} {f : α → Except RunError β} (hx : Blameless x)
    (hf : ∀ a, Blameless (f a)) : Blameless (x >>= f) := by
  cases x with
  | ok a => exact hf a
  | error e => exact fun name h => hx name (by cases h; rfl)

theorem Value.blameless_expectInt (value : Value) : Blameless value.expectInt := by
  cases value <;> exact fun _ h => by cases h

theorem Value.blameless_expectBool (value : Value) : Blameless value.expectBool := by
  cases value <;> exact fun _ h => by cases h

theorem Value.blameless_expectString (value : Value) : Blameless value.expectString := by
  cases value <;> exact fun _ h => by cases h

theorem Value.blameless_convert (value : Value) (target : Ty) :
    Blameless (value.convert target) := by
  intro name
  unfold convert
  dsimp only
  split <;> try split
  all_goals exact fun h => by cases h

theorem UnaryOperation.blameless_apply (operation : UnaryOperation) (operand : Value) :
    Blameless (operation.apply operand) := by
  cases operation with
  | identity => exact operand.blameless_expectInt.bind fun _ => blameless_ok _
  | negation => exact operand.blameless_expectInt.bind fun _ => blameless_ok _
  | logicalNegation => exact operand.blameless_expectBool.bind fun _ => blameless_ok _

theorem BinaryOperation.blameless_onInts (f : Int64 → Int64 → Value) (left right : Value) :
    Blameless (onInts f left right) :=
  left.blameless_expectInt.bind fun _ => right.blameless_expectInt.bind fun _ => blameless_ok _

theorem BinaryOperation.blameless_divide (left right : Value) : Blameless (divide left right) := by
  refine right.blameless_expectInt.bind fun divisor => ?_
  split
  · exact fun _ h => by cases h
  · exact left.blameless_expectInt.bind fun _ => blameless_ok _

theorem BinaryOperation.blameless_apply (operation : BinaryOperation) (left right : Value) :
    Blameless (operation.apply left right) := by
  cases operation with
  | addition =>
    change Blameless (add left right)
    unfold add
    split
    · exact blameless_ok _
    · exact blameless_onInts _ _ _
  | division => exact blameless_divide left right
  | logicalAnd =>
    refine left.blameless_expectBool.bind fun l => ?_
    cases l with
    | true => exact right.blameless_expectBool.bind fun _ => blameless_ok _
    | false => exact blameless_ok _
  | logicalOr =>
    refine left.blameless_expectBool.bind fun l => ?_
    cases l with
    | true => exact blameless_ok _
    | false => exact right.blameless_expectBool.bind fun _ => blameless_ok _
  | equals | notEquals => exact blameless_ok _
  | subtraction | multiplication | lessThan | lessThanOrEquals | greaterThan
  | greaterThanOrEquals => exact blameless_onInts _ _ _

end Results

namespace Eval

variable {α β : Type}

/-- If the step fails in a state for want of a variable's value, the variable was read there. -/
def Blames (x : Eval α) (m : Machine) (reads : Variable → Machine → Prop) : Prop :=
  ∀ name n, x m = (.error (.failed (.unassignedVariable name)), n) →
    ∃ v, v.name = name ∧ reads v n ∧ n.store.get? v = none

section Rules

variable {m : Machine} {reads : Variable → Machine → Prop}

theorem Blames.mono {more : Variable → Machine → Prop} {x : Eval α} (h : Blames x m reads)
    (hmore : ∀ v n, reads v n → more v n) : Blames x m more := by
  intro name n hx
  obtain ⟨v, hname, hv, hnone⟩ := h name n hx
  exact ⟨v, hname, hmore v n hv, hnone⟩

theorem blames_ok {x : Eval α} {a : α} {n : Machine} (h : x m = (.ok a, n)) : Blames x m reads := by
  intro name k hx
  rw [h] at hx
  cases hx

theorem blames_fail {error : RunError} (h : ∀ name, error ≠ .unassignedVariable name) :
    Blames (fail error : Eval α) m reads := by
  intro name n hx
  cases hx
  exact absurd rfl (h name)

theorem blames_lift {result : Except RunError α} (h : Blameless result) :
    Blames (lift result) m reads := by
  intro name n hx
  cases result with
  | ok a => cases hx
  | error e =>
    cases hx
    exact absurd rfl (h name)

theorem blames_load (v : Variable) (h : reads v m) : Blames (load v) m reads := by
  intro name n hx
  unfold load at hx
  cases hv : m.store.get? v with
  | some value =>
    rw [hv] at hx
    cases hx
  | none =>
    rw [hv] at hx
    cases hx
    exact ⟨v, rfl, h, hv⟩

theorem Blames.bind {x : Eval α} {f : α → Eval β} (hx : Blames x m reads)
    (hf : ∀ a m', x m = (.ok a, m') → Blames (f a) m' reads) : Blames (x >>= f) m reads := by
  intro name n h
  change Eval.bind x f m = _ at h
  unfold Eval.bind at h
  cases hxm : x m with
  | mk result m' =>
    rw [hxm] at h
    cases result with
    | ok a => exact hf a m' hxm name n h
    | error halt =>
      cases h
      exact hx name _ hxm

theorem Blames.value {x : Eval (Option Value)} (h : Blames x m reads) :
    Blames (value x) m reads :=
  h.bind fun o _ _ => by
    cases o with
    | some value => exact blames_ok rfl
    | none => exact blames_fail fun _ h => by cases h

theorem Blames.int {x : Eval (Option Value)} (h : Blames x m reads) : Blames (int x) m reads :=
  h.value.bind fun value _ _ => blames_lift value.blameless_expectInt

theorem Blames.bool {x : Eval (Option Value)} (h : Blames x m reads) : Blames (bool x) m reads :=
  h.value.bind fun value _ _ => blames_lift value.blameless_expectBool

theorem blames_generator : Blames generator m reads := by
  intro name n h
  unfold generator at h
  split at h <;> cases h

theorem blames_randomBelow (bound : Int64) : Blames (randomBelow bound) m reads := by
  unfold randomBelow
  split
  · exact blames_fail fun _ h => by cases h
  · split
    · exact blames_ok rfl
    · exact blames_generator.bind fun g _ _ => blames_ok rfl

theorem blames_call (function : Function) {first : Option (Eval (Option Value))}
    (h : ∀ x, first = some x → Blames x m reads) : Blames (call function first) m reads := by
  unfold call
  split
  · exact blames_ok rfl
  · split
    · cases first with
      | none => exact blames_fail fun _ h => by cases h
      | some argument =>
        refine (h argument rfl).value.bind fun value _ _ => ?_
        exact (blames_lift value.blameless_expectString).bind fun _ _ _ => blames_ok rfl
    · split
      · cases first with
        | none => exact blames_fail fun _ h => by cases h
        | some argument =>
          exact (h argument rfl).int.bind fun bound _ _ =>
            (blames_randomBelow bound).bind fun _ _ _ => blames_ok rfl
      · exact blames_fail fun _ h => by cases h

theorem blames_repeatWhile {condition : Eval Bool} {body : Eval Unit}
    (hc : ∀ k, Repeats condition body m k → Blames condition k reads)
    (hb : ∀ k k', Repeats condition body m k → condition k = (.ok true, k') →
      Blames body k' reads) (rounds : Nat) :
    Blames (repeatWhile condition body rounds) m reads := by
  induction rounds generalizing m with
  | zero => exact fun name n h => by cases h
  | succ rounds ih =>
    intro name n h
    unfold repeatWhile at h
    cases hcm : condition m with
    | mk result m' =>
      rw [hcm] at h
      match result, hcm, h with
      | .error halt, hcm, h =>
        cases h
        exact hc m (.here m) name _ hcm
      | .ok false, hcm, h => cases h
      | .ok true, hcm, h =>
        dsimp only at h
        cases hbm : body m' with
        | mk result m'' =>
          rw [hbm] at h
          cases result with
          | error halt =>
            cases h
            exact hb m m' (.here m) hcm name _ hbm
          | ok _ =>
            exact ih (fun k hk => hc k (.next hcm hbm hk))
              (fun k k' hk => hb k k' (.next hcm hbm hk)) name n h

theorem blames_countUp {v : Variable} {body : Eval Unit} {rounds : Nat} {i : Int64}
    (hb : ∀ k, Counts v body rounds i m k → Blames body k reads) :
    Blames (countUp v body rounds i) m reads := by
  induction rounds generalizing m i with
  | zero => exact fun name n h => by cases h
  | succ rounds ih =>
    intro name n h
    unfold countUp at h
    cases hbm : body { m with store := m.store.insert v (.int i) } with
    | mk result m' =>
      rw [hbm] at h
      cases result with
      | error halt =>
        cases h
        exact hb _ (.here rounds i m) name _ hbm
      | ok _ => exact ih (fun k hk => hb k (.next hbm hk)) name n h

end Rules

end Eval

open Eval

theorem Term.blames_evaluate : (t : Term) → (m : Machine) → Blames t.evaluate m (t.Reads m)
  | .literal _, m => blames_ok rfl
  | .variable v, m => (blames_load v (.variable v m)).bind fun _ _ _ => blames_ok rfl
  | .assignment v source, m =>
    ((source.blames_evaluate m).mono fun _ _ => .assignment).value.bind fun _ _ _ => blames_ok rfl
  | .unary operator operand, m =>
    ((operand.blames_evaluate m).mono fun _ _ => .unary).value.bind fun value _ _ =>
      (blames_lift (operator.operation.blameless_apply value)).bind fun _ _ _ => blames_ok rfl
  | .binary left operator right, m => by
    refine ((left.blames_evaluate m).mono fun _ _ => .left).value.bind fun l m' hl => ?_
    refine ((right.blames_evaluate m').mono fun _ _ => .right hl).value.bind fun r _ _ => ?_
    exact (blames_lift (operator.operation.blameless_apply l r)).bind fun _ _ _ => blames_ok rfl
  | .call function [], m => blames_call function fun x h => by cases h
  | .call function (first :: rest), m => by
    refine blames_call function fun x h => ?_
    cases h
    exact (first.blames_evaluate m).mono fun _ _ => .argument
  | .conversion target source, m =>
    ((source.blames_evaluate m).mono fun _ _ => .conversion).value.bind fun value _ _ =>
      (blames_lift (value.blameless_convert target)).bind fun _ _ _ => blames_ok rfl
  | .error, m => blames_fail fun _ h => by cases h

mutual

/-- An action that fails for want of a variable's value has read the variable. -/
theorem Action.blames_run (rounds : Nat) : (a : Action) → (m : Machine) →
    Blames (a.run rounds) m (a.Reads rounds m)
  | .block actions, m => Action.blames_runAll rounds actions m
  | .declaration _ initializer, m =>
    ((initializer.blames_evaluate m).mono fun _ _ => .initializer).value.bind fun _ _ _ =>
      blames_ok rfl
  | .ifThen condition thenAction, m => by
    refine ((condition.blames_evaluate m).mono fun _ _ => .ifCondition).bool.bind fun b m' hc => ?_
    cases b with
    | true => exact (thenAction.blames_run rounds m').mono fun _ _ => .ifThen hc
    | false => exact blames_ok rfl
  | .ifThenElse condition thenAction elseAction, m => by
    refine ((condition.blames_evaluate m).mono fun _ _ => .elseCondition).bool.bind
      fun b m' hc => ?_
    cases b with
    | true => exact (thenAction.blames_run rounds m').mono fun _ _ => .elseThen hc
    | false => exact (elseAction.blames_run rounds m').mono fun _ _ => .elseElse hc
  | .whileLoop condition body, m =>
    blames_repeatWhile
      (fun k hk => ((condition.blames_evaluate k).mono fun _ _ => .whileCondition hk).bool)
      (fun _ k' hk hc => (body.blames_run rounds k').mono fun _ _ => .whileBody hk hc) rounds
  | .forLoop v lower upper body, m => by
    refine ((lower.blames_evaluate m).mono fun _ _ => .lower).int.bind fun first m' hl => ?_
    refine ((upper.blames_evaluate m').mono fun _ _ => .upper hl).int.bind fun last m'' hu => ?_
    exact blames_countUp fun k hk => (body.blames_run rounds k).mono fun _ _ => .forBody hl hu hk
  | .expression term, m =>
    ((term.blames_evaluate m).mono fun _ _ => .expression).bind fun _ _ _ => blames_ok rfl

theorem Action.blames_runAll (rounds : Nat) : (actions : List Action) → (m : Machine) →
    Blames (Action.runAll rounds actions) m ((Action.block actions).Reads rounds m)
  | [], _ => blames_ok rfl
  | a :: rest, m =>
    ((a.blames_run rounds m).mono fun _ _ => .head).bind fun _ m' ha =>
      (Action.blames_runAll rounds rest m').mono fun _ _ => .tail ha

end

end ScalarScript
