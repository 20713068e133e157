import ScalarScript.Proofs.Names.Assignments
import ScalarScript.Proofs.Running.Triple

set_option autoImplicit false

namespace ScalarScript

/-- The property is kept when one of these variables is given a value. -/
def Store.Withstands (J : Store → Prop) (written : Variable → Prop) : Prop :=
  ∀ (store : Store) (v : Variable) (value : Value), written v → J store →
    J (store.insert v value)

namespace Eval

variable {α β : Type} {J : Store → Prop}

def Preserves (J : Store → Prop) (x : Eval α) : Prop :=
  Ensures (fun m => J m.store) x (fun _ m => J m.store) (fun _ m => J m.store)

theorem Preserves.bind {x : Eval α} {f : α → Eval β} (hx : Preserves J x)
    (hf : ∀ a, Preserves J (f a)) : Preserves J (x >>= f) :=
  Ensures.bind hx hf

theorem Preserves.store {x : Eval α} {result : Except Halt α} {m n : Machine} (hx : Preserves J x)
    (h : x m = (result, n)) (hm : J m.store) : J n.store := by
  have hn := hx m hm
  rw [h] at hn
  cases result <;> exact hn

theorem preserves_of_store {x : Eval α} (h : ∀ m, (x m).2.store = m.store) : Preserves J x := by
  intro m hm
  have hx := h m
  cases hxm : x m with
  | mk result n =>
    rw [hxm] at hx
    have hn : J n.store := by
      rw [hx]
      exact hm
    cases result <;> exact hn

theorem preserves_pure (a : α) : Preserves J (pure a : Eval α) := preserves_of_store fun _ => rfl

theorem preserves_fail (error : RunError) : Preserves J (fail error : Eval α) :=
  preserves_of_store fun _ => rfl

theorem preserves_lift (result : Except RunError α) : Preserves J (lift result) :=
  preserves_of_store fun _ => rfl

theorem preserves_load (v : Variable) : Preserves J (load v) :=
  preserves_of_store fun m => by
    unfold load
    split <;> rfl

theorem preserves_conclude (value : Option Value) : Preserves J (conclude value) :=
  preserves_of_store fun _ => rfl

theorem preserves_readLine : Preserves J readLine := preserves_of_store fun _ => rfl

theorem preserves_writeLine (line : String) : Preserves J (writeLine line) :=
  preserves_of_store fun _ => rfl

theorem Preserves.value {x : Eval (Option Value)} (h : Preserves J x) : Preserves J (value x) :=
  h.bind fun o => by
    cases o with
    | none => exact preserves_fail _
    | some value => exact preserves_pure value

theorem Preserves.int {x : Eval (Option Value)} (h : Preserves J x) : Preserves J (int x) :=
  h.value.bind fun value => preserves_lift value.expectInt

theorem Preserves.bool {x : Eval (Option Value)} (h : Preserves J x) : Preserves J (bool x) :=
  h.value.bind fun value => preserves_lift value.expectBool

theorem preserves_generator : Preserves J generator :=
  preserves_of_store fun m => by
    unfold generator
    dsimp only
    split <;> rfl

theorem preserves_randomBelow (bound : Int64) : Preserves J (randomBelow bound) := by
  unfold randomBelow
  split
  · exact preserves_fail _
  · split
    · exact preserves_pure _
    · exact preserves_generator.bind fun g => preserves_of_store fun _ => rfl

theorem preserves_call (function : Function) {first : Option (Eval (Option Value))}
    (h : ∀ x, first = some x → Preserves J x) : Preserves J (call function first) := by
  unfold call
  split
  · exact preserves_readLine.bind fun _ => preserves_pure _
  · split
    · cases first with
      | none => exact preserves_fail _
      | some argument =>
        exact (h argument rfl).value.bind fun value => (preserves_lift value.expectString).bind
          fun line => (preserves_writeLine line).bind fun _ => preserves_pure _
    · split
      · cases first with
        | none => exact preserves_fail _
        | some argument =>
          exact (h argument rfl).int.bind fun bound =>
            (preserves_randomBelow bound).bind fun _ => preserves_pure _
      · exact preserves_fail _

variable {written : Variable → Prop}

theorem preserves_save (hJ : Store.Withstands J written) {v : Variable} (hv : written v)
    (value : Value) : Preserves J (save v value) :=
  ensures_save v value fun m hm => hJ m.store v value hv hm

end Eval

section Runs

open Eval

variable {J : Store → Prop} {written : Variable → Prop}

theorem Term.preserves_evaluate (hJ : Store.Withstands J written) : (t : Term) →
    (∀ v ∈ t.assigned, written v) → Preserves J t.evaluate
  | .literal _, _ => preserves_pure _
  | .variable v, _ => (preserves_load v).bind fun _ => preserves_pure _
  | .assignment v source, hw => by
    simp only [assigned, List.forall_mem_append, List.forall_mem_singleton] at hw
    have hs := source.preserves_evaluate hJ hw.1
    exact hs.value.bind fun value => (preserves_save hJ hw.2 value).bind fun _ => preserves_pure _
  | .unary _ operand, hw =>
    (operand.preserves_evaluate hJ hw).value.bind fun _ =>
      (preserves_lift _).bind fun _ => preserves_pure _
  | .binary left _ right, hw => by
    simp only [assigned, List.forall_mem_append] at hw
    have hl := left.preserves_evaluate hJ hw.1
    have hr := right.preserves_evaluate hJ hw.2
    exact hl.value.bind fun _ => hr.value.bind fun _ =>
      (preserves_lift _).bind fun _ => preserves_pure _
  | .call function [], _ => preserves_call function fun x h => by cases h
  | .call function (first :: _), hw => by
    simp only [assigned, assignedAll, List.forall_mem_append] at hw
    have hf := first.preserves_evaluate hJ hw.1
    exact preserves_call function fun x h => Option.some.inj h ▸ hf
  | .conversion _ source, hw =>
    (source.preserves_evaluate hJ hw).value.bind fun _ =>
      (preserves_lift _).bind fun _ => preserves_pure _
  | .error, _ => preserves_fail _

mutual

/-- What withstands the declarations and assignments of an action holds behind its runs. -/
theorem Action.preserves_run (hJ : Store.Withstands J written) (rounds : Nat) : (a : Action) →
    (∀ v ∈ a.declared, written v) → (∀ v ∈ a.assigned, written v) →
    Preserves J (a.run rounds)
  | .block actions, hd, hw => Action.preserves_runAll hJ rounds actions hd hw
  | .declaration v initializer, hd, hw => by
    have hi := initializer.preserves_evaluate hJ hw
    have hv := hd v (List.mem_singleton_self v)
    exact hi.value.bind fun value => (preserves_save hJ hv value).bind fun _ => preserves_conclude _
  | .ifThen condition thenAction, hd, hw => by
    simp only [assigned, List.forall_mem_append] at hw
    have hc := condition.preserves_evaluate hJ hw.1
    have ht := thenAction.preserves_run hJ rounds hd hw.2
    refine hc.bool.bind fun b => ?_
    cases b with
    | true => exact ht
    | false => exact preserves_pure ()
  | .ifThenElse condition thenAction elseAction, hd, hw => by
    simp only [declared, assigned, List.forall_mem_append] at hd hw
    have hc := condition.preserves_evaluate hJ hw.1.1
    have ht := thenAction.preserves_run hJ rounds hd.1 hw.1.2
    have he := elseAction.preserves_run hJ rounds hd.2 hw.2
    refine hc.bool.bind fun b => ?_
    cases b with
    | true => exact ht
    | false => exact he
  | .whileLoop condition body, hd, hw => by
    simp only [assigned, List.forall_mem_append] at hw
    have hc := condition.preserves_evaluate hJ hw.1
    have hb := body.preserves_run hJ rounds hd hw.2
    exact ensures_repeatWhile hc.bool hb (fun _ => id) rounds
  | .forLoop v lower upper body, hd, hw => by
    simp only [declared, assigned, List.forall_mem_append, List.forall_mem_cons] at hd hw
    have hl := lower.preserves_evaluate hJ hw.1.1
    have hu := upper.preserves_evaluate hJ hw.1.2
    have hb := body.preserves_run hJ rounds hd.2 hw.2
    exact hl.int.bind fun first => hu.int.bind fun last =>
      ensures_countUp (fun m n => hJ m.store v (.int n) hd.1) hb (rangeLength first last) first
  | .expression term, _, hw =>
    (term.preserves_evaluate hJ hw).bind fun value => preserves_conclude value

theorem Action.preserves_runAll (hJ : Store.Withstands J written) (rounds : Nat) :
    (actions : List Action) → (∀ v ∈ Action.declaredAll actions, written v) →
    (∀ v ∈ Action.assignedAll actions, written v) → Preserves J (Action.runAll rounds actions)
  | [], _, _ => preserves_pure ()
  | a :: rest, hd, hw => by
    simp only [Action.declaredAll, Action.assignedAll, List.forall_mem_append] at hd hw
    have ha := a.preserves_run hJ rounds hd.1 hw.1
    have hr := Action.preserves_runAll hJ rounds rest hd.2 hw.2
    exact ha.bind fun _ => hr

end

/-- A run changes the values of no variables but those that are declared or assigned to. -/
theorem Action.run_frame {rounds : Nat} {a : Action} {result : Except Halt Unit} {m n : Machine}
    (h : a.run rounds m = (result, n)) {v : Variable} (hd : v ∉ a.declared)
    (hw : v ∉ a.assigned) : n.store.get? v = m.store.get? v := by
  have hJ : Store.Withstands (fun store => store.get? v = m.store.get? v)
      (fun w => w ∈ a.declared ∨ w ∈ a.assigned) := by
    intro store w value hw' hstore
    have hne : v ≠ w := by
      rintro rfl
      exact hw'.elim hd hw
    rw [Store.get?_insert_of_ne _ _ hne, hstore]
  exact (a.preserves_run hJ rounds (fun _ => .inl) fun _ => .inr).store h rfl

end Runs

end ScalarScript
