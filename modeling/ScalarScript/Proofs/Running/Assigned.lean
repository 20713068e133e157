import ScalarScript.Proofs.Names.Covered
import ScalarScript.Proofs.Running.Keeping
import ScalarScript.Proofs.Running.Reading

set_option autoImplicit false

namespace ScalarScript

def Store.Has (store : Store) (v : Variable) : Prop := (store.get? v).isSome

theorem Store.has_insert_self (store : Store) (v : Variable) (value : Value) :
    (store.insert v value).Has v := by
  simp [Has, get?_insert_self]

theorem Store.Has.insert {store : Store} {w : Variable} (h : store.Has w) (v : Variable)
    (value : Value) : (store.insert v value).Has w := by
  by_cases hw : w = v
  · exact hw ▸ store.has_insert_self v value
  · rw [Has, get?_insert_of_ne _ _ hw]
    exact h

theorem Store.withstands_has (known written : Variable → Prop) :
    Withstands (fun store => ∀ v, known v → store.Has v) written :=
  fun _ v value _ h w hw => (h w hw).insert v value

open Eval

def Machine.Grows (m n : Machine) : Prop := ∀ v, m.store.Has v → n.store.Has v

namespace Eval

variable {α : Type} {m n : Machine}

theorem grows_of_preserves {x : Eval α} {result : Except Halt α}
    (hx : Preserves (fun store => ∀ v, m.store.Has v → store.Has v) x) (h : x m = (result, n)) :
    m.Grows n :=
  hx.store h fun _ hv => hv

theorem preserves_has (known : Variable → Prop) (t : Term) :
    Preserves (fun store => ∀ v, known v → store.Has v) t.evaluate :=
  t.preserves_evaluate (Store.withstands_has known fun _ => True) fun _ _ => trivial

theorem grows_value {t : Term} {value : Value} (h : Eval.value t.evaluate m = (.ok value, n)) :
    m.Grows n := grows_of_preserves (preserves_has _ t).value h

theorem grows_bool {t : Term} {b : Bool} (h : Eval.bool t.evaluate m = (.ok b, n)) : m.Grows n :=
  grows_of_preserves (preserves_has _ t).bool h

theorem grows_int {t : Term} {i : Int64} (h : Eval.int t.evaluate m = (.ok i, n)) : m.Grows n :=
  grows_of_preserves (preserves_has _ t).int h

theorem grows_run {rounds : Nat} {a : Action} {result : Except Halt Unit}
    (h : a.run rounds m = (result, n)) : m.Grows n := by
  have hJ := Store.withstands_has m.store.Has fun _ => True
  exact grows_of_preserves (a.preserves_run hJ rounds (fun _ _ => trivial) fun _ _ => trivial) h

theorem Repeats.grows {t : Term} {body : Action} {rounds : Nat}
    (h : Repeats (Eval.bool t.evaluate) (body.run rounds) m n) : m.Grows n := by
  induction h with
  | here => exact fun _ => id
  | next hc hb h ih => exact fun v hv => ih v (grows_run hb v (grows_bool hc v hv))

theorem Counts.grows {w : Variable} {body : Action} {rounds k : Nat} {i : Int64}
    (h : Counts w (body.run rounds) k i m n) : m.Grows n ∧ n.store.Has w := by
  induction h with
  | here k i m =>
    exact ⟨fun v hv => hv.insert w _, m.store.has_insert_self w _⟩
  | next hb h ih => exact ⟨fun v hv => ih.1 v (grows_run hb v (hv.insert w _)), ih.2⟩

end Eval

/-- After a run to its end, what the action declares for certain has the value of the run. -/
theorem Action.value_settled {rounds : Nat} {a : Action} {m n : Machine}
    (h : a.run rounds m = (.ok (), n)) :
    ∀ v ∈ a.settled, ∃ value, n.lastValue = some value ∧ n.store.get? v = some value := by
  cases a with
  | declaration w initializer =>
    have hsave (value : Value) : Ensures (fun _ => True)
        (do Eval.save w value; Eval.conclude (some value))
        (fun _ m => ∃ value, m.lastValue = some value ∧ m.store.get? w = some value)
        fun _ _ => True :=
      (ensures_save w value fun m _ => Store.get?_insert_self m.store w value).bind
        fun _ m hm => ⟨value, rfl, hm⟩
    have hvalue : Ensures (fun _ => True) (Eval.value initializer.evaluate) (fun _ _ => True)
        fun _ _ => True := by
      intro m _
      cases Eval.value initializer.evaluate m with
      | mk result m' => cases result <;> trivial
    have hrun : Ensures (fun _ => True) ((Action.declaration w initializer).run rounds)
        (fun _ m => ∃ value, m.lastValue = some value ∧ m.store.get? w = some value)
        fun _ _ => True := hvalue.bind hsave
    have hn := hrun m trivial
    rw [h] at hn
    exact fun v hv => List.mem_singleton.mp hv ▸ hn
  | block | ifThen | ifThenElse | whileLoop | forLoop | expression => exact fun v hv => by cases hv

theorem Action.has_settled {rounds : Nat} {a : Action} {m n : Machine}
    (h : a.run rounds m = (.ok (), n)) (v : Variable) (hv : v ∈ a.settled) : n.store.Has v := by
  obtain ⟨value, -, hget⟩ := Action.value_settled h v hv
  simp [Store.Has, hget]

/-- Of the variables that are visible in a state each has a value, or was declared under a
condition. -/
def Machine.Assigns (conditional visible : Variable → Prop) (m : Machine) : Prop :=
  ∀ v, visible v → conditional v ∨ m.store.Has v

section Reading

variable {conditional visible : Variable → Prop} {m n : Machine}

theorem Machine.Assigns.grows (h : m.Assigns conditional visible) (hmn : m.Grows n) :
    n.Assigns conditional visible :=
  fun v hv => (h v hv).imp id (hmn v)

theorem Term.Reads.mem_references {t : Term} {v : Variable} (h : t.Reads m v n) :
    v ∈ t.references := by
  induction h with
  | «variable» v m => exact List.mem_singleton_self v
  | assignment h ih => exact List.mem_append_left _ ih
  | unary h ih => exact ih
  | left h ih => exact List.mem_append_left _ ih
  | right hl h ih => exact List.mem_append_right _ ih
  | argument h ih => exact List.mem_append_left _ ih
  | conversion h ih => exact ih

theorem Term.Reads.grows {t : Term} {v : Variable} (h : t.Reads m v n) : m.Grows n := by
  induction h with
  | «variable» v m => exact fun _ => id
  | assignment h ih | unary h ih | left h ih | argument h ih | conversion h ih => exact ih
  | right hl h ih => exact fun v hv => ih v (Eval.grows_value hl v hv)

theorem Term.Reads.assigned {t : Term} {v : Variable} (h : t.Reads m v n)
    (hm : m.Assigns conditional visible) (hv : ∀ w ∈ t.references, visible w) :
    conditional v ∨ n.store.Has v :=
  hm.grows h.grows v (hv v h.mem_references)

/-- Where a run reads a variable the variable has a value, or was declared under a condition. -/
theorem Action.Reads.assigned {rounds : Nat} {a : Action} {v : Variable}
    (h : a.Reads rounds m v n) (hm : m.Assigns conditional visible) (ha : a.Covered visible)
    (hc : ∀ w ∈ a.conditional, conditional w) : conditional v ∨ n.store.Has v := by
  induction h generalizing visible with
  | head h ih => exact ih hm ha.1 fun w hw => hc w (List.mem_append_left _ hw)
  | @tail a rest m m' n v hrun h ih =>
    have hrest : m'.Assigns conditional fun w => visible w ∨ w ∈ a.leaked := by
      intro w hw
      rcases hw with hw | hw
      · exact hm.grows (Eval.grows_run hrun) w hw
      · rcases Action.settled_or_conditional hw with hw | hw
        · exact .inr (Action.has_settled hrun w hw)
        · exact .inl (hc w (List.mem_append_left _ hw))
    exact ih hrest ha.2 fun w hw => hc w (List.mem_append_right _ hw)
  | initializer h => exact h.assigned hm ha
  | ifCondition h => exact h.assigned hm ha.1
  | ifThen hb h ih =>
    exact ih (hm.grows (Eval.grows_bool hb)) ha.2 fun w hw => hc w (List.mem_append_right _ hw)
  | elseCondition h => exact h.assigned hm ha.1
  | elseThen hb h ih =>
    refine ih (hm.grows (Eval.grows_bool hb)) ha.2.1 fun w hw => hc w ?_
    exact List.mem_append_left _ (List.mem_append_right _ hw)
  | @elseElse condition thenAction elseAction m m' n v hb h ih =>
    -- What leaks out of the other branch is visible here, but was declared under the condition.
    have helse : m'.Assigns conditional fun w => visible w ∨ w ∈ thenAction.leaked := by
      intro w hw
      rcases hw with hw | hw
      · exact hm.grows (Eval.grows_bool hb) w hw
      · exact .inl (hc w (List.mem_append_left _ (List.mem_append_left _ hw)))
    refine ih helse ha.2.2 fun w hw => hc w ?_
    exact List.mem_append_right _ (List.mem_append_right _ hw)
  | whileCondition hr h => exact h.assigned (hm.grows hr.grows) ha.1
  | whileBody hr hb h ih =>
    exact ih ((hm.grows hr.grows).grows (Eval.grows_bool hb)) ha.2
      fun w hw => hc w (List.mem_append_right _ hw)
  | lower h => exact h.assigned hm ha.1
  | upper hl h => exact h.assigned (hm.grows (Eval.grows_int hl)) ha.2.1
  | @forBody i v lower upper body m m' m'' k n first last hl hu hr h ih =>
    have hbody : k.Assigns conditional fun w => visible w ∨ w = i := by
      intro w hw
      rcases hw with hw | rfl
      · exact ((hm.grows (Eval.grows_int hl)).grows (Eval.grows_int hu)).grows hr.grows.1 w hw
      · exact .inr hr.grows.2
    exact ih hbody ha.2.2 hc
  | expression h => exact h.assigned hm ha

end Reading

end ScalarScript
