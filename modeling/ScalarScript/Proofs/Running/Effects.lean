import ScalarScript.Proofs.Running.Stepping

/-!
What steps do to the state. A step saves values, concludes with one, reads and writes lines and
draws random numbers, and changes the state in no other way; so what relates the states before and
after these relates the states of a whole run.
-/

set_option autoImplicit false

namespace ScalarScript

/-- The relation holds between the states before and after everything that a step can do, drawing
excepted. -/
structure Machine.Admits (R : Machine → Machine → Prop) : Prop where
  refl : ∀ m, R m m
  trans : ∀ {m n k}, R m n → R n k → R m k
  save : ∀ v value m, R m (Eval.save v value m).2
  conclude : ∀ value m, R m (Eval.conclude value m).2
  readLine : ∀ m, R m (Eval.readLine m).2
  writeLine : ∀ line m, R m (Eval.writeLine line m).2

namespace Eval

variable {α β : Type} {R : Machine → Machine → Prop}

def Moves (R : Machine → Machine → Prop) (x : Eval α) : Prop := ∀ m, R m (x m).2

theorem Moves.bind (hR : Machine.Admits R) {x : Eval α} {f : α → Eval β} (hx : Moves R x)
    (hf : ∀ a, Moves R (f a)) : Moves R (x >>= f) := by
  intro m
  have hm := hx m
  rcases hxm : x m with ⟨_ | a, n⟩
  · rw [bind_of_error f hxm]
    rwa [hxm] at hm
  · rw [bind_of_ok hxm]
    rw [hxm] at hm
    exact hR.trans hm (hf a n)

theorem moves_pure (hR : Machine.Admits R) (a : α) : Moves R (pure a : Eval α) := hR.refl

theorem moves_fail (hR : Machine.Admits R) (error : RunError) : Moves R (fail error : Eval α) :=
  hR.refl

theorem moves_lift (hR : Machine.Admits R) (result : Except RunError α) : Moves R (lift result) :=
  hR.refl

theorem moves_load (hR : Machine.Admits R) (v : Variable) : Moves R (load v) := by
  intro m
  unfold load
  split <;> exact hR.refl m

theorem Moves.value (hR : Machine.Admits R) {x : Eval (Option Value)} (h : Moves R x) :
    Moves R (value x) :=
  h.bind hR fun o => by
    cases o with
    | none => exact moves_fail hR _
    | some v => exact moves_pure hR v

theorem Moves.int (hR : Machine.Admits R) {x : Eval (Option Value)} (h : Moves R x) :
    Moves R (int x) :=
  (h.value hR).bind hR fun v => moves_lift hR v.expectInt

theorem Moves.bool (hR : Machine.Admits R) {x : Eval (Option Value)} (h : Moves R x) :
    Moves R (bool x) :=
  (h.value hR).bind hR fun v => moves_lift hR v.expectBool

end Eval

open Eval

variable {R : Machine → Machine → Prop}

theorem Task.moves_giving (hR : Machine.Admits R) {x : Eval (Option Value)} (h : Moves R x) :
    Moves R (giving x) :=
  h.bind hR fun o => moves_pure hR (o, [])

theorem Task.moves_doing (hR : Machine.Admits R) {x : Eval Unit} (h : Moves R x) :
    Moves R (doing x) :=
  h.bind hR fun _ => moves_pure hR (none, [])

theorem Task.moves_leaving (hR : Machine.Admits R) (tasks : List Task) :
    Moves R (leaving tasks) :=
  moves_pure hR (none, tasks)

theorem Task.moves_applying (hR : Machine.Admits R) (task : Task) (arguments : List Term) :
    Moves R (applying task arguments) := by
  cases arguments with
  | nil => exact moves_fail hR _
  | cons first rest => exact moves_leaving hR _

theorem Task.moves_term (hR : Machine.Admits R) (given : Option Value) (t : Term) :
    Moves R (advance given (.term t)) := by
  cases t with
  | literal value => exact moves_giving hR (moves_pure hR _)
  | «variable» v => exact moves_giving hR ((moves_load hR v).bind hR fun _ => moves_pure hR _)
  | call function arguments =>
    rw [advance_call]
    split
    · exact moves_giving hR (Moves.bind hR hR.readLine fun _ => moves_pure hR _)
    · split
      · exact moves_applying hR _ _
      · split
        · exact moves_applying hR _ _
        · exact moves_fail hR _
  | error => exact moves_fail hR _
  | assignment | unary | binary | conversion => exact moves_leaving hR _

theorem Task.moves_action (hR : Machine.Admits R) (given : Option Value) (a : Action) :
    Moves R (advance given (.action a)) := by
  cases a <;> exact moves_leaving hR _

/-- A step stays within the relation, and so does a step that draws, if drawing does. -/
theorem Task.moves_advance (hR : Machine.Admits R) (task : Task) (given : Option Value)
    (hdraw : task = .draw → ∀ bound, Moves R (randomBelow bound)) :
    Moves R (task.advance given) := by
  have hvalue : Moves R (Eval.value (return given)) := (moves_pure hR given).value hR
  have hint : Moves R (Eval.int (return given)) := (moves_pure hR given).int hR
  have hbool : Moves R (Eval.bool (return given)) := (moves_pure hR given).bool hR
  cases task with
  | term t => exact moves_term hR given t
  | action a => exact moves_action hR given a
  | assign v =>
    exact moves_giving hR <| hvalue.bind hR fun value =>
      Moves.bind hR (hR.save v value) fun _ => moves_pure hR _
  | unary | binary | convert =>
    exact moves_giving hR <| hvalue.bind hR fun _ =>
      (moves_lift hR _).bind hR fun _ => moves_pure hR _
  | right => exact hvalue.bind hR fun _ => moves_leaving hR _
  | write =>
    exact moves_giving hR <| hvalue.bind hR fun value =>
      (moves_lift hR value.expectString).bind hR fun line =>
        Moves.bind hR (hR.writeLine line) fun _ => moves_pure hR _
  | draw =>
    exact moves_giving hR <| hint.bind hR fun bound =>
      (hdraw rfl bound).bind hR fun _ => moves_pure hR _
  | declare v =>
    exact moves_doing hR <| hvalue.bind hR fun value =>
      Moves.bind hR (hR.save v value) fun _ => hR.conclude _
  | choose => exact hbool.bind hR fun _ => moves_leaving hR _
  | upTo => exact hint.bind hR fun _ => moves_leaving hR _
  | range => exact hint.bind hR fun _ => moves_leaving hR _
  | count v next =>
    exact Moves.bind hR (hR.save v (.int next)) fun _ => moves_leaving hR _
  | conclude => exact moves_doing hR (hR.conclude given)

namespace Progress

theorem admitted_step (hR : Machine.Admits R) (hdraw : ∀ bound, Moves R (randomBelow bound))
    (p : Progress) : R p.machine p.step.machine := by
  match p with
  | .over result m => exact hR.refl m
  | .going [] _ m => exact hR.refl m
  | .going (task :: rest) given m =>
    rw [machine_step]
    exact task.moves_advance hR given (fun _ => hdraw) m

end Progress

theorem Action.moves_run (hR : Machine.Admits R) (hdraw : ∀ bound, Moves R (randomBelow bound))
    (a : Action) (rounds : Nat) : Moves R (a.run rounds) := by
  intro m
  obtain ⟨p, hreach, hp⟩ := Progress.reaches_machine a rounds m
  rw [← hp]
  exact hreach.keeps (I := fun p => R m p.machine)
    (fun q hq => hR.trans hq (q.admitted_step hR hdraw)) (hR.refl m)

/-! Programs take the lines that they read from the front of the input. -/

theorem Host.readLine_suffix (host : Host) : host.readLine.2.pending <:+ host.pending := by
  unfold readLine
  split
  · exact List.suffix_rfl
  · rename_i line rest h
    rw [h]
    exact List.suffix_cons line rest

def Machine.Reads (m n : Machine) : Prop := n.host.pending <:+ m.host.pending

theorem Machine.admits_reads : Admits Reads where
  refl _ := List.suffix_rfl
  trans h h' := h'.trans h
  save _ _ _ := List.suffix_rfl
  conclude _ _ := List.suffix_rfl
  readLine m := m.host.readLine_suffix
  writeLine _ _ := List.suffix_rfl

theorem Eval.moves_generator : Moves Machine.Reads generator := by
  intro m
  unfold generator
  split <;> exact List.suffix_rfl

theorem Eval.moves_randomBelow (bound : Int64) : Moves Machine.Reads (randomBelow bound) := by
  unfold randomBelow
  split
  · exact moves_fail Machine.admits_reads _
  · split
    · exact moves_pure Machine.admits_reads 0
    · exact moves_generator.bind Machine.admits_reads fun g m => List.suffix_rfl

theorem Action.reads_run (a : Action) (rounds : Nat) (m : Machine) : m.Reads (a.run rounds m).2 :=
  a.moves_run Machine.admits_reads Eval.moves_randomBelow rounds m

end ScalarScript
