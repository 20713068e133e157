import ScalarScript.Proofs.Renaming.Running
import ScalarScript.Proofs.Running.Assigned

set_option autoImplicit false

namespace ScalarScript

/-- The variables of a set have the same values, and everything but the values is the same. -/
def Machine.Agrees (A : Variable → Prop) : Machine → Machine → Prop := Mirrors id A True

namespace Machine.Agrees

variable {A B : Variable → Prop} {m m' : Machine}

theorem mono (h : Agrees A m m') (hB : ∀ v, B v → A v) : Agrees B m m' where
  store v hv := h.store v (hB v hv)
  host := h.host
  rest := h.rest

theorem get? (h : Agrees A m m') {v : Variable} (hv : A v) :
    m'.store.get? v = m.store.get? v := h.store v hv

theorem lastValue (h : Agrees A m m') : m'.lastValue = m.lastValue := (h.rest trivial).2.2

theorem insert (h : Agrees A m m') (v : Variable) (value : Value) :
    Agrees (fun w => A w ∨ w = v) { m with store := m.store.insert v value }
      { m' with store := m'.store.insert v value } where
  store w hw := by
    change (m'.store.insert v value).get? w = (m.store.insert v value).get? w
    by_cases heq : w = v
    · subst heq
      rw [Store.get?_insert_self, Store.get?_insert_self]
    · rw [Store.get?_insert_of_ne _ _ heq, Store.get?_insert_of_ne _ _ heq]
      exact h.get? (hw.resolve_right heq)
  host := h.host
  rest := h.rest

theorem settled (h : Agrees A m m') {rounds : Nat} {a : Action} {k k' : Machine}
    (hrun : a.run rounds k = (.ok (), m)) (hrun' : a.run rounds k' = (.ok (), m')) :
    Agrees (fun v => A v ∨ v ∈ a.settled) m m' where
  store v hv := by
    rcases hv with hv | hv
    · exact h.store v hv
    · obtain ⟨value, hlast, hget⟩ := Action.value_settled hrun v hv
      obtain ⟨value', hlast', hget'⟩ := Action.value_settled hrun' v hv
      rw [h.lastValue, hlast] at hlast'
      rw [rename_id_variable, hget, hget', hlast']
  host := h.host
  rest := h.rest

end Machine.Agrees

section Runs

open Eval Machine

variable {A : Variable → Prop}

theorem parallel_save_agrees (v : Variable) (value : Value) :
    Parallel (Agrees A) (save v value) (save v value) :=
  fun _ _ h => ⟨rfl, (h.insert v value).mono fun _ => .inl⟩

theorem Term.parallel_agrees (t : Term) (h : ∀ v ∈ t.references, A v) :
    Parallel (Agrees A) t.evaluate t.evaluate := by
  have hseparates : Separates id A := fun _ _ _ _ heq => heq
  have hrenamed := t.parallel_rename hseparates h fun _ _ _ => trivial
  rwa [Term.rename_id] at hrenamed

mutual

/-- What is visible to the action must be in the set, and what it declares under a condition. -/
theorem Action.parallel_agrees (rounds : Nat) {A visible : Variable → Prop} : (a : Action) →
    a.Covered visible → (∀ v, visible v → A v) → (∀ v ∈ a.conditional, A v) →
    Parallel (Agrees A) (a.run rounds) (a.run rounds)
  | .block actions, ha, hv, hc => Action.parallel_agreesAll rounds actions ha hv hc
  | .declaration v initializer, ha, hv, _ => by
    have hi := initializer.parallel_agrees fun w hw => hv w (ha w hw)
    exact hi.value.bind fun value => (parallel_save_agrees v value).bind fun _ =>
      parallel_conclude (some value)
  | .ifThen condition thenAction, ha, hv, hc => by
    simp only [conditional, List.forall_mem_append] at hc
    have hi := condition.parallel_agrees fun w hw => hv w (ha.1 w hw)
    have ht := thenAction.parallel_agrees rounds ha.2 hv hc.2
    refine hi.bool.bind fun b => ?_
    cases b with
    | true => exact ht
    | false => exact parallel_pure ()
  | .ifThenElse condition thenAction elseAction, ha, hv, hc => by
    simp only [conditional, List.forall_mem_append] at hc
    have hi := condition.parallel_agrees fun w hw => hv w (ha.1 w hw)
    have ht := thenAction.parallel_agrees rounds ha.2.1 hv hc.1.2
    -- What leaks out of the first branch is visible in the other, but declared under the condition.
    have helse : ∀ v, visible v ∨ v ∈ thenAction.leaked → A v :=
      fun v h => h.elim (hv v) (hc.1.1 v)
    have he := elseAction.parallel_agrees rounds ha.2.2 helse hc.2.2
    refine hi.bool.bind fun b => ?_
    cases b with
    | true => exact ht
    | false => exact he
  | .whileLoop condition body, ha, hv, hc => by
    simp only [conditional, List.forall_mem_append] at hc
    have hi := condition.parallel_agrees fun w hw => hv w (ha.1 w hw)
    have hb := body.parallel_agrees rounds ha.2 hv hc.2
    exact parallel_repeatWhile hi.bool hb rounds
  | .forLoop v lower upper body, ha, hv, hc => by
    have hl := lower.parallel_agrees fun w hw => hv w (ha.1 w hw)
    have hu := upper.parallel_agrees fun w hw => hv w (ha.2.1 w hw)
    have hbody : ∀ w, visible w ∨ w = v → A w ∨ w = v := fun w h => h.imp (hv w) id
    have hb := body.parallel_agrees rounds ha.2.2 hbody fun w hw => .inl (hc w hw)
    exact hl.int.bind fun first => hu.int.bind fun last =>
      parallel_countUp (fun _ _ h => h.mono fun _ => .inl) (fun _ _ n h => h.insert v (.int n)) hb
        (rangeLength first last) first
  | .expression term, ha, hv, _ =>
    (term.parallel_agrees fun w hw => hv w (ha w hw)).bind fun value => parallel_conclude value

theorem Action.parallel_agreesAll (rounds : Nat) {A visible : Variable → Prop} :
    (actions : List Action) → Action.CoveredAll visible actions → (∀ v, visible v → A v) →
    (∀ v ∈ Action.conditionalAll actions, A v) →
    Parallel (Agrees A) (Action.runAll rounds actions) (Action.runAll rounds actions)
  | [], _, _, _ => parallel_pure ()
  | a :: rest, ha, hv, hc => by
    simp only [Action.conditionalAll, List.forall_mem_append] at hc
    have hfirst := a.parallel_agrees rounds ha.1 hv hc.1
    -- The rest sees what leaked out of the first, and finds it declared or left out in both runs.
    have hleaked : ∀ v, visible v ∨ v ∈ a.leaked → A v ∨ v ∈ a.settled := by
      intro v h
      rcases h with h | h
      · exact .inl (hv v h)
      · rcases Action.settled_or_conditional h with h | h
        · exact .inr h
        · exact .inl (hc.1 v h)
    have hrest := Action.parallel_agreesAll rounds rest ha.2 hleaked fun v h => .inl (hc.2 v h)
    refine hfirst.bind_of fun _ m m' n n' hn hn' h => ?_
    have hn := hrest n n' (h.settled hn hn')
    exact ⟨hn.1, hn.2.mono fun _ => .inl⟩

end

end Runs

end ScalarScript
