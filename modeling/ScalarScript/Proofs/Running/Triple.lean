import ScalarScript.Run.Evaluate

set_option autoImplicit false

namespace ScalarScript

namespace Eval

variable {α β : Type}

theorem bind_of_ok {x : Eval α} {f : α → Eval β} {m n : Machine} {a : α} (h : x m = (.ok a, n)) :
    (x >>= f) m = f a n := by
  change Eval.bind x f m = f a n
  rw [Eval.bind, h]

/-- From every state with `pre` the step gives a value and a state with `post`, or ends the run in
a state with `halts`. -/
def Ensures (pre : Machine → Prop) (x : Eval α) (post : α → Machine → Prop)
    (halts : Halt → Machine → Prop) : Prop :=
  ∀ m, pre m →
    match x m with
    | (.ok a, m') => post a m'
    | (.error halt, m') => halts halt m'

section Rules

variable {pre : Machine → Prop} {post : α → Machine → Prop} {halts : Halt → Machine → Prop}

theorem Ensures.mono {pre' : Machine → Prop} {post' : α → Machine → Prop} {x : Eval α}
    (h : Ensures pre x post halts) (hpre : ∀ m, pre' m → pre m)
    (hpost : ∀ a m, post a m → post' a m) : Ensures pre' x post' halts := by
  intro m hm
  have hx := h m (hpre m hm)
  revert hx
  cases x m with
  | mk result m' =>
    cases result with
    | ok a => exact hpost a m'
    | error halt => exact id

theorem ensures_pure {a : α} (h : ∀ m, pre m → post a m) :
    Ensures pre (pure a : Eval α) post halts := h

theorem ensures_fail {error : RunError} (h : ∀ m, pre m → halts (.failed error) m) :
    Ensures pre (fail error : Eval α) post halts := h

theorem Ensures.bind {mid : α → Machine → Prop} {post : β → Machine → Prop} {x : Eval α}
    {f : α → Eval β} (hx : Ensures pre x mid halts) (hf : ∀ a, Ensures (mid a) (f a) post halts) :
    Ensures pre (x >>= f) post halts := by
  intro m hm
  have h := hx m hm
  change match Eval.bind x f m with
    | (.ok a, m') => post a m'
    | (.error halt, m') => halts halt m'
  unfold Eval.bind
  revert h
  cases x m with
  | mk result m' =>
    cases result with
    | ok a => exact hf a m'
    | error halt => exact id

theorem ensures_lift_ok {result : Except RunError α} {a : α} (hr : result = .ok a)
    (h : ∀ m, pre m → post a m) : Ensures pre (lift result) post halts := by
  subst hr
  exact h

theorem ensures_lift_error {result : Except RunError α} {error : RunError}
    (hr : result = .error error) (h : ∀ m, pre m → halts (.failed error) m) :
    Ensures pre (lift result) post halts := by
  subst hr
  exact h

theorem ensures_load {post : Value → Machine → Prop} (v : Variable)
    (hsome : ∀ m value, pre m → m.store.get? v = some value → post value m)
    (hnone : ∀ m, pre m → m.store.get? v = none → halts (.failed (.unassignedVariable v.name)) m) :
    Ensures pre (load v) post halts := by
  intro m hm
  unfold load
  cases hv : m.store.get? v with
  | some value => exact hsome m value hm hv
  | none => exact hnone m hm hv

theorem ensures_save {post : Unit → Machine → Prop} (v : Variable) (value : Value)
    (h : ∀ m, pre m → post () { m with store := m.store.insert v value }) :
    Ensures pre (save v value) post halts := h

theorem Ensures.value {post : Value → Machine → Prop} {x : Eval (Option Value)}
    (hx : Ensures pre x (fun o m => ∃ value, o = some value ∧ post value m) halts) :
    Ensures pre (value x) post halts := by
  unfold Eval.value
  refine hx.bind fun o m hm => ?_
  obtain ⟨value, rfl, hpost⟩ := hm
  exact hpost

/-- A loop under a condition keeps what the condition and its body keep. It may run out of
rounds. -/
theorem ensures_repeatWhile {inv : Machine → Prop} {condition : Eval Bool} {body : Eval Unit}
    (hc : Ensures inv condition (fun _ m => inv m) halts)
    (hb : Ensures inv body (fun _ m => inv m) halts)
    (hfuel : ∀ m, inv m → halts .outOfFuel m) (rounds : Nat) :
    Ensures inv (repeatWhile condition body rounds) (fun _ m => inv m) halts := by
  intro m hm
  induction rounds generalizing m with
  | zero => exact hfuel m hm
  | succ rounds ih =>
    have h := hc m hm
    unfold repeatWhile
    revert h
    match condition m with
    | (.error halt, m') => exact id
    | (.ok false, m') => exact id
    | (.ok true, m') =>
      intro h
      have h := hb m' h
      revert h
      dsimp only
      match body m' with
      | (.error halt, m'') => exact id
      | (.ok _, m'') => exact ih m''

/-- A loop over a range keeps what its body keeps, if the variable can be set to a number. -/
theorem ensures_countUp {inv : Machine → Prop} {v : Variable} {body : Eval Unit}
    (hv : ∀ m n, inv m → inv { m with store := m.store.insert v (.int n) })
    (hb : Ensures inv body (fun _ m => inv m) halts) (rounds : Nat) (n : Int64) :
    Ensures inv (countUp v body rounds n) (fun _ m => inv m) halts := by
  intro m hm
  induction rounds generalizing n m with
  | zero => exact hm
  | succ rounds ih =>
    have h := hb _ (hv m n hm)
    unfold countUp
    revert h
    match body { m with store := m.store.insert v (.int n) } with
    | (.error halt, m') => exact id
    | (.ok _, m') => exact ih (n + 1) m'

end Rules

end Eval

end ScalarScript
