import ScalarScript.Run.Evaluate

set_option autoImplicit false

namespace ScalarScript

namespace Eval

variable {α β : Type} {I : Machine → Machine → Prop}

def Parallel (I : Machine → Machine → Prop) (x y : Eval α) : Prop :=
  ∀ m m', I m m' → (y m').1 = (x m).1 ∧ I (x m).2 (y m').2

theorem parallel_pure (a : α) : Parallel I (pure a : Eval α) (pure a) :=
  fun _ _ h => ⟨rfl, h⟩

theorem parallel_fail (error : RunError) : Parallel I (fail error : Eval α) (fail error) :=
  fun _ _ h => ⟨rfl, h⟩

theorem parallel_lift (result : Except RunError α) : Parallel I (lift result) (lift result) :=
  fun _ _ h => ⟨rfl, h⟩

theorem Parallel.outcomes {x y : Eval α} (h : Parallel I x y) {m m' : Machine} (hm : I m m') :
    (∃ a n n', x m = (.ok a, n) ∧ y m' = (.ok a, n') ∧ I n n') ∨
      ∃ halt n n', x m = (.error halt, n) ∧ y m' = (.error halt, n') ∧ I n n' := by
  obtain ⟨hresult, hstate⟩ := h m m' hm
  cases hx : x m with
  | mk result n =>
    cases hy : y m' with
    | mk result' n' =>
      rw [hx, hy] at hresult hstate
      cases hresult
      cases result with
      | ok a => exact .inl ⟨a, n, n', rfl, rfl, hstate⟩
      | error halt => exact .inr ⟨halt, n, n', rfl, rfl, hstate⟩

theorem Parallel.bind_of {x y : Eval α} {f g : α → Eval β} (hx : Parallel I x y)
    (hf : ∀ a m m' n n', x m = (.ok a, n) → y m' = (.ok a, n') → I n n' →
      (g a n').1 = (f a n).1 ∧ I (f a n).2 (g a n').2) : Parallel I (x >>= f) (y >>= g) := by
  intro m m' h
  change (Eval.bind y g m').1 = (Eval.bind x f m).1 ∧ I (Eval.bind x f m).2 (Eval.bind y g m').2
  unfold Eval.bind
  obtain ⟨a, n, n', hxm, hym, hstate⟩ | ⟨halt, n, n', hxm, hym, hstate⟩ := hx.outcomes h
  · rw [hxm, hym]
    exact hf a m m' n n' hxm hym hstate
  · rw [hxm, hym]
    exact ⟨rfl, hstate⟩

theorem Parallel.bind {x y : Eval α} {f g : α → Eval β} (hx : Parallel I x y)
    (hf : ∀ a, Parallel I (f a) (g a)) : Parallel I (x >>= f) (y >>= g) :=
  hx.bind_of fun a _ _ n n' _ _ h => hf a n n' h

theorem Parallel.value {x y : Eval (Option Value)} (h : Parallel I x y) :
    Parallel I (value x) (value y) :=
  h.bind fun o => by
    cases o with
    | none => exact parallel_fail _
    | some v => exact parallel_pure v

theorem Parallel.int {x y : Eval (Option Value)} (h : Parallel I x y) :
    Parallel I (int x) (int y) :=
  h.value.bind fun v => parallel_lift v.expectInt

theorem Parallel.bool {x y : Eval (Option Value)} (h : Parallel I x y) :
    Parallel I (bool x) (bool y) :=
  h.value.bind fun v => parallel_lift v.expectBool

theorem parallel_repeatWhile {condition condition' : Eval Bool} {body body' : Eval Unit}
    (hc : Parallel I condition condition') (hb : Parallel I body body') (rounds : Nat) :
    Parallel I (repeatWhile condition body rounds) (repeatWhile condition' body' rounds) := by
  intro m m' h
  induction rounds generalizing m m' with
  | zero => exact ⟨rfl, h⟩
  | succ rounds ih =>
    unfold repeatWhile
    obtain ⟨b, n, n', hcm, hcm', hstate⟩ | ⟨halt, n, n', hcm, hcm', hstate⟩ := hc.outcomes h
    · rw [hcm, hcm']
      cases b with
      | false => exact ⟨rfl, hstate⟩
      | true =>
        obtain ⟨_, k, k', hbn, hbn', hstate⟩ | ⟨halt, k, k', hbn, hbn', hstate⟩ :=
          hb.outcomes hstate
        · simp only [hbn, hbn']
          exact ih k k' hstate
        · simp only [hbn, hbn']
          exact ⟨trivial, hstate⟩
    · rw [hcm, hcm']
      exact ⟨rfl, hstate⟩

/-- Two loops over a range keep a relation if their bodies keep one that implies it, and that comes
about when the variables are set to the same number. -/
theorem parallel_countUp {J : Machine → Machine → Prop} {v v' : Variable} {body body' : Eval Unit}
    (hJ : ∀ m m', J m m' → I m m')
    (hv : ∀ m m' n, I m m' → J { m with store := m.store.insert v (.int n) }
      { m' with store := m'.store.insert v' (.int n) })
    (hb : Parallel J body body') (rounds : Nat) (n : Int64) :
    Parallel I (countUp v body rounds n) (countUp v' body' rounds n) := by
  intro m m' h
  induction rounds generalizing m m' n with
  | zero => exact ⟨rfl, h⟩
  | succ rounds ih =>
    unfold countUp
    obtain ⟨_, k, k', hbm, hbm', hstate⟩ | ⟨halt, k, k', hbm, hbm', hstate⟩ :=
      hb.outcomes (hv m m' n h)
    · rw [hbm, hbm']
      exact ih (n + 1) k k' (hJ k k' hstate)
    · rw [hbm, hbm']
      exact ⟨rfl, hJ k k' hstate⟩

end Eval

end ScalarScript
