import ScalarScript.Run.Evaluate

set_option autoImplicit false

namespace ScalarScript

namespace Eval

variable {α β : Type}

/-- Wherever the first step does not run out of rounds, the second does the same. -/
def Extends (x y : Eval α) : Prop := ∀ m, (x m).1 ≠ .error .outOfFuel → y m = x m

theorem extends_refl (x : Eval α) : Extends x x := fun _ _ => rfl

theorem Extends.bind {x y : Eval α} {f g : α → Eval β} (hx : Extends x y)
    (hf : ∀ a, Extends (f a) (g a)) : Extends (x >>= f) (y >>= g) := by
  intro m hm
  change (Eval.bind x f m).1 ≠ _ at hm
  change Eval.bind y g m = Eval.bind x f m
  have hy := hx m
  unfold Eval.bind at hm ⊢
  cases hxm : x m with
  | mk result n =>
    rw [hxm] at hm hy
    cases result with
    | ok a =>
      rw [hy nofun]
      exact hf a n hm
    | error halt =>
      have hne : halt ≠ .outOfFuel := fun heq => hm (heq ▸ rfl)
      rw [hy fun hout => hne (Except.error.inj hout)]

theorem Extends.repeatWhile {body body' : Eval Unit} (condition : Eval Bool)
    (hb : Extends body body') {rounds rounds' : Nat} (hle : rounds ≤ rounds') :
    Extends (repeatWhile condition body rounds) (repeatWhile condition body' rounds') := by
  intro m hm
  induction rounds generalizing rounds' m with
  | zero => exact absurd rfl hm
  | succ rounds ih =>
    obtain ⟨more, rfl⟩ := Nat.exists_eq_add_of_le' hle
    rw [← Nat.add_assoc]
    unfold Eval.repeatWhile at hm ⊢
    match hcm : condition m, hm with
    | (.error halt, n), hm => rfl
    | (.ok false, n), hm => rfl
    | (.ok true, n), hm =>
      dsimp only at hm ⊢
      have hbn := hb n
      match hbm : body n, hm with
      | (.error halt, k), hm =>
        rw [hbm] at hbn
        rw [hbn hm]
      | (.ok _, k), hm =>
        rw [hbm] at hbn
        rw [hbn nofun]
        exact ih (by omega) k hm

theorem Extends.countUp {body body' : Eval Unit} (v : Variable) (hb : Extends body body')
    (rounds : Nat) (n : Int64) : Extends (countUp v body rounds n) (countUp v body' rounds n) := by
  intro m hm
  induction rounds generalizing m n with
  | zero => rfl
  | succ rounds ih =>
    unfold Eval.countUp at hm ⊢
    have hbm := hb { m with store := m.store.insert v (.int n) }
    match hk : body { m with store := m.store.insert v (.int n) }, hm with
    | (.error halt, k), hm =>
      rw [hk] at hbm
      rw [hbm hm]
    | (.ok _, k), hm =>
      rw [hk] at hbm
      rw [hbm nofun]
      exact ih (n + 1) k hm

end Eval

open Eval

mutual

theorem Action.extends_run {rounds rounds' : Nat} (hle : rounds ≤ rounds') : (a : Action) →
    Extends (a.run rounds) (a.run rounds')
  | .block actions => Action.extends_runAll hle actions
  | .declaration _ _ => extends_refl _
  | .ifThen condition thenAction => by
    refine (extends_refl (Eval.bool condition.evaluate)).bind fun b => ?_
    cases b with
    | true => exact thenAction.extends_run hle
    | false => exact extends_refl _
  | .ifThenElse condition thenAction elseAction => by
    refine (extends_refl (Eval.bool condition.evaluate)).bind fun b => ?_
    cases b with
    | true => exact thenAction.extends_run hle
    | false => exact elseAction.extends_run hle
  | .whileLoop condition body =>
    (body.extends_run hle).repeatWhile (Eval.bool condition.evaluate) hle
  | .forLoop v lower upper body =>
    (extends_refl (Eval.int lower.evaluate)).bind fun first =>
      (extends_refl (Eval.int upper.evaluate)).bind fun last =>
        (body.extends_run hle).countUp v (rangeLength first last) first
  | .expression _ => extends_refl _

theorem Action.extends_runAll {rounds rounds' : Nat} (hle : rounds ≤ rounds') :
    (actions : List Action) →
    Extends (Action.runAll rounds actions) (Action.runAll rounds' actions)
  | [] => extends_refl _
  | a :: rest => (a.extends_run hle).bind fun _ => Action.extends_runAll hle rest

end

theorem Action.execute_eq (a : Action) (rounds : Nat) (store : Store) (host : Host)
    (seed : Option UInt64) :
    a.execute rounds store host seed =
      ⟨(a.run rounds ⟨store, host, seed, none, none⟩).1.map fun _ =>
        (a.run rounds ⟨store, host, seed, none, none⟩).2.lastValue,
        (a.run rounds ⟨store, host, seed, none, none⟩).2.store,
        (a.run rounds ⟨store, host, seed, none, none⟩).2.host⟩ := rfl

theorem Action.execute_of_le {a : Action} {rounds rounds' : Nat} (hle : rounds ≤ rounds')
    {store : Store} {host : Host} {seed : Option UInt64}
    (h : (a.execute rounds store host seed).result ≠ .error .outOfFuel) :
    a.execute rounds' store host seed = a.execute rounds store host seed := by
  have hrun := a.extends_run hle ⟨store, host, seed, none, none⟩ fun hout => h (by
    rw [execute_eq, hout]
    rfl)
  rw [execute_eq, execute_eq, hrun]

end ScalarScript
