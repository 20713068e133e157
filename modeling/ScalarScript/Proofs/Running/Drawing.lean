import ScalarScript.Proofs.Running.Effects

/-!
Random numbers of a run. Every call for one is answered by the seed, the bounds of the calls before
it and its own bound, of which only the positive ones count: the others draw nothing. Nothing else
that a program does between two calls has a part in the answers.
-/

set_option autoImplicit false

namespace ScalarScript

def Generator.behind (g : Generator) (bounds : List Int64) : Generator :=
  bounds.foldl (fun g bound => (g.below bound.toInt.toNat).2) g

namespace Random

def number (seed : UInt64) (earlier : List Int64) (bound : Int64) : Nat :=
  (((Generator.ofSeed seed).behind earlier).below bound.toInt.toNat).1

/-- The source that a run has after draws below these bounds: none is made before the first. -/
def source (seed : UInt64) : List Int64 → Option Generator
  | [] => none
  | bounds => some ((Generator.ofSeed seed).behind bounds)

theorem drawFrom_lt (key : Key) {bound : Nat} (h : 0 < bound) (tries n : Nat) :
    (drawFrom key bound tries n).1 < bound := by
  induction tries generalizing n with
  | zero => exact h
  | succ tries ih =>
    unfold drawFrom
    dsimp only
    split
    · rw [Nat.div_lt_iff_lt_mul (by decide : 0 < UInt64.size), Nat.mul_comm bound]
      exact Nat.mul_lt_mul_of_pos_right (UInt64.toNat_lt_size _) h
    · exact ih (n + 1)

theorem below_lt (g : Generator) {bound : Nat} (h : 0 < bound) : (g.below bound).1 < bound :=
  drawFrom_lt g.key h 1000 g.taken

theorem number_lt (seed : UInt64) (earlier : List Int64) {bound : Int64} (h : 0 < bound) :
    (number seed earlier bound : Int) < bound.toInt := by
  have hpos : 0 < bound.toInt := Int64.lt_iff_toInt_lt.mp h
  have hnat : 0 < bound.toInt.toNat := by omega
  have hlt : number seed earlier bound < bound.toInt.toNat := below_lt _ hnat
  omega

end Random

structure Draw where
  bound : Int64
  result : Except Halt Int64
  deriving DecidableEq

namespace Draw

def bounds (ds : List Draw) : List Int64 := (ds.map Draw.bound).filter fun bound => 0 < bound

/-- What is to come of a call, by the seed and the positive bounds of the calls before it. -/
inductive Answered (seed : UInt64) (earlier : List Int64) : Draw → Prop where
  | negative {bound : Int64} (h : bound < 0) :
      Answered seed earlier ⟨bound, .error (.failed (.negativeRandomBound bound))⟩
  | zero : Answered seed earlier ⟨0, .ok 0⟩
  | positive {bound n : Int64} (h : 0 < bound) (hn : n.toInt = Random.number seed earlier bound) :
      Answered seed earlier ⟨bound, .ok n⟩

structure FromSeed (seed : UInt64) (ds : List Draw) : Prop where
  /-- Each has the answer that belongs to the positive bounds before it and to its own bound. -/
  answered : ∀ before d later, ds = before ++ d :: later → d.Answered seed (bounds before)
  within : ∀ d ∈ ds, ∀ n, d.result = .ok n →
    0 ≤ n.toInt ∧ (n.toInt < d.bound.toInt ∨ d.bound = 0 ∧ n = 0)

theorem bounds_append (ds ds' : List Draw) : bounds (ds ++ ds') = bounds ds ++ bounds ds' := by
  simp [bounds]

theorem bounds_of_pos {d : Draw} (h : 0 < d.bound) : bounds [d] = [d.bound] := by
  simp [bounds, h]

theorem bounds_of_not_pos {d : Draw} (h : ¬0 < d.bound) : bounds [d] = [] := by
  simp [bounds, h]

theorem Answered.within {seed : UInt64} {earlier : List Int64} {d : Draw} {n : Int64}
    (h : d.Answered seed earlier) (hn : d.result = .ok n) :
    0 ≤ n.toInt ∧ (n.toInt < d.bound.toInt ∨ d.bound = 0 ∧ n = 0) := by
  cases h with
  | negative h => cases hn
  | zero =>
    cases hn
    exact ⟨Int.le_refl 0, .inr ⟨rfl, rfl⟩⟩
  | positive h hnumber =>
    cases hn
    have hlt := Random.number_lt seed earlier h
    refine ⟨by omega, .inl ?_⟩
    rwa [hnumber]

end Draw

structure Machine.Drew (s : UInt64) (bounds : List Int64) (m : Machine) : Prop where
  seed : m.seed = some s
  generator : m.generator = Random.source s bounds

namespace Eval

theorem randomBelow_of_neg {bound : Int64} (h : bound < 0) :
    randomBelow bound = fail (.negativeRandomBound bound) := by
  rw [randomBelow, if_pos h]

theorem randomBelow_of_not_pos {bound : Int64} (h : ¬0 < bound) (m : Machine) :
    (randomBelow bound m).2 = m := by
  unfold randomBelow
  split
  · rfl
  · split
    · rfl
    · rename_i hneg hzero
      exact absurd (Int64.lt_of_le_of_ne (Int64.not_lt.mp hneg) (Ne.symm hzero)) h

theorem generator_of_drew {seed : UInt64} {bounds : List Int64} {m : Machine}
    (hm : m.Drew seed bounds) :
    generator m = (.ok ((Generator.ofSeed seed).behind bounds), m) := by
  unfold generator
  rw [hm.generator, hm.seed]
  cases bounds <;> rfl

theorem randomBelow_of_pos {bound : Int64} (h : 0 < bound) {seed : UInt64} {bounds : List Int64}
    {m : Machine} (hm : m.Drew seed bounds) :
    ∃ n m', randomBelow bound m = (.ok n, m') ∧ n.toInt = Random.number seed bounds bound ∧
      m'.Drew seed (bounds ++ [bound]) := by
  have hpos : 0 < bound.toInt := Int64.lt_iff_toInt_lt.mp h
  have hnot : ¬bound < 0 := by
    rw [Int64.lt_iff_toInt_lt]
    exact Int.not_lt.mpr (Int.le_of_lt hpos)
  have hne : bound ≠ 0 := by
    rintro rfl
    exact Int.lt_irrefl 0 hpos
  have hrandom : randomBelow bound m =
      (.ok (Int64.ofNat (Random.number seed bounds bound)),
        { m with generator := some ((Generator.ofSeed seed).behind (bounds ++ [bound])) }) := by
    rw [randomBelow, if_neg hnot, if_neg hne, bind_of_ok (generator_of_drew hm)]
    rw [Generator.behind, Generator.behind, List.foldl_append]
    rfl
  have hlt := Random.number_lt seed bounds h
  have hmax := bound.toInt_lt
  refine ⟨_, _, hrandom, Int64.toInt_ofNat_of_lt (by omega), hm.seed, ?_⟩
  cases bounds <;> rfl

end Eval

namespace Progress

def draw? : Progress → Option Draw
  | .going (.draw :: _) (some (.int bound)) m => some ⟨bound, (Eval.randomBelow bound m).1⟩
  | _ => none

def draws : Nat → Progress → List Draw
  | 0, _ => []
  | n + 1, p => p.draw?.toList ++ p.step.draws n

/-- Nothing but a call has to do with the seed and the source of random numbers. -/
theorem admits_drew (seed : UInt64) (bounds : List Int64) :
    Machine.Admits fun m m' => m.Drew seed bounds → m'.Drew seed bounds where
  refl _ := id
  trans h h' := h' ∘ h
  save _ _ _ h := ⟨h.seed, h.generator⟩
  conclude _ _ h := ⟨h.seed, h.generator⟩
  readLine _ h := ⟨h.seed, h.generator⟩
  writeLine _ _ h := ⟨h.seed, h.generator⟩

theorem advance_draw (bound : Int64) :
    Task.advance (some (.int bound)) .draw =
      Eval.randomBelow bound >>= fun n => pure (some (.int n), []) :=
  Eval.bind_assoc (Eval.randomBelow bound) _ _

theorem draw?_of_ne {task : Task} (h : task ≠ .draw) (rest : List Task) (given : Option Value)
    (m : Machine) : (going (task :: rest) given m).draw? = none := by
  cases task with
  | draw => exact absurd rfl h
  | _ => rfl

/-- A call that is about to be made is answered by the seed and the bounds so far, and its own bound
joins them if it is positive. -/
theorem step_of_draw {seed : UInt64} {bounds : List Int64} {m : Machine} (hm : m.Drew seed bounds)
    (bound : Int64) (rest : List Task) :
    let p := going (.draw :: rest) (some (.int bound)) m
    let d : Draw := ⟨bound, (Eval.randomBelow bound m).1⟩
    d.Answered seed bounds ∧ p.step.machine.Drew seed (bounds ++ Draw.bounds [d]) := by
  intro p d
  have hadvance := congrFun (advance_draw bound) m
  by_cases hzero : bound = 0
  · subst hzero
    have hrandom : Eval.randomBelow 0 m = (.ok 0, m) := rfl
    rw [Eval.bind_of_ok hrandom] at hadvance
    rw [Draw.bounds_of_not_pos (d := d) (by simp [d]), List.append_nil, step_of_ok hadvance]
    exact ⟨.zero, hm⟩
  rcases Int64.lt_or_lt_of_ne hzero with hneg | hpos
  · have hrandom : Eval.randomBelow bound m =
        (.error (.failed (.negativeRandomBound bound)), m) := by
      rw [Eval.randomBelow_of_neg hneg]
      rfl
    have hnot : ¬0 < d.bound := Int64.not_lt.mpr (Int64.le_of_lt hneg)
    have hd : d = ⟨bound, .error (.failed (.negativeRandomBound bound))⟩ := by
      simp only [d, hrandom]
    rw [Eval.bind_of_error _ hrandom] at hadvance
    rw [Draw.bounds_of_not_pos hnot, List.append_nil, step_of_error hadvance, hd]
    exact ⟨.negative hneg, hm⟩
  · obtain ⟨n, m', hrandom, hn, hm'⟩ := Eval.randomBelow_of_pos hpos hm
    have hd : d = ⟨bound, .ok n⟩ := by
      simp only [d, hrandom]
    rw [Eval.bind_of_ok hrandom] at hadvance
    rw [Draw.bounds_of_pos (d := d) hpos, step_of_ok hadvance, hd]
    exact ⟨.positive hpos hn, hm'⟩

/-- What a step does to the seed and the source of random numbers: the call that it makes is
answered, and counts among those before if its bound is positive. -/
theorem step_draw {seed : UInt64} {bounds : List Int64} {p : Progress}
    (hp : p.machine.Drew seed bounds) :
    (∀ d ∈ p.draw?, d.Answered seed bounds) ∧
      p.step.machine.Drew seed (bounds ++ Draw.bounds p.draw?.toList) := by
  have hnone (hdraw : p.draw? = none) (hkeep : p.step.machine.Drew seed bounds) :
      (∀ d ∈ p.draw?, d.Answered seed bounds) ∧
        p.step.machine.Drew seed (bounds ++ Draw.bounds p.draw?.toList) := by
    rw [hdraw, Option.toList_none]
    exact ⟨nofun, by rwa [Draw.bounds, List.map_nil, List.filter_nil, List.append_nil]⟩
  match p with
  | .over result m => exact hnone rfl hp
  | .going [] _ m => exact hnone rfl hp
  | .going (task :: rest) given m =>
    by_cases htask : task = .draw
    · subst htask
      match given with
      | some (.int bound) =>
        obtain ⟨hanswered, hstep⟩ := step_of_draw hp bound rest
        exact ⟨fun d hd => Option.mem_some.mp hd ▸ hanswered, hstep⟩
      | some (.bool b) => exact hnone rfl hp
      | some (.string s) => exact hnone rfl hp
      | none => exact hnone rfl hp
    · refine hnone (draw?_of_ne htask rest given m) ?_
      rw [machine_step]
      exact task.moves_advance (admits_drew seed bounds) given
        (fun hdraw => absurd hdraw htask) m hp

theorem draws_answered {seed : UInt64} {bounds : List Int64} {p : Progress}
    (hp : p.machine.Drew seed bounds) (n : Nat) :
    (∀ before d later, p.draws n = before ++ d :: later →
      d.Answered seed (bounds ++ Draw.bounds before)) ∧
      (step^[n] p).machine.Drew seed (bounds ++ Draw.bounds (p.draws n)) := by
  induction n generalizing p bounds with
  | zero => exact ⟨by simp [draws], by simpa [draws, Draw.bounds] using hp⟩
  | succ n ih =>
    obtain ⟨hanswered, hstep⟩ := step_draw hp
    obtain ⟨hlater, hend⟩ := ih hstep
    rw [draws, Draw.bounds_append, ← List.append_assoc]
    refine ⟨fun before d later heq => ?_, hend⟩
    cases hdraw : p.draw? with
    | none =>
      rw [hdraw] at heq hlater
      have h := hlater before d later heq
      rwa [Option.toList_none, Draw.bounds, List.map_nil, List.filter_nil, List.append_nil] at h
    | some first =>
      rw [hdraw] at heq hlater
      cases before with
      | nil =>
        obtain ⟨rfl, -⟩ := List.cons_eq_cons.mp heq
        exact (List.append_nil bounds).symm ▸ hanswered first hdraw
      | cons _ before =>
        obtain ⟨rfl, htail⟩ := List.cons_eq_cons.mp heq
        have h := hlater before d later htail
        rwa [List.append_assoc, ← Draw.bounds_append] at h

/-- A run that begins without a source of random numbers draws all of them from its seed, and has
the source that these draws leave. -/
theorem draws_fromSeed {seed : UInt64} {m : Machine} (hm : m.Drew seed []) (a : Action) (n : Nat) :
    Draw.FromSeed seed ((start a m).draws n) ∧
      (step^[n] (start a m)).machine.generator =
        Random.source seed (Draw.bounds ((start a m).draws n)) := by
  obtain ⟨hanswered, hend⟩ := draws_answered (p := start a m) hm n
  refine ⟨⟨hanswered, fun d hd k hk => ?_⟩, hend.generator⟩
  obtain ⟨before, later, heq⟩ := List.append_of_mem hd
  exact (hanswered before d later heq).within hk

end Progress

end ScalarScript
