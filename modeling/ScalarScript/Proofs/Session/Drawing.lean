import ScalarScript.Proofs.Running.Drawing
import ScalarScript.Proofs.Running.Ending
import ScalarScript.Proofs.Session.Histories

set_option autoImplicit false

namespace ScalarScript

namespace Reply

/-- The number of successes since the last reset, behind one more step. -/
def count (successes : Nat) (reply : Reply) : Nat :=
  match reply.result with
  | none => 0
  | some (.ok e) => if e.isSuccess then successes + 1 else successes
  | some (.error _) => successes

def successes (replies : List Reply) : Nat := replies.foldl count 0

end Reply

namespace Session

variable {s : Session}

theorem seed_after (s : Session) (steps : List Step) : (s.after steps).seed = s.seed := by
  induction steps generalizing s with
  | nil => rfl
  | cons step rest ih =>
    rw [after_cons, ih]
    cases step with
    | reset => rfl
    | submit rounds text => rfl

theorem ordinal_perform (s : Session) (step : Step) :
    (s.perform step).2.ordinal =
      Reply.count s.ordinal ⟨(s.perform step).1, (s.perform step).2.host⟩ := by
  cases step with
  | reset => rfl
  | submit rounds text =>
    rw [perform_submit, submit]
    obtain ⟨hd, hrun⟩ | ⟨-, m, -, hrun⟩ | ⟨-, halt, m, -, hrun⟩ :=
      s.run_cases rounds (s.compile (.ofText text))
    · rw [hrun]
      simp [Reply.count, Evaluation.isSuccess, hd]
    · rw [hrun]
      rfl
    · rw [hrun]
      rfl

theorem ordinal_after (s : Session) (steps : List Step) :
    (s.after steps).ordinal = (s.replies steps).foldl Reply.count s.ordinal := by
  induction steps generalizing s with
  | nil => rfl
  | cons step rest ih => rw [after_cons, ih, replies_cons, List.foldl_cons, ordinal_perform]

theorem nextSeed_after (host : Host) (seed : UInt64) (steps : List Step) :
    ((start host (some seed)).after steps).nextSeed =
      some (UInt64.ofNat (seed.toNat +
        Reply.successes ((start host (some seed)).replies steps))) := by
  have hordinal : ((start host (some seed)).after steps).ordinal =
      Reply.successes ((start host (some seed)).replies steps) := ordinal_after _ steps
  rw [nextSeed, seed_after, hordinal, UInt64.ofNat_add, UInt64.ofNat_toNat]
  rfl

theorem run_seeded {c : Compilation} {seed : Option UInt64} (hseed : s.nextSeed = seed)
    (rounds : Nat) (h : c.diagnostics = []) :
    let outcome := c.snapshot.action.execute rounds s.store s.host seed
    (s.run rounds c).1 = outcome.result.map (fun value => ⟨[], value⟩) ∧
      (s.run rounds c).2.store = outcome.store ∧ (s.run rounds c).2.host = outcome.host := by
  intro outcome
  have houtcome : s.outcome rounds c = outcome := by rw [Session.outcome, hseed]
  rw [run_of_faultless s rounds h, houtcome]
  exact ⟨rfl, rfl, rfl⟩

/-- In every evaluation that is given a seed, from whatever store, each call for a random number is
answered by the seed and the positive bounds up to it, in the order of the calls; the source of the
numbers comes about at the first positive bound and is changed by these alone. In a session that is
given a seed, a fragment without faults is evaluated with that seed plus the number of submissions
that succeeded since the last reset, counted around at 64 bits. -/
theorem draws_from_seed :
    (∀ (a : Action) (store : Store) (host : Host) (seed : UInt64),
      let p := Progress.start a ⟨store, host, some seed, none, none⟩
      (∀ n, Draw.FromSeed seed (p.draws n) ∧
        (Progress.step^[n] p).machine.generator = Random.source seed (Draw.bounds (p.draws n))) ∧
      ∀ rounds, (a.execute rounds store host (some seed)).result ≠ .error .outOfFuel →
        ∃ n result m, Progress.step^[n] p = .over result m ∧
          a.execute rounds store host (some seed) =
            ⟨result.map fun _ => m.lastValue, m.store, m.host⟩) ∧
    (∀ (bound : Int64) (m : Machine), ¬0 < bound → (Eval.randomBelow bound m).2 = m) ∧
    ∀ (host : Host) (seed : UInt64) (steps : List Step),
      let s := (start host (some seed)).after steps
      let successes := Reply.successes ((start host (some seed)).replies steps)
      s.ordinal = successes ∧ ∀ rounds text, (s.compile (.ofText text)).diagnostics = [] →
        let outcome := (s.compile (.ofText text)).snapshot.action.execute rounds s.store s.host
          (some (UInt64.ofNat (seed.toNat + successes)))
        (s.submit rounds text).1 = outcome.result.map (fun value => ⟨[], value⟩) ∧
          (s.submit rounds text).2.store = outcome.store ∧
          (s.submit rounds text).2.host = outcome.host := by
  refine ⟨fun a store host seed => ⟨fun n => ?_, fun rounds => Action.execute_over⟩,
    fun bound m h => Eval.randomBelow_of_not_pos h m, fun host seed steps => ?_⟩
  · exact Progress.draws_fromSeed ⟨rfl, rfl⟩ a n
  · exact ⟨ordinal_after _ steps, fun rounds text =>
      run_seeded (nextSeed_after host seed steps) rounds⟩

/-- A fragment behind one that failed, one that succeeded and two that were rejected. -/
theorem draws_from_seed_between :
    let steps : List Step := [.submit 1 "rnd(5) / 0", .submit 1 "x", .submit 1 "var a = rnd(9)",
      .submit 1 "a +"]
    let s := (start (.ofLines []) (some 10)).after steps
    let c := s.compile (.ofText "{ rnd(0) a = rnd(1000000) }")
    let p := Progress.start c.snapshot.action ⟨s.store, s.host, some 11, none, none⟩
    s.ordinal = 1 ∧ c.diagnostics = [] ∧
      (s.submit 1 "{ rnd(0) a = rnd(1000000) }").1 = .ok ⟨[], some (.int 275960)⟩ ∧
      p.draws 20 = [⟨0, .ok 0⟩, ⟨1000000, .ok 275960⟩] ∧ Draw.FromSeed 11 (p.draws 20) := by
  intro steps s c p
  have hordinal := (draws_from_seed.2.2 (.ofLines []) 10 steps).1
  have hsuccesses : Reply.successes ((start (.ofLines []) (some 10)).replies steps) = 1 := by
    decide +kernel
  have hd : c.diagnostics = [] := by decide +kernel
  have hresult : (s.submit 1 "{ rnd(0) a = rnd(1000000) }").1 =
      .ok ⟨[], some (.int 275960)⟩ := by decide +kernel
  have hdraws : p.draws 20 = [⟨0, .ok 0⟩, ⟨1000000, .ok 275960⟩] := by decide +kernel
  exact ⟨hordinal.trans hsuccesses, hd, hresult, hdraws,
    ((draws_from_seed.1 c.snapshot.action s.store s.host 11).1 20).1⟩

end Session

end ScalarScript
