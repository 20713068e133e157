import ScalarScript.Proofs.Session.Steps

set_option autoImplicit false

namespace ScalarScript

inductive Step where
  | submit (rounds : Nat) (text : String)
  | reset
  deriving DecidableEq, Repr

structure Reply where
  result : Option (Except Halt Evaluation)
  host : Host

namespace Session

def perform (s : Session) : Step → Option (Except Halt Evaluation) × Session
  | .submit rounds text => (some (s.submit rounds text).1, (s.submit rounds text).2)
  | .reset => (none, s.reset)

def replies (s : Session) : List Step → List Reply
  | [] => []
  | step :: rest =>
    ⟨(s.perform step).1, (s.perform step).2.host⟩ :: (s.perform step).2.replies rest

def after (s : Session) : List Step → Session
  | [] => s
  | step :: rest => (s.perform step).2.after rest

section Steps

variable (s : Session)

@[simp] theorem perform_submit (rounds : Nat) (text : String) :
    s.perform (.submit rounds text) =
      (some (s.submit rounds text).1, (s.submit rounds text).2) := rfl

@[simp] theorem perform_reset : s.perform .reset = (none, s.reset) := rfl

@[simp] theorem replies_nil : s.replies [] = [] := rfl

@[simp] theorem replies_cons (step : Step) (rest : List Step) :
    s.replies (step :: rest) =
      ⟨(s.perform step).1, (s.perform step).2.host⟩ :: (s.perform step).2.replies rest := rfl

@[simp] theorem after_nil : s.after [] = s := rfl

@[simp] theorem after_cons (step : Step) (rest : List Step) :
    s.after (step :: rest) = (s.perform step).2.after rest := rfl

end Steps

def Rejects (s : Session) (step : Step) : Prop :=
  ∃ e, (s.perform step).1 = some (.ok e) ∧ e.diagnostics ≠ []

theorem unchanged_of_run {s : Session} {rounds : Nat} {c : Compilation} {e : Evaluation}
    (h : (s.run rounds c).1 = .ok e) (hd : e.diagnostics ≠ []) : (s.run rounds c).2 = s := by
  rw [diagnostics_of_run h] at hd
  rw [run_of_faulty s rounds hd]

theorem Rejects.unchanged {s : Session} {step : Step} (h : s.Rejects step) :
    (s.perform step).2 = s := by
  obtain ⟨e, hresult, hd⟩ := h
  cases step with
  | submit rounds text => exact unchanged_of_run (Option.some.inj hresult) hd
  | reset => cases hresult

theorem rejects_of_faulty {s : Session} {text : String} (rounds : Nat)
    (h : (s.compile (.ofText text)).diagnostics ≠ []) : s.Rejects (.submit rounds text) := by
  refine ⟨⟨(s.compile (.ofText text)).diagnostics, none⟩, ?_, h⟩
  rw [perform_submit, submit, run_of_faulty s rounds h]

def Faultless (s : Session) : Prop := ∀ c ∈ s.chain, c.diagnostics = []

theorem Faultless.run {s : Session} (h : s.Faultless) (rounds : Nat) (c : Compilation) :
    (s.run rounds c).2.Faultless := by
  obtain ⟨-, hrun⟩ | ⟨hd, m, -, hrun⟩ | ⟨-, halt, m, -, hrun⟩ := s.run_cases rounds c
  · rw [hrun]
    exact h
  · rw [hrun]
    exact List.forall_mem_cons.mpr ⟨hd, h⟩
  · rw [hrun]
    exact h

theorem Reachable.faultless {s : Session} (h : s.Reachable) : s.Faultless := by
  induction h with
  | start host seed => exact List.forall_mem_nil _
  | submit h rounds text ih => exact ih.run rounds _
  | reset h ih => exact List.forall_mem_nil _

/-- Behind fragments without faults, what is wrong with a compilation is wrong with its own text or
its own meaning. -/
theorem Faultless.diagnostics_compile {s : Session} (h : s.Faultless) (fragment : Fragment) :
    (s.compile fragment).diagnostics = fragment.diagnostics ++
      fragment.tree.statement.bind.found (Snapshot.surroundings s.snapshots) := by
  have hearlier : (s.snapshots.head?.map Snapshot.diagnostics).getD [] = [] := by
    rw [snapshots]
    cases hchain : s.chain with
    | nil => rfl
    | cons c rest =>
      have hc := h c (by simp [hchain])
      exact (List.append_eq_nil_iff.mp hc).2
  rw [Compilation.diagnostics, snapshot_compile, Snapshot.diagnostics_bind, hearlier]
  rfl

def marked {α : Type} (xs : List (α × Bool)) : List α := (xs.filter Prod.snd).map Prod.fst

/-- Every step of a history that is not marked is a submission that is rejected at its place. -/
def RejectsUnmarked (s : Session) : List (Step × Bool) → Prop
  | [] => True
  | (step, mark) :: rest =>
    (mark = false → s.Rejects step) ∧ (s.perform step).2.RejectsUnmarked rest

theorem RejectsUnmarked.replies {s : Session} {history : List (Step × Bool)}
    (h : s.RejectsUnmarked history) :
    marked ((s.replies (history.map Prod.fst)).zip (history.map Prod.snd)) =
      s.replies (marked history) := by
  induction history generalizing s with
  | nil => rfl
  | cons entry rest ih =>
    obtain ⟨step, mark⟩ := entry
    obtain ⟨hstep, hrest⟩ := h
    have hreplies := ih hrest
    cases mark with
    | true => simpa [marked] using hreplies
    | false =>
      rw [(hstep rfl).unchanged] at hreplies
      simpa [marked, (hstep rfl).unchanged] using hreplies

theorem RejectsUnmarked.after {s : Session} {history : List (Step × Bool)}
    (h : s.RejectsUnmarked history) :
    s.after (history.map Prod.fst) = s.after (marked history) := by
  induction history generalizing s with
  | nil => rfl
  | cons entry rest ih =>
    obtain ⟨step, mark⟩ := entry
    obtain ⟨hstep, hrest⟩ := h
    have hafter := ih hrest
    cases mark with
    | true => simpa [marked] using hafter
    | false =>
      rw [(hstep rfl).unchanged] at hafter
      simpa [marked, (hstep rfl).unchanged] using hafter

/-- A rejected submission leaves the session as it was. A history with rejected submissions anywhere
in between has the same replies to all its other steps, and ends in the same session. What a
submission finds wrong is wrong with its own text and its own meaning. -/
theorem rejections_invisible {s : Session} (h : s.Reachable) :
    (∀ rounds text e, (s.submit rounds text).1 = .ok e → e.diagnostics ≠ [] →
      (s.submit rounds text).2 = s) ∧
    (∀ history, s.RejectsUnmarked history →
      marked ((s.replies (history.map Prod.fst)).zip (history.map Prod.snd)) =
          s.replies (marked history) ∧
        s.after (history.map Prod.fst) = s.after (marked history)) ∧
    ∀ rounds text e, (s.submit rounds text).1 = .ok e →
      e.diagnostics = (Fragment.ofText text).diagnostics ++
        (Fragment.ofText text).tree.statement.bind.found (Snapshot.surroundings s.snapshots) := by
  refine ⟨fun rounds text e => unchanged_of_run, fun history hunmarked => ?_,
    fun rounds text e hresult => ?_⟩
  · exact ⟨hunmarked.replies, hunmarked.after⟩
  · rw [diagnostics_of_run hresult, h.faultless.diagnostics_compile]

/-- Between two submissions one is rejected that would have read a line and declared a variable. -/
theorem rejections_invisible_between :
    let s := start (.ofLines ["left"]) (some 7)
    let history : List (Step × Bool) := [(.submit 1 "var x = rnd(9)", true),
      (.submit 1 "{ x = read() var x = 2 }", false), (.submit 1 "{ write(read()) x }", true)]
    s.Reachable ∧ s.RejectsUnmarked history ∧
      marked ((s.replies (history.map Prod.fst)).zip (history.map Prod.snd)) =
          s.replies (marked history) ∧
        s.after (history.map Prod.fst) = s.after (marked history) := by
  intro s history
  have hs : s.Reachable := .start _ _
  have hfaulty : ((s.submit 1 "var x = rnd(9)").2.compile
      (.ofText "{ x = read() var x = 2 }")).diagnostics ≠ [] := by decide +kernel
  have hhistory : s.RejectsUnmarked history := by
    refine ⟨fun h => ?_, fun _ => rejects_of_faulty 1 hfaulty, fun h => ?_, trivial⟩
    · cases h
    · cases h
  exact ⟨hs, hhistory, (rejections_invisible hs).2.1 history hhistory⟩

end Session

end ScalarScript
