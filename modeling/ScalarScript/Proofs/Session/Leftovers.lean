import ScalarScript.Proofs.Running.Agreement
import ScalarScript.Proofs.Session.Frame

/-!
What a submission leaves behind that fails as it runs. Its variables keep their values in the store,
and its number is given to the next fragment, so a later variable can be one of them. That is seen
only where the later one is declared under a condition: elsewhere it gets a value of its own before
it is read.
-/

set_option autoImplicit false

namespace ScalarScript

namespace Session

/-- Two sessions differ in nothing but the values of some variables, none of which is exported. -/
structure Resembles (left : Variable → Prop) (s s' : Session) : Prop where
  seed : s'.seed = s.seed
  host : s'.host = s.host
  chain : s'.chain = s.chain
  exported : ∀ v, s.Exports v → s'.store.get? v = s.store.get? v
  others : ∀ v, ¬left v → s'.store.get? v = s.store.get? v

/-- Up to the next reset, no text of a history declares one of these variables under a condition. -/
def Spares (left : Variable → Prop) (s : Session) : List Step → Prop
  | [] => True
  | .reset :: _ => True
  | .submit rounds text :: rest =>
    (∀ v ∈ (s.compile (.ofText text)).snapshot.action.conditional, ¬left v) ∧
      Spares left (s.submit rounds text).2 rest

/-- A fragment does the same in two states that agree on what the chain exports and on all variables
but some, if it declares none of these under a condition. -/
theorem parallel_compile (s : Session) {left : Variable → Prop} (rounds : Nat)
    {fragment : Fragment}
    (hspares : ∀ v ∈ (s.compile fragment).snapshot.action.conditional, ¬left v) :
    Eval.Parallel (Machine.Agrees fun v => s.Exports v ∨ ¬left v)
      ((s.compile fragment).snapshot.action.run rounds)
      ((s.compile fragment).snapshot.action.run rounds) := by
  have hvisible : (Snapshot.surroundings s.snapshots).Each s.Exports :=
    Snapshot.each_surroundings fun snapshot hmem v hv => ⟨snapshot, hmem, hv⟩
  have hcovered := fragment.tree.statement.covered_bind hvisible
  exact Action.parallel_agrees rounds _ hcovered (fun v => .inl) fun v hv => .inr (hspares v hv)

namespace Resembles

variable {left : Variable → Prop} {s s' : Session}

theorem machine (h : Resembles left s s') :
    Machine.Agrees (fun v => s.Exports v ∨ ¬left v) s.machine s'.machine where
  store v hv := hv.elim (h.exported v) (h.others v)
  host := h.host
  rest _ := by
    simp [Session.machine, nextSeed, ordinal, h.seed, h.chain]

theorem compile (h : Resembles left s s') (fragment : Fragment) :
    s'.compile fragment = s.compile fragment := by
  rw [Session.compile, Session.compile, h.chain]

theorem reset (h : Resembles left s s') : s'.reset = s.reset := by
  simp [Session.reset, h.seed, h.host]

/-- What the fragments export has the same values in both sessions after one more has run to its
end. -/
theorem exported_compile {fragment : Fragment} {m m' : Machine}
    (hspares : ∀ v ∈ (s.compile fragment).snapshot.action.conditional, ¬left v)
    (hm : Machine.Agrees (fun v => (s.Exports v ∨ ¬left v) ∨
      v ∈ (s.compile fragment).snapshot.action.settled) m m') {v : Variable}
    (hv : s.Exports v ∨ v ∈ (s.compile fragment).snapshot.exported) :
    m'.store.get? v = m.store.get? v := by
  rcases hv with hv | hv
  · exact hm.get? (.inl (.inl hv))
  · have hleaked := Snapshot.mem_leaked_of_exported s.snapshots fragment.tree hv
    rcases Action.settled_or_conditional hleaked with hsettled | hconditional
    · exact hm.get? (.inr hsettled)
    · exact hm.get? (.inl (.inr (hspares v hconditional)))

/-- A fragment gives the same in both sessions, and they differ in nothing else behind it. -/
theorem run (h : Resembles left s s') (rounds : Nat) {fragment : Fragment}
    (hspares : ∀ v ∈ (s.compile fragment).snapshot.action.conditional, ¬left v) :
    (s'.run rounds (s'.compile fragment)).1 = (s.run rounds (s.compile fragment)).1 ∧
      Resembles left (s.run rounds (s.compile fragment)).2
        (s'.run rounds (s'.compile fragment)).2 := by
  rw [h.compile]
  by_cases hd : (s.compile fragment).diagnostics = []
  · rw [run_eq s rounds hd, run_eq s' rounds hd]
    obtain ⟨_, m, m', hrun, hrun', hm⟩ | ⟨halt, m, m', hrun, hrun', hm⟩ :=
      (s.parallel_compile rounds hspares).outcomes h.machine
    · rw [hrun, hrun']
      dsimp only
      have hsettled := hm.settled hrun hrun'
      refine ⟨by rw [hm.lastValue], ?_⟩
      refine ⟨h.seed, hm.host, by rw [h.chain], fun v hv => ?_, fun v hv => ?_⟩
      · obtain ⟨snapshot, hmem, hexported⟩ := hv
        rcases List.mem_cons.mp hmem with rfl | hmem
        · exact exported_compile hspares hsettled (.inr hexported)
        · exact exported_compile hspares hsettled (.inl ⟨snapshot, hmem, hexported⟩)
      · exact hm.get? (.inr hv)
    · rw [hrun, hrun']
      exact ⟨rfl, h.seed, hm.host, h.chain, fun v hv => hm.get? (.inl hv),
        fun v hv => hm.get? (.inr hv)⟩
  · rw [run_of_faulty s rounds hd, run_of_faulty s' rounds hd]
    exact ⟨rfl, h⟩

theorem replies (h : Resembles left s s') {steps : List Step} (hspares : s.Spares left steps) :
    s'.replies steps = s.replies steps := by
  induction steps generalizing s s' with
  | nil => rfl
  | cons step rest ih =>
    cases step with
    | reset => rw [replies_cons, replies_cons, perform_reset, perform_reset, h.reset]
    | submit rounds text =>
      obtain ⟨hresult, hresembles⟩ := h.run rounds hspares.1
      rw [replies_cons, replies_cons, perform_submit, perform_submit, submit, submit, hresult,
        hresembles.host, ih hresembles hspares.2]

theorem of_exported (hseed : s'.seed = s.seed) (hchain : s'.chain = s.chain)
    (hexported : ∀ v, s.Exports v → s'.store.get? v = s.store.get? v) :
    Resembles (fun v => s'.store.get? v ≠ s.store.get? v) { s with host := s'.host } s' :=
  ⟨hseed, rfl, hchain, hexported, fun _ hv => Decidable.not_not.mp hv⟩

end Resembles

/-- A submission that fails as it runs changes at most the store and the world. -/
theorem submit_of_error {s : Session} {rounds : Nat} {text : String} {halt : Halt}
    (h : (s.submit rounds text).1 = .error halt) :
    (s.submit rounds text).2.seed = s.seed ∧ (s.submit rounds text).2.chain = s.chain := by
  rw [submit] at h ⊢
  obtain ⟨-, hrun⟩ | ⟨-, m, -, hrun⟩ | ⟨-, halt', m, -, hrun⟩ :=
    s.run_cases rounds (s.compile (.ofText text))
  · rw [hrun] at h
    cases h
  · rw [hrun] at h
    cases h
  · rw [hrun]
    exact ⟨rfl, rfl⟩

/-- What a failed submission leaves behind is its own. Where it has changed no value that the chain
exports, the replies to later steps are what they were in its place, in the world it left, as long as
no later text declares one of the variables left behind under a condition. -/
theorem failure_forgotten {s : Session} {rounds : Nat} {text : String} {halt : Halt}
    (hfailed : (s.submit rounds text).1 = .error halt)
    (hexported : ∀ v, s.Exports v →
      (s.submit rounds text).2.store.get? v = s.store.get? v) :
    let failed := (s.submit rounds text).2
    let left := fun v => failed.store.get? v ≠ s.store.get? v
    (∀ v, left v → v.id.fragment = s.ordinal) ∧
      ∀ steps, Spares left { s with host := failed.host } steps →
        failed.replies steps = { s with host := failed.host }.replies steps := by
  intro failed left
  refine ⟨fun v hv => ?_, fun steps hspares => ?_⟩
  · rcases fragment_or_assigned hv with hown | ⟨-, hexport, -⟩
    · exact hown
    · exact absurd (hexported v hexport) hv
  · obtain ⟨hseed, hchain⟩ := submit_of_error hfailed
    exact (Resembles.of_exported hseed hchain hexported).replies hspares

/-- The variable that is left behind is none that a later text declares under a condition. -/
theorem failure_forgotten_declared :
    let s := start (.ofLines []) none
    let failed := (s.submit 1 "{ var a = 1 a / 0 }").2
    let left := fun v => failed.store.get? v ≠ s.store.get? v
    let steps : List Step :=
      [.submit 1 "{ if true var b = 1 var a = 2 write(string(a)) }", .submit 1 "a"]
    (s.submit 1 "{ var a = 1 a / 0 }").1 = .error (.failed .divisionByZero) ∧
      (∀ v, s.Exports v → failed.store.get? v = s.store.get? v) ∧
      Spares left { s with host := failed.host } steps ∧
      failed.replies steps = { s with host := failed.host }.replies steps := by
  intro s failed left steps
  have hfailed : (s.submit 1 "{ var a = 1 a / 0 }").1 = .error (.failed .divisionByZero) := by
    decide +kernel
  have hexported : ∀ v, s.Exports v → failed.store.get? v = s.store.get? v := by
    rintro v ⟨snapshot, hmem, -⟩
    cases hmem
  have hspares : Spares left { s with host := failed.host } steps := by
    refine ⟨?_, ?_, trivial⟩
    · change ∀ v ∈ _, ¬failed.store.get? v ≠ s.store.get? v
      decide +kernel
    · change ∀ v ∈ _, ¬failed.store.get? v ≠ s.store.get? v
      decide +kernel
  exact ⟨hfailed, hexported, hspares, (failure_forgotten hfailed hexported).2 steps hspares⟩

/-- A text that fails leaves `a` behind, and a later one reads it in place of its own `a`, which
has been given no value. -/
theorem failure_remembered :
    let s := start (.ofLines []) none
    let failed := (s.submit 1 "{ var a = 1 a / 0 }").2
    s.Reachable ∧ (s.submit 1 "{ var a = 1 a / 0 }").1 = .error (.failed .divisionByZero) ∧
      failed.host = s.host ∧ failed.chain = [] ∧
      (s.submit 1 "{ if false var a = 2 write(string(a)) }").1 =
        .error (.failed (.unassignedVariable "a")) ∧
      (failed.submit 1 "{ if false var a = 2 write(string(a)) }").1 = .ok ⟨[], none⟩ :=
  ⟨.start _ _, by decide +kernel, by decide +kernel, by rfl, by decide +kernel, by decide +kernel⟩

end Session

end ScalarScript
