import ScalarScript.Session.Basic
import ScalarScript.Proofs.Binding.Snapshots
import ScalarScript.Proofs.Tree.Fidelity

set_option autoImplicit false

namespace ScalarScript

namespace Session

inductive Reachable : Session → Prop where
  | start (host : Host) (seed : Option UInt64) : Reachable (.start host seed)
  | submit {s : Session} (h : Reachable s) (rounds : Nat) (text : String) :
      Reachable (s.submit rounds text).2
  | reset {s : Session} (h : Reachable s) : Reachable s.reset

def nextSeed (s : Session) : Option UInt64 := s.seed.map fun seed => seed + UInt64.ofNat s.ordinal

def outcome (s : Session) (rounds : Nat) (c : Compilation) : Outcome (Option Value) :=
  c.snapshot.action.execute rounds s.store s.host s.nextSeed

theorem run_of_faulty (s : Session) (rounds : Nat) {c : Compilation} (h : c.diagnostics ≠ []) :
    s.run rounds c = (.ok ⟨c.diagnostics, none⟩, s) := by
  have he : c.diagnostics.isEmpty = false := by simpa using h
  simp [run, Compilation.evaluate, he, Evaluation.isSuccess]

theorem run_of_faultless (s : Session) (rounds : Nat) {c : Compilation} (h : c.diagnostics = []) :
    s.run rounds c = ((s.outcome rounds c).result.map fun value => ⟨[], value⟩,
      { s with
        store := (s.outcome rounds c).store
        host := (s.outcome rounds c).host
        chain := match (s.outcome rounds c).result with
          | .ok _ => c :: s.chain
          | .error _ => s.chain }) := by
  have he : c.diagnostics.isEmpty = true := by simp [h]
  simp only [run, Compilation.evaluate, he, if_true, outcome, nextSeed]
  cases (c.snapshot.action.execute rounds s.store s.host _).result <;> rfl

def machine (s : Session) : Machine := ⟨s.store, s.host, s.nextSeed, none, none⟩

theorem run_eq (s : Session) (rounds : Nat) {c : Compilation} (h : c.diagnostics = []) :
    s.run rounds c =
      match c.snapshot.action.run rounds s.machine with
      | (.ok _, m) =>
        (.ok ⟨[], m.lastValue⟩, { s with store := m.store, host := m.host, chain := c :: s.chain })
      | (.error halt, m) => (.error halt, { s with store := m.store, host := m.host }) := by
  rw [run_of_faultless s rounds h, outcome, Action.execute, machine]
  cases c.snapshot.action.run rounds ⟨s.store, s.host, s.nextSeed, none, none⟩ with
  | mk result m => cases result <;> rfl

/-- All that a run can do: it finds faults and changes nothing, it comes to its end and joins the
chain, or it halts and leaves its store and world. -/
theorem run_cases (s : Session) (rounds : Nat) (c : Compilation) :
    (c.diagnostics ≠ [] ∧ s.run rounds c = (.ok ⟨c.diagnostics, none⟩, s)) ∨
      (c.diagnostics = [] ∧ ∃ m, c.snapshot.action.run rounds s.machine = (.ok (), m) ∧
        s.run rounds c = (.ok ⟨[], m.lastValue⟩,
          { s with store := m.store, host := m.host, chain := c :: s.chain })) ∨
      (c.diagnostics = [] ∧ ∃ halt m, c.snapshot.action.run rounds s.machine = (.error halt, m) ∧
        s.run rounds c = (.error halt, { s with store := m.store, host := m.host })) := by
  by_cases h : c.diagnostics = []
  · have hrun := s.run_eq rounds h
    cases haction : c.snapshot.action.run rounds s.machine with
    | mk result m =>
      rw [haction] at hrun
      cases result with
      | ok _ => exact .inr (.inl ⟨h, m, rfl, hrun⟩)
      | error halt => exact .inr (.inr ⟨h, halt, m, rfl, hrun⟩)
  · exact .inl ⟨h, s.run_of_faulty rounds h⟩

theorem chain_run (s : Session) (rounds : Nat) (c : Compilation) :
    (s.run rounds c).2.chain = s.chain ∨ (s.run rounds c).2.chain = c :: s.chain := by
  obtain ⟨-, hrun⟩ | ⟨-, m, -, hrun⟩ | ⟨-, halt, m, -, hrun⟩ := s.run_cases rounds c
  · exact .inl (by rw [hrun])
  · exact .inr (by rw [hrun])
  · exact .inl (by rw [hrun])

theorem store_run (s : Session) (rounds : Nat) (c : Compilation) :
    (s.run rounds c).2.store = s.store ∨
      (c.diagnostics = [] ∧ ∃ result m, c.snapshot.action.run rounds s.machine = (result, m) ∧
        (s.run rounds c).2.store = m.store) := by
  obtain ⟨-, hrun⟩ | ⟨hd, m, haction, hrun⟩ | ⟨hd, halt, m, haction, hrun⟩ := s.run_cases rounds c
  · exact .inl (by rw [hrun])
  · exact .inr ⟨hd, _, m, haction, by rw [hrun]⟩
  · exact .inr ⟨hd, _, m, haction, by rw [hrun]⟩

theorem diagnostics_of_run {s : Session} {rounds : Nat} {c : Compilation} {e : Evaluation}
    (h : (s.run rounds c).1 = .ok e) : e.diagnostics = c.diagnostics := by
  obtain ⟨-, hrun⟩ | ⟨hd, m, -, hrun⟩ | ⟨-, halt, m, -, hrun⟩ := s.run_cases rounds c
  · rw [hrun] at h
    cases h
    rfl
  · rw [hrun] at h
    cases h
    exact hd.symm
  · rw [hrun] at h
    cases h

theorem diagnostics_of_ok {s : Session} {rounds : Nat} {c : Compilation} {value : Option Value}
    (h : (s.run rounds c).1 = .ok ⟨[], value⟩) : c.diagnostics = [] :=
  (diagnostics_of_run h).symm

theorem chain_of_ok {s : Session} {rounds : Nat} {c : Compilation} {value : Option Value}
    (h : (s.run rounds c).1 = .ok ⟨[], value⟩) : (s.run rounds c).2.chain = c :: s.chain := by
  obtain ⟨hd, -⟩ | ⟨-, m, -, hrun⟩ | ⟨-, halt, m, -, hrun⟩ := s.run_cases rounds c
  · exact absurd (diagnostics_of_ok h) hd
  · rw [hrun]
  · rw [hrun] at h
    cases h

theorem diagnostics_of_error {s : Session} {rounds : Nat} {c : Compilation} {halt : Halt}
    (h : (s.run rounds c).1 = .error halt) : c.diagnostics = [] := by
  obtain ⟨-, hrun⟩ | ⟨hd, -⟩ | ⟨hd, -⟩ := s.run_cases rounds c
  · rw [hrun] at h
    cases h
  · exact hd
  · exact hd

def snapshots (s : Session) : List Snapshot := s.chain.map Compilation.snapshot

theorem snapshot_compile (s : Session) (fragment : Fragment) :
    (s.compile fragment).snapshot = .bind s.snapshots fragment.tree := rfl

theorem found_compile {s : Session} {fragment : Fragment}
    (h : (s.compile fragment).diagnostics = []) :
    fragment.tree.statement.bind.found (Snapshot.surroundings s.snapshots) = [] := by
  have hbound : (Snapshot.bind s.snapshots fragment.tree).diagnostics = [] :=
    (List.append_eq_nil_iff.mp h).2
  rw [Snapshot.diagnostics_bind] at hbound
  exact (List.append_eq_nil_iff.mp hbound).2

theorem present_compile {s : Session} {text : String}
    (h : (s.compile (.ofText text)).diagnostics = []) :
    Present (Fragment.ofText text).tree.statement.tokens :=
  Fragment.present_of_faultless (List.append_eq_nil_iff.mp h).1

end Session

end ScalarScript
