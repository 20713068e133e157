import ScalarScript.Proofs.Running.Assigned
import ScalarScript.Proofs.Session.Steps

/-!
Variables have values when they are read. A variable that an earlier fragment left, or that stands
further in front in the same one, has been given a value, whatever was run and whatever failed; only
a declaration under a condition may have been left out.
-/

set_option autoImplicit false

namespace ScalarScript

namespace Session

/-- What the fragments of the chain left has values, as far as it was not declared under a
condition. -/
def Settled (s : Session) : Prop :=
  ∀ snapshot ∈ s.snapshots, ∀ v ∈ snapshot.exported,
    v ∈ snapshot.action.conditional ∨ s.store.Has v

/-- The variable is declared under a condition by this compilation, or by one of the chain. -/
def Conditional (s : Session) (c : Compilation) (v : Variable) : Prop :=
  ∃ snapshot ∈ c.snapshot :: s.snapshots, v ∈ snapshot.action.conditional

theorem settled_of_nil {s : Session} (h : s.chain = []) : s.Settled := by
  simp [Settled, snapshots, h]

namespace Settled

variable {s : Session}

theorem grows (h : s.Settled) {m : Machine} (hm : s.machine.Grows m) (snapshot : Snapshot)
    (hmem : snapshot ∈ s.snapshots) (v : Variable) (hv : v ∈ snapshot.exported) :
    v ∈ snapshot.action.conditional ∨ m.store.Has v :=
  (h snapshot hmem v hv).imp id (hm v)

theorem compile (s : Session) (fragment : Fragment) {rounds : Nat} {m : Machine}
    (hrun : (s.compile fragment).snapshot.action.run rounds s.machine = (.ok (), m))
    (v : Variable) (hv : v ∈ (s.compile fragment).snapshot.exported) :
    v ∈ (s.compile fragment).snapshot.action.conditional ∨ m.store.Has v := by
  rw [snapshot_compile] at hv hrun ⊢
  have hleaked := Snapshot.mem_leaked_of_exported _ _ hv
  rcases Action.settled_or_conditional hleaked with hv | hv
  · exact .inr (Action.has_settled hrun v hv)
  · exact .inl hv

theorem run (h : s.Settled) (rounds : Nat) (fragment : Fragment) :
    (s.run rounds (s.compile fragment)).2.Settled := by
  obtain ⟨-, hrun⟩ | ⟨-, m, haction, hrun⟩ | ⟨-, halt, m, haction, hrun⟩ :=
    s.run_cases rounds (s.compile fragment)
  · rw [hrun]
    exact h
  · rw [hrun]
    exact List.forall_mem_cons.mpr ⟨compile s fragment haction, h.grows (Eval.grows_run haction)⟩
  · rw [hrun]
    exact h.grows (Eval.grows_run haction)

/-- All that the next fragment sees of earlier ones has a value, or was declared under a
condition. -/
theorem each_surroundings (h : s.Settled) (fragment : Fragment) :
    (Snapshot.surroundings s.snapshots).Each fun v =>
      s.Conditional (s.compile fragment) v ∨ s.store.Has v :=
  Snapshot.each_surroundings fun snapshot hmem v hv =>
    (h snapshot hmem v hv).imp (fun hc => ⟨snapshot, List.mem_cons_of_mem _ hmem, hc⟩) id

/-- Where the next fragment reads a variable it has a value, or was declared under a condition. -/
theorem assigned (h : s.Settled) (fragment : Fragment) {rounds : Nat} {v : Variable} {m : Machine}
    (hread : (s.compile fragment).snapshot.action.Reads rounds s.machine v m) :
    s.Conditional (s.compile fragment) v ∨ m.store.Has v := by
  have hcovered := fragment.tree.statement.covered_bind (h.each_surroundings fragment)
  exact hread.assigned (fun _ => id) hcovered fun w hw => ⟨_, List.mem_cons_self, hw⟩

end Settled

theorem Reachable.settled {s : Session} (h : s.Reachable) : s.Settled := by
  induction h with
  | start host seed => exact settled_of_nil rfl
  | submit h rounds text ih => exact ih.run rounds (.ofText text)
  | reset h ih => exact settled_of_nil rfl

theorem run_of_error {s : Session} {rounds : Nat} {c : Compilation} {halt : Halt}
    (h : (s.run rounds c).1 = .error halt) :
    ∃ m, c.snapshot.action.run rounds s.machine = (.error halt, m) := by
  obtain ⟨-, hrun⟩ | ⟨-, m, -, hrun⟩ | ⟨-, halt', m, haction, hrun⟩ := s.run_cases rounds c
  · rw [hrun] at h
    cases h
  · rw [hrun] at h
    cases h
  · rw [hrun] at h
    cases h
    exact ⟨m, haction⟩

/-- In a session every variable has a value where a fragment reads it, if it was not declared under
a condition; so a submission fails for want of a value only where it reads a variable that was. -/
theorem assigned_where_read {s : Session} (h : s.Reachable) (rounds : Nat) (text : String) :
    let c := s.compile (.ofText text)
    (∀ v m, c.snapshot.action.Reads rounds s.machine v m → s.Conditional c v ∨ m.store.Has v) ∧
      ∀ name, (s.submit rounds text).1 = .error (.failed (.unassignedVariable name)) →
        ∃ v m, v.name = name ∧ c.snapshot.action.Reads rounds s.machine v m ∧
          s.Conditional c v ∧ ¬m.store.Has v := by
  intro c
  refine ⟨fun v m hread => h.settled.assigned _ hread, fun name hfailed => ?_⟩
  obtain ⟨m, hrun⟩ := run_of_error hfailed
  obtain ⟨v, hname, hread, hnone⟩ := Action.blames_run rounds _ _ name m hrun
  have hunset : ¬m.store.Has v := by simp [Store.Has, hnone]
  exact ⟨v, m, hname, hread, (h.settled.assigned _ hread).resolve_right hunset, hunset⟩

/-- A later fragment fails where it reads what an earlier one declared under a condition. -/
theorem assigned_where_read_later :
    let s := ((start (.ofLines []) none).submit 1 "if false var a = 1").2
    (s.submit 1 "a == a").1 = .error (.failed (.unassignedVariable "a")) ∧
      ∃ v m, v.name = "a" ∧
        (s.compile (.ofText "a == a")).snapshot.action.Reads 1 s.machine v m ∧
        s.Conditional (s.compile (.ofText "a == a")) v ∧ ¬m.store.Has v := by
  intro s
  have hs : s.Reachable := (Reachable.start _ _).submit 1 "if false var a = 1"
  have hfailed : (s.submit 1 "a == a").1 = .error (.failed (.unassignedVariable "a")) := by rfl
  exact ⟨hfailed, (assigned_where_read hs 1 "a == a").2 "a" hfailed⟩

/-- A variable whose declaration was left out by the run is read without having a value. -/
theorem read_unassigned :
    (start (.ofLines []) none).Reachable ∧
      ((start (.ofLines []) none).submit 1 "{ if false var a = 1 a == a }").1 =
        .error (.failed (.unassignedVariable "a")) :=
  ⟨.start _ _, by rfl⟩

end Session

end ScalarScript
