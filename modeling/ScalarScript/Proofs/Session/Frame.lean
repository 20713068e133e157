import ScalarScript.Proofs.Names.Snapshots
import ScalarScript.Proofs.Session.Assignment
import ScalarScript.Proofs.Session.Histories

set_option autoImplicit false

namespace ScalarScript

namespace Session

def Exports (s : Session) (v : Variable) : Prop :=
  ∃ snapshot ∈ s.snapshots, v ∈ snapshot.exported

theorem fragment_of_declared {s : Session} {fragment : Fragment} {v : Variable}
    (h : v ∈ (s.compile fragment).snapshot.action.declared) : v.id.fragment = s.ordinal := by
  rw [snapshot_compile] at h
  rw [(Snapshot.id_of_declared _ _ h).1, snapshots, List.length_map, ordinal]

theorem Reachable.fragment_lt {s : Session} (h : s.Reachable) {v : Variable} (hv : s.Exports v) :
    v.id.fragment < s.ordinal := by
  induction h generalizing v with
  | start host seed =>
    obtain ⟨snapshot, hmem, -⟩ := hv
    simp [snapshots, Session.start] at hmem
  | @submit s h rounds text ih =>
    obtain ⟨snapshot, hmem, hexported⟩ := hv
    rcases s.chain_run rounds (s.compile (.ofText text)) with hchain | hchain
    · simp only [snapshots, ordinal, Session.submit, hchain] at hmem ih ⊢
      exact ih ⟨snapshot, hmem, hexported⟩
    · simp only [snapshots, ordinal, Session.submit, hchain, List.map_cons, List.mem_cons,
        List.length_cons] at hmem ih ⊢
      rcases hmem with rfl | hmem
      · have hown := fragment_of_declared (Snapshot.mem_exported_bind s.snapshots _ hexported)
        rw [ordinal] at hown
        omega
      · have hlt := ih ⟨snapshot, hmem, hexported⟩
        omega
  | reset h ih =>
    obtain ⟨snapshot, hmem, -⟩ := hv
    simp [snapshots, Session.reset] at hmem

theorem has_submit {s : Session} (rounds : Nat) (text : String) {v : Variable}
    (h : s.store.Has v) : (s.submit rounds text).2.store.Has v := by
  rw [submit]
  rcases s.store_run rounds (s.compile (.ofText text)) with hsame | ⟨-, result, m, haction, hstore⟩
  · rw [hsame]
    exact h
  · rw [hstore]
    exact Eval.grows_run haction v h

/-- Where a submission changes a value there were no faults, and it declares the variable or assigns
to it. -/
theorem written_of_changed {s : Session} {rounds : Nat} {text : String} {v : Variable}
    (h : (s.submit rounds text).2.store.get? v ≠ s.store.get? v) :
    (s.compile (.ofText text)).diagnostics = [] ∧
      (v ∈ (s.compile (.ofText text)).snapshot.action.declared ∨
        v ∈ (s.compile (.ofText text)).snapshot.action.assigned) := by
  rw [submit] at h
  rcases s.store_run rounds (s.compile (.ofText text)) with hsame | ⟨hd, result, m, haction, hstore⟩
  · rw [hsame] at h
    exact absurd rfl h
  · rw [hstore] at h
    by_cases hdeclared : v ∈ (s.compile (.ofText text)).snapshot.action.declared
    · exact ⟨hd, .inl hdeclared⟩
    by_cases hassigned : v ∈ (s.compile (.ofText text)).snapshot.action.assigned
    · exact ⟨hd, .inr hassigned⟩
    exact absurd (Action.run_frame haction hdeclared hassigned) h

/-- A fragment without faults assigns to variables of its own, or to exported ones that are not
read-only. -/
theorem assigned_compile {s : Session} {fragment : Fragment}
    (hd : (s.compile fragment).diagnostics = []) {v : Variable}
    (h : v ∈ (s.compile fragment).snapshot.action.assigned) :
    v.isReadOnly = false ∧
      (v ∈ (s.compile fragment).snapshot.action.declared ∨ s.Exports v) := by
  have hwritable := fragment.tree.statement.writable_bind _ (found_compile hd)
  exact ⟨hwritable v h, Snapshot.mem_references_bind ((Action.assigned_sublist _).subset h)⟩

theorem fragment_or_assigned {s : Session} {rounds : Nat} {text : String} {v : Variable}
    (h : (s.submit rounds text).2.store.get? v ≠ s.store.get? v) :
    v.id.fragment = s.ordinal ∨
      (v.isReadOnly = false ∧ s.Exports v ∧
        v ∈ (s.compile (.ofText text)).snapshot.action.assigned) := by
  obtain ⟨hd, hdeclared | hassigned⟩ := written_of_changed h
  · exact .inl (fragment_of_declared hdeclared)
  · obtain ⟨hwritable, hdeclared | hexported⟩ := assigned_compile hd hassigned
    · exact .inl (fragment_of_declared hdeclared)
    · exact .inr ⟨hwritable, hexported, hassigned⟩

theorem exports_submit {s : Session} (rounds : Nat) (text : String) {v : Variable}
    (h : s.Exports v) : (s.submit rounds text).2.Exports v := by
  obtain ⟨snapshot, hmem, hv⟩ := h
  refine ⟨snapshot, ?_, hv⟩
  rw [submit, snapshots]
  rcases s.chain_run rounds (s.compile (.ofText text)) with hchain | hchain
  · rw [hchain]
    exact hmem
  · rw [hchain]
    exact List.mem_cons_of_mem _ hmem

/-- The value of an exported variable that is read-only stays what it is until there is a reset. -/
theorem get?_after_of_isReadOnly {s : Session} (h : s.Reachable) {v : Variable}
    (hv : s.Exports v) (hreadOnly : v.isReadOnly = true) {steps : List Step}
    (hsteps : Step.reset ∉ steps) : (s.after steps).store.get? v = s.store.get? v := by
  induction steps generalizing s with
  | nil => rfl
  | cons step rest ih =>
    cases step with
    | reset => exact absurd List.mem_cons_self hsteps
    | submit rounds text =>
      have hrest := ih (h.submit rounds text) (exports_submit rounds text hv)
        fun hmem => hsteps (List.mem_cons_of_mem _ hmem)
      rw [after_cons, perform_submit, hrest]
      by_cases hchanged : (s.submit rounds text).2.store.get? v = s.store.get? v
      · exact hchanged
      · rcases fragment_or_assigned hchanged with hown | ⟨hwritable, -⟩
        · have hlt := h.fragment_lt hv
          omega
        · rw [hreadOnly] at hwritable
          cases hwritable

/-- However a submission ends, it takes no value away; it changes only values of variables with its
own number and of exported variables that it assigns to, and these are not read-only. So what the
chain exports as read-only keeps its value until there is a reset. -/
theorem store_framed {s : Session} (h : s.Reachable) :
    (∀ rounds text v, s.store.Has v → (s.submit rounds text).2.store.Has v) ∧
    (∀ rounds text v, (s.submit rounds text).2.store.get? v ≠ s.store.get? v →
      v.id.fragment = s.ordinal ∨
        (v.isReadOnly = false ∧ s.Exports v ∧
          v ∈ (s.compile (.ofText text)).snapshot.action.assigned)) ∧
    ∀ steps v, Step.reset ∉ steps → s.Exports v → v.isReadOnly = true →
      (s.after steps).store.get? v = s.store.get? v :=
  ⟨fun rounds text _ => has_submit rounds text, fun _ _ _ => fragment_or_assigned,
    fun _ _ hsteps hv hreadOnly => get?_after_of_isReadOnly h hv hreadOnly hsteps⟩

/-- Behind a submission that assigns to `b` and then halts, `a` has the value it had. -/
theorem store_framed_half_way :
    let s := (((start (.ofLines []) none).submit 1 "let a = 1").2.submit 1 "var b = 2").2
    let a : Variable := ⟨⟨0, 0⟩, "a", true, .int⟩
    s.Reachable ∧ (s.submit 1 "{ b = a + 2 b / 0 }").1 = .error (.failed .divisionByZero) ∧
      s.Exports a ∧ (s.after [.submit 1 "{ b = a + 2 b / 0 }"]).store.get? a = s.store.get? a := by
  intro s a
  have hs : s.Reachable := ((Reachable.start _ _).submit 1 "let a = 1").submit 1 "var b = 2"
  have hexported : ∃ snapshot ∈ s.snapshots, a ∈ snapshot.exported := by decide +kernel
  have hhalts : (s.submit 1 "{ b = a + 2 b / 0 }").1 = .error (.failed .divisionByZero) := by
    decide +kernel
  exact ⟨hs, hhalts, hexported, (store_framed hs).2.2 _ a (by simp) hexported rfl⟩

end Session

end ScalarScript
