import ScalarScript.Proofs.Session.Steps
import ScalarScript.Proofs.Typing.Binding
import ScalarScript.Proofs.Typing.Running

set_option autoImplicit false

namespace ScalarScript

theorem Snapshot.typed_surroundings {P : Prop} {earlier : List Snapshot}
    (h : ∀ snapshot ∈ earlier, ∀ v ∈ snapshot.exported, v.Typed P) :
    (surroundings earlier).Typed P :=
  ⟨fun _ _ hv => ((each_surroundings h).of_variableNamed? hv).1, native_surroundings earlier⟩

structure Session.Typed (s : Session) : Prop where
  exported : ∀ snapshot ∈ s.snapshots, ∀ v ∈ snapshot.exported, v.Typed False
  store : s.store.Typed

structure Compilation.Typed (c : Compilation) : Prop where
  action : c.diagnostics = [] → c.snapshot.action.Typed False
  exported : ∀ v ∈ c.snapshot.exported, v ∈ c.snapshot.action.declared

namespace Session.Typed

variable {s : Session}

theorem compile (h : s.Typed) (text : String) : (s.compile (.ofText text)).Typed where
  action hc := by
    have hpresent := present_compile hc
    have hfound := found_compile hc
    rw [snapshot_compile, Snapshot.action_bind]
    exact Statement.typed_bind (Snapshot.typed_surroundings h.exported) _
      ⟨fun hn => hn hpresent, fun hne => hne hfound⟩
  exported _ hv := Snapshot.mem_exported_bind _ _ hv

variable {c : Compilation}

theorem outcome (h : s.Typed) (hc : c.snapshot.action.Typed False) (rounds : Nat) :
    (s.outcome rounds c).store.Typed ∧
      ∀ e, (s.outcome rounds c).result = .error (.failed e) → e.Regular := by
  have hrun := hc.safe_run rounds ⟨s.store, s.host, s.nextSeed, none, none⟩ h.store
  unfold Session.outcome Action.execute
  revert hrun
  cases c.snapshot.action.run rounds ⟨s.store, s.host, s.nextSeed, none, none⟩ with
  | mk result m =>
    cases result with
    | ok _ => exact fun hrun => ⟨hrun.2, fun e he => by cases he⟩
    | error halt => exact fun hrun => ⟨hrun.2, fun e he => hrun.1 e (Except.error.inj he)⟩

theorem run (h : s.Typed) (hc : c.Typed) (rounds : Nat) :
    (s.run rounds c).2.Typed ∧
      ∀ e, (s.run rounds c).1 = .error (.failed e) → e.Regular := by
  by_cases hd : c.diagnostics = []
  · have hout := h.outcome (hc.action hd) rounds
    rw [run_of_faultless s rounds hd]
    cases hr : (s.outcome rounds c).result with
    | error halt =>
      rw [hr] at hout
      exact ⟨⟨h.exported, hout.1⟩, fun e he => hout.2 e (congrArg _ (Except.error.inj he))⟩
    | ok value =>
      have hexported : ∀ v ∈ c.snapshot.exported, v.Typed False :=
        fun v hv => (hc.action hd).declared v (hc.exported v hv)
      exact ⟨⟨List.forall_mem_cons.mpr ⟨hexported, h.exported⟩, hout.1⟩, fun e he => by cases he⟩
  · rw [run_of_faulty s rounds hd]
    exact ⟨h, fun e he => by cases he⟩

end Session.Typed

theorem Session.Reachable.typed {s : Session} (h : s.Reachable) : s.Typed := by
  induction h with
  | start host seed => exact ⟨by simp [snapshots, Session.start], Store.typed_empty⟩
  | submit h rounds text ih => exact (ih.run (ih.compile text) rounds).1
  | reset h ih => exact ⟨by simp [snapshots, Session.reset], Store.typed_empty⟩

/-- In a session every value in the store is of its variable's type, and a submission that fails as
it runs fails in one of the regular ways. -/
theorem Session.type_safe {s : Session} (h : s.Reachable) :
    s.store.Typed ∧ ∀ (rounds : Nat) (text : String) (e : RunError),
      (s.submit rounds text).1 = .error (.failed e) → e.Regular :=
  ⟨h.typed.store, fun rounds text => (h.typed.run (h.typed.compile text) rounds).2⟩

theorem Session.type_safe_half_way :
    ((start (.ofLines []) none).submit 1 "{ var a = 1 a / 0 }").1 =
        .error (.failed .divisionByZero) ∧
      RunError.divisionByZero.Regular ∧
      ((start (.ofLines []) none).submit 1 "{ var a = 1 a / 0 }").2.store.Typed := by
  have hstart : (start (.ofLines []) none).Reachable := .start _ _
  have hfailed : ((start (.ofLines []) none).submit 1 "{ var a = 1 a / 0 }").1 =
      .error (.failed .divisionByZero) := by rfl
  have herror := (type_safe hstart).2 1 "{ var a = 1 a / 0 }" .divisionByZero hfailed
  have hstore := (type_safe (hstart.submit 1 "{ var a = 1 a / 0 }")).1
  exact ⟨hfailed, herror, hstore⟩

end ScalarScript
