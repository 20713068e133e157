import ScalarScript.Program.Snapshot
import ScalarScript.Proofs.Running.Agreement
import ScalarScript.Proofs.Running.Rounds

set_option autoImplicit false

namespace ScalarScript

/-- The variable occurs in the action: it is declared, read or assigned to, if only in a part that
is never run. -/
def Action.Mentions (a : Action) (v : Variable) : Prop := v ∈ a.declared ∨ v ∈ a.references

structure Outcome.Agrees {α : Type} (A : Variable → Prop) (o o' : Outcome α) : Prop where
  result : o'.result = o.result
  host : o'.host = o.host
  store : ∀ v, A v → o'.store.get? v = o.store.get? v

namespace Action

variable {a : Action} {rounds : Nat} {store store' : Store} {host : Host} {seed : Option UInt64}

/-- The action is in step with itself, as it is with its renaming that renames nothing. -/
theorem parallel_mentions (a : Action) (rounds : Nat) :
    Eval.Parallel (Machine.Agrees a.Mentions) (a.run rounds) (a.run rounds) := by
  have hseparates : Separates id a.Mentions := fun _ _ _ _ heq => heq
  have hrenamed := a.parallel_rename hseparates rounds (fun _ => .inl) (fun _ => .inr)
    fun _ _ _ => trivial
  rwa [a.rename_id] at hrenamed

theorem agrees_execute (h : ∀ v, a.Mentions v → store'.get? v = store.get? v) :
    (a.execute rounds store host seed).Agrees a.Mentions (a.execute rounds store' host seed) := by
  have hstart : Machine.Agrees a.Mentions ⟨store, host, seed, none, none⟩
      ⟨store', host, seed, none, none⟩ := ⟨h, rfl, fun _ => ⟨rfl, rfl, rfl⟩⟩
  obtain ⟨hresult, hstate⟩ := a.parallel_mentions rounds _ _ hstart
  rw [execute_eq, execute_eq]
  refine ⟨?_, hstate.host, hstate.store⟩
  rw [hresult, hstate.lastValue]

theorem get?_execute {v : Variable} (h : ¬a.Mentions v) :
    (a.execute rounds store host seed).store.get? v = store.get? v := by
  have hdeclared : v ∉ a.declared := fun hv => h (.inl hv)
  have hassigned : v ∉ a.assigned := fun hv => h (.inr (a.assigned_sublist.subset hv))
  exact run_frame rfl hdeclared hassigned

/-- From stores that agree on the variables that occur in a program, two runs of it that come to an
end give the same value or error, write and read the same and leave stores that agree on them again;
and both leave every other variable as it is. -/
theorem execute_local (a : Action) {rounds rounds' : Nat} {store store' : Store} (host : Host)
    (seed : Option UInt64) (h : ∀ v, a.Mentions v → store'.get? v = store.get? v)
    (hends : (a.execute rounds store host seed).result ≠ .error .outOfFuel)
    (hends' : (a.execute rounds' store' host seed).result ≠ .error .outOfFuel) :
    (a.execute rounds store host seed).Agrees a.Mentions (a.execute rounds' store' host seed) ∧
      ∀ v, ¬a.Mentions v →
        (a.execute rounds store host seed).store.get? v = store.get? v ∧
          (a.execute rounds' store' host seed).store.get? v = store'.get? v := by
  refine ⟨?_, fun v hv => ⟨get?_execute hv, get?_execute hv⟩⟩
  -- both runs are those with the greater number of rounds
  have hmore := execute_of_le (Nat.le_max_left rounds rounds') hends
  have hmore' := execute_of_le (Nat.le_max_right rounds rounds') hends'
  rw [← hmore, ← hmore']
  exact agrees_execute h

/-- A fragment that reads, draws, writes and in the end fails, over two stores of which one has a
further variable, with a round more than it takes and with many. -/
theorem execute_local_failing :
    let n : Variable := ⟨⟨0, 0⟩, "n", false, .int⟩
    let other : Variable := ⟨⟨0, 1⟩, "m", true, .string⟩
    let earlier : Snapshot := .bind [] (Fragment.ofText "var n = 0").tree
    let fragment := Fragment.ofText
      "\x7b while n < 2 \x7b n = n + 1 write(read() + string(rnd(6))) \x7d n / 0 \x7d"
    let a := (Snapshot.bind [earlier] fragment.tree).action
    let o := a.execute 3 ⟨[(n, .int 0)]⟩ (.ofLines ["a", "b"]) (some 7)
    let o' := a.execute 9 ⟨[(other, .string "z"), (n, .int 0)]⟩ (.ofLines ["a", "b"]) (some 7)
    o.result = .error (.failed .divisionByZero) ∧ o.Agrees a.Mentions o' ∧ ¬a.Mentions other ∧
      o'.store.get? other = some (.string "z") := by
  intro n other earlier fragment a o o'
  have hstores : ∀ v ∈ a.declared ++ a.references,
      Store.get? ⟨[(other, .string "z"), (n, .int 0)]⟩ v = Store.get? ⟨[(n, .int 0)]⟩ v := by
    decide +kernel
  have hother : other ∉ a.declared ++ a.references := by decide +kernel
  have hresult : o.result = .error (.failed .divisionByZero) := by decide +kernel
  have hresult' : o'.result = .error (.failed .divisionByZero) := by decide +kernel
  have hends : o.result ≠ .error .outOfFuel := by rw [hresult]; exact nofun
  have hends' : o'.result ≠ .error .outOfFuel := by rw [hresult']; exact nofun
  have hmentions : ¬a.Mentions other := fun h => hother (List.mem_append.mpr h)
  have hlocal := execute_local a (.ofLines ["a", "b"]) (some 7)
    (fun v hv => hstores v (List.mem_append.mpr hv)) hends hends'
  exact ⟨hresult, hlocal.1, hmentions, (hlocal.2 other hmentions).2⟩

end Action

end ScalarScript
