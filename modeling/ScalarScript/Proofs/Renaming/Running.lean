import ScalarScript.Proofs.Names.Calls
import ScalarScript.Proofs.Names.References
import ScalarScript.Proofs.Running.Parallel

set_option autoImplicit false

namespace ScalarScript

def Variable.rename (ρ : SymbolId → SymbolId) (v : Variable) : Variable := { v with id := ρ v.id }

mutual

def Term.rename (ρ : SymbolId → SymbolId) : Term → Term
  | .literal value => .literal value
  | .variable v => .variable (v.rename ρ)
  | .assignment v source => .assignment (v.rename ρ) (source.rename ρ)
  | .unary operator operand => .unary operator (operand.rename ρ)
  | .binary left operator right => .binary (left.rename ρ) operator (right.rename ρ)
  | .call function arguments => .call function (Term.renameAll ρ arguments)
  | .conversion target source => .conversion target (source.rename ρ)
  | .error => .error

def Term.renameAll (ρ : SymbolId → SymbolId) : List Term → List Term
  | [] => []
  | t :: rest => t.rename ρ :: Term.renameAll ρ rest

end

mutual

def Action.rename (ρ : SymbolId → SymbolId) : Action → Action
  | .block actions => .block (Action.renameAll ρ actions)
  | .declaration v initializer => .declaration (v.rename ρ) (initializer.rename ρ)
  | .ifThen condition thenAction => .ifThen (condition.rename ρ) (thenAction.rename ρ)
  | .ifThenElse condition thenAction elseAction =>
    .ifThenElse (condition.rename ρ) (thenAction.rename ρ) (elseAction.rename ρ)
  | .whileLoop condition body => .whileLoop (condition.rename ρ) (body.rename ρ)
  | .forLoop v lower upper body =>
    .forLoop (v.rename ρ) (lower.rename ρ) (upper.rename ρ) (body.rename ρ)
  | .expression term => .expression (term.rename ρ)

def Action.renameAll (ρ : SymbolId → SymbolId) : List Action → List Action
  | [] => []
  | a :: rest => a.rename ρ :: Action.renameAll ρ rest

end

@[simp] theorem rename_id_variable (v : Variable) : v.rename id = v := rfl

mutual

@[simp] theorem Term.rename_id : (t : Term) → t.rename id = t
  | .literal _ => rfl
  | .variable _ => rfl
  | .assignment _ source => by simp [rename, source.rename_id]
  | .unary _ operand => by simp [rename, operand.rename_id]
  | .binary left _ right => by simp [rename, left.rename_id, right.rename_id]
  | .call _ arguments => by simp [rename, Term.renameAll_id arguments]
  | .conversion _ source => by simp [rename, source.rename_id]
  | .error => rfl

theorem Term.renameAll_id : (ts : List Term) → Term.renameAll id ts = ts
  | [] => rfl
  | t :: rest => by simp [Term.renameAll, t.rename_id, Term.renameAll_id rest]

end

mutual

@[simp] theorem Action.rename_id : (a : Action) → a.rename id = a
  | .block actions => by simp [rename, Action.renameAll_id actions]
  | .declaration _ _ => by simp [rename]
  | .ifThen _ thenAction => by simp [rename, thenAction.rename_id]
  | .ifThenElse _ thenAction elseAction => by
    simp [rename, thenAction.rename_id, elseAction.rename_id]
  | .whileLoop _ body => by simp [rename, body.rename_id]
  | .forLoop _ _ _ body => by simp [rename, body.rename_id]
  | .expression _ => by simp [rename]

theorem Action.renameAll_id : (actions : List Action) → Action.renameAll id actions = actions
  | [] => rfl
  | a :: rest => by simp [Action.renameAll, a.rename_id, Action.renameAll_id rest]

end

def Separates (ρ : SymbolId → SymbolId) (V : Variable → Prop) : Prop :=
  ∀ v w, V v → V w → v.rename ρ = w.rename ρ → v = w

/-- The variables of a set have the same values under their new names, and the worlds are the same.
If `P` holds so are the sources of random numbers and the values of the runs. -/
structure Machine.Mirrors (ρ : SymbolId → SymbolId) (V : Variable → Prop) (P : Prop)
    (m m' : Machine) : Prop where
  store : ∀ v, V v → m'.store.get? (v.rename ρ) = m.store.get? v
  host : m'.host = m.host
  rest : P → m'.seed = m.seed ∧ m'.generator = m.generator ∧ m'.lastValue = m.lastValue

section Steps

variable {ρ : SymbolId → SymbolId} {V : Variable → Prop} {P : Prop} {m m' : Machine}

open Eval

theorem Machine.Mirrors.insert (hρ : Separates ρ V) (h : Mirrors ρ V P m m') {v : Variable}
    (hv : V v) (value : Value) :
    Mirrors ρ V P { m with store := m.store.insert v value }
      { m' with store := m'.store.insert (v.rename ρ) value } where
  store w hw := by
    by_cases heq : w = v
    · subst heq
      rw [Store.get?_insert_self, Store.get?_insert_self]
    · have hne : w.rename ρ ≠ v.rename ρ := fun hr => heq (hρ w v hw hv hr)
      rw [Store.get?_insert_of_ne _ _ hne, Store.get?_insert_of_ne _ _ heq]
      exact h.store w hw
  host := h.host
  rest := h.rest

theorem parallel_load {v : Variable} (hv : V v) :
    Parallel (Machine.Mirrors ρ V P) (load v) (load (v.rename ρ)) := by
  intro m m' h
  have hget := h.store v hv
  unfold load
  rw [hget]
  cases m.store.get? v with
  | some value => exact ⟨rfl, h⟩
  | none => exact ⟨rfl, h⟩

theorem parallel_save (hρ : Separates ρ V) {v : Variable} (hv : V v) (value : Value) :
    Parallel (Machine.Mirrors ρ V P) (save v value) (save (v.rename ρ) value) :=
  fun _ _ h => ⟨rfl, h.insert hρ hv value⟩

theorem parallel_conclude (value : Option Value) :
    Parallel (Machine.Mirrors ρ V P) (conclude value) (conclude value) :=
  fun _ _ h => ⟨rfl, h.store, h.host, fun p => ⟨(h.rest p).1, (h.rest p).2.1, rfl⟩⟩

theorem parallel_readLine : Parallel (Machine.Mirrors ρ V P) readLine readLine := by
  intro m m' h
  unfold readLine
  rw [h.host]
  exact ⟨rfl, h.store, rfl, h.rest⟩

theorem parallel_writeLine (line : String) :
    Parallel (Machine.Mirrors ρ V P) (writeLine line) (writeLine line) := by
  intro m m' h
  unfold writeLine
  rw [h.host]
  exact ⟨rfl, h.store, rfl, h.rest⟩

theorem parallel_generator (p : P) :
    Parallel (Machine.Mirrors ρ V P) generator generator := by
  intro m m' h
  obtain ⟨hseed, hgenerator, hlast⟩ := h.rest p
  obtain ⟨store, host, seed, g, lastValue⟩ := m
  obtain ⟨store', host', seed', g', lastValue'⟩ := m'
  cases h.host
  cases hseed
  cases hgenerator
  cases g with
  | some g => exact ⟨rfl, h⟩
  | none =>
    cases seed with
    | some seed => exact ⟨rfl, h⟩
    | none => exact ⟨rfl, h.store, rfl, fun _ => ⟨rfl, rfl, hlast⟩⟩

theorem parallel_randomBelow (p : P) (bound : Int64) :
    Parallel (Machine.Mirrors ρ V P) (randomBelow bound) (randomBelow bound) := by
  unfold randomBelow
  split
  · exact parallel_fail _
  · split
    · exact parallel_pure 0
    · refine (parallel_generator p).bind fun g m m' h => ?_
      exact ⟨rfl, h.store, h.host, fun p => ⟨(h.rest p).1, rfl, (h.rest p).2.2⟩⟩

theorem parallel_call {f : Function} (hf : f = .rnd → P)
    {first first' : Option (Eval (Option Value))}
    (h : Option.Rel (Parallel (Machine.Mirrors ρ V P)) first first') :
    Parallel (Machine.Mirrors ρ V P) (call f first) (call f first') := by
  unfold call
  by_cases hread : f = .read
  · rw [if_pos hread, if_pos hread]
    exact parallel_readLine.bind fun line => parallel_pure _
  rw [if_neg hread, if_neg hread]
  by_cases hwrite : f = .write
  · rw [if_pos hwrite, if_pos hwrite]
    cases h with
    | none => exact parallel_fail _
    | some h =>
      exact h.value.bind fun value => (parallel_lift value.expectString).bind fun line =>
        (parallel_writeLine line).bind fun _ => parallel_pure none
  rw [if_neg hwrite, if_neg hwrite]
  by_cases hrnd : f = .rnd
  · rw [if_pos hrnd, if_pos hrnd]
    cases h with
    | none => exact parallel_fail _
    | some h =>
      exact h.int.bind fun bound => (parallel_randomBelow (hf hrnd) bound).bind fun n =>
        parallel_pure _
  rw [if_neg hrnd, if_neg hrnd]
  exact parallel_fail _

theorem Term.parallel_rename (hρ : Separates ρ V) : (t : Term) → (∀ v ∈ t.references, V v) →
    (∀ f ∈ t.callees, f = .rnd → P) →
    Parallel (Machine.Mirrors ρ V P) t.evaluate (t.rename ρ).evaluate
  | .literal value, _, _ => parallel_pure (some value)
  | .variable v, hv, _ =>
    (parallel_load (hv v (List.mem_singleton_self v))).bind fun value => parallel_pure (some value)
  | .assignment v source, hv, hf => by
    simp only [references, List.forall_mem_append, List.forall_mem_singleton] at hv
    have hs := source.parallel_rename hρ hv.1 hf
    exact hs.value.bind fun value => (parallel_save hρ hv.2 value).bind fun _ => parallel_pure _
  | .unary operator operand, hv, hf =>
    (operand.parallel_rename hρ hv hf).value.bind fun value =>
      (parallel_lift _).bind fun result => parallel_pure (some result)
  | .binary left operator right, hv, hf => by
    simp only [references, callees, List.forall_mem_append] at hv hf
    have hl := left.parallel_rename hρ hv.1 hf.1
    have hr := right.parallel_rename hρ hv.2 hf.2
    exact hl.value.bind fun x => hr.value.bind fun y =>
      (parallel_lift _).bind fun result => parallel_pure (some result)
  | .call function [], _, hf =>
    parallel_call (hf function (List.mem_cons_self ..)) .none
  | .call function (first :: rest), hv, hf => by
    simp only [references, referencesAll, callees, calleesAll, List.forall_mem_append,
      List.forall_mem_cons] at hv hf
    exact parallel_call hf.1 (.some (first.parallel_rename hρ hv.1 hf.2.1))
  | .conversion target source, hv, hf =>
    (source.parallel_rename hρ hv hf).value.bind fun value =>
      (parallel_lift _).bind fun result => parallel_pure (some result)
  | .error, _, _ => parallel_fail _

mutual

theorem Action.parallel_rename (hρ : Separates ρ V) (rounds : Nat) : (a : Action) →
    (∀ v ∈ a.declared, V v) → (∀ v ∈ a.references, V v) → (∀ f ∈ a.callees, f = .rnd → P) →
    Parallel (Machine.Mirrors ρ V P) (a.run rounds) ((a.rename ρ).run rounds)
  | .block actions, hd, hv, hf => Action.parallel_renameAll hρ rounds actions hd hv hf
  | .declaration v initializer, hd, hv, hf => by
    have hi := initializer.parallel_rename hρ hv hf
    have hv := hd v (List.mem_singleton_self v)
    exact hi.value.bind fun value => (parallel_save hρ hv value).bind fun _ =>
      parallel_conclude (some value)
  | .ifThen condition thenAction, hd, hv, hf => by
    simp only [references, callees, List.forall_mem_append] at hv hf
    have hc := condition.parallel_rename hρ hv.1 hf.1
    have ht := thenAction.parallel_rename hρ rounds hd hv.2 hf.2
    refine hc.bool.bind fun b => ?_
    cases b with
    | true => exact ht
    | false => exact parallel_pure ()
  | .ifThenElse condition thenAction elseAction, hd, hv, hf => by
    simp only [declared, references, callees, List.forall_mem_append] at hd hv hf
    have hc := condition.parallel_rename hρ hv.1.1 hf.1.1
    have ht := thenAction.parallel_rename hρ rounds hd.1 hv.1.2 hf.1.2
    have he := elseAction.parallel_rename hρ rounds hd.2 hv.2 hf.2
    refine hc.bool.bind fun b => ?_
    cases b with
    | true => exact ht
    | false => exact he
  | .whileLoop condition body, hd, hv, hf => by
    simp only [references, callees, List.forall_mem_append] at hv hf
    have hc := condition.parallel_rename hρ hv.1 hf.1
    have hb := body.parallel_rename hρ rounds hd hv.2 hf.2
    exact parallel_repeatWhile hc.bool hb rounds
  | .forLoop v lower upper body, hd, hv, hf => by
    simp only [declared, references, callees, List.forall_mem_append, List.forall_mem_cons]
      at hd hv hf
    have hl := lower.parallel_rename hρ hv.1.1 hf.1.1
    have hu := upper.parallel_rename hρ hv.1.2 hf.1.2
    have hb := body.parallel_rename hρ rounds hd.2 hv.2 hf.2
    exact hl.int.bind fun first => hu.int.bind fun last =>
      parallel_countUp (fun _ _ => id) (fun _ _ n h => h.insert hρ hd.1 (.int n)) hb
        (rangeLength first last) first
  | .expression term, _, hv, hf =>
    (term.parallel_rename hρ hv hf).bind fun value => parallel_conclude value

theorem Action.parallel_renameAll (hρ : Separates ρ V) (rounds : Nat) : (actions : List Action) →
    (∀ v ∈ Action.declaredAll actions, V v) → (∀ v ∈ Action.referencesAll actions, V v) →
    (∀ f ∈ Action.calleesAll actions, f = .rnd → P) →
    Parallel (Machine.Mirrors ρ V P) (Action.runAll rounds actions)
      (Action.runAll rounds (Action.renameAll ρ actions))
  | [], _, _, _ => parallel_pure ()
  | a :: rest, hd, hv, hf => by
    simp only [Action.declaredAll, Action.referencesAll, Action.calleesAll,
      List.forall_mem_append] at hd hv hf
    have ha := a.parallel_rename hρ rounds hd.1 hv.1 hf.1
    have hr := Action.parallel_renameAll hρ rounds rest hd.2 hv.2 hf.2
    exact ha.bind fun _ => hr

end

end Steps

end ScalarScript
