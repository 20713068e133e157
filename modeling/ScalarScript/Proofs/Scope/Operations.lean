import Mathlib.Data.List.Induction
import Mathlib.Data.List.Nodup
import ScalarScript.Proofs.Scope.Everywhere

set_option autoImplicit false

namespace ScalarScript

inductive ScopeOperation where
  | push
  | pop
  | declare (name : String) (isReadOnly : Bool) (type : Ty)
  | add (v : Variable)
  | variableNamed (name : String)
  | functionNamed (name : String)
  deriving DecidableEq, Repr

inductive ScopeAnswer (σ : Type) where
  | pushed
  | popped (scope? : Option σ)
  | declared (result : Except Variable Variable)
  | added (isNew : Bool)
  | variable (found : Option Variable)
  | function (found : Option Function)

namespace ScopeAnswer

variable {σ τ : Type}

def map (f : σ → τ) : ScopeAnswer σ → ScopeAnswer τ
  | .pushed => .pushed
  | .popped scope? => .popped (scope?.map f)
  | .declared result => .declared result
  | .added isNew => .added isNew
  | .variable found => .variable found
  | .function found => .function found

def isRefusal : ScopeAnswer σ → Bool
  | .popped none | .declared (.error _) | .added false => true
  | _ => false

def id? : ScopeAnswer σ → Option SymbolId
  | .declared (.ok v) | .declared (.error v) => some v.id
  | _ => none

end ScopeAnswer

namespace ScopeOperation

section Sequences

variable {σ α : Type} (perform : σ → ScopeOperation → α × σ)

def after (s : σ) (ops : List ScopeOperation) : σ := ops.foldl (fun s op => (perform s op).2) s

def answers (s : σ) : List ScopeOperation → List α
  | [] => []
  | op :: ops => (perform s op).1 :: answers (perform s op).2 ops

@[simp] theorem after_nil (s : σ) : after perform s [] = s := rfl

@[simp] theorem after_cons (s : σ) (op : ScopeOperation) (ops : List ScopeOperation) :
    after perform s (op :: ops) = after perform (perform s op).2 ops := rfl

theorem after_append (s : σ) (ops ops' : List ScopeOperation) :
    after perform s (ops ++ ops') = after perform (after perform s ops) ops' := List.foldl_append

theorem after_keeps {P : σ → Prop} (h : ∀ s op, P s → P (perform s op).2) {s : σ} (hs : P s)
    (ops : List ScopeOperation) : P (after perform s ops) := by
  induction ops generalizing s with
  | nil => exact hs
  | cons op ops ih => exact ih (h s op hs)

end Sequences

/-- The operations leave as many scopes as they enter, none before it was entered. The names are
those that are declared or added outside of these scopes, in their order. -/
inductive Balanced : List ScopeOperation → List String → Prop where
  | nil : Balanced [] []
  | declare (name : String) (isReadOnly : Bool) (type : Ty) {ops : List ScopeOperation}
    {names : List String} (h : Balanced ops names) :
    Balanced (.declare name isReadOnly type :: ops) (name :: names)
  | add (v : Variable) {ops : List ScopeOperation} {names : List String}
    (h : Balanced ops names) : Balanced (.add v :: ops) (v.name :: names)
  | variableNamed (name : String) {ops : List ScopeOperation} {names : List String}
    (h : Balanced ops names) : Balanced (.variableNamed name :: ops) names
  | functionNamed (name : String) {ops : List ScopeOperation} {names : List String}
    (h : Balanced ops names) : Balanced (.functionNamed name :: ops) names
  | scope {inner ops : List ScopeOperation} {inside names : List String}
    (hinner : Balanced inner inside) (h : Balanced ops names) :
    Balanced (.push :: inner ++ .pop :: ops) names

end ScopeOperation

open ScopeOperation

namespace Scope

theorem functionNamed?_builtins {f : Function} (h : f ∈ Function.builtins) :
    builtins.functionNamed? f.name = some f := by
  simp only [Function.builtins, List.mem_cons, List.not_mem_nil, or_false] at h
  rcases h with rfl | rfl | rfl <;> rfl

theorem isSome_variableNamed? (scope : Scope) (name : String) :
    (scope.variableNamed? name).isSome = true ↔ name ∈ scope.vars.map Variable.name := by
  simp [variableNamed?]

theorem eraseDups_concat (names : List String) (name : String) :
    (names ++ [name]).eraseDups =
      if name ∈ names then names.eraseDups else names.eraseDups ++ [name] := by
  rw [List.eraseDups_append]
  split <;> simp [List.removeAll, List.eraseDups_cons, *]

theorem names_enterAll_empty (vs : List Variable) :
    (empty.enterAll vs).vars.map Variable.name = (vs.map Variable.name).eraseDups := by
  induction vs using List.reverseRecOn with
  | nil => rfl
  | append_singleton vs v ih =>
    have hsome : ((empty.enterAll vs).variableNamed? v.name).isSome = true ↔
        v.name ∈ vs.map Variable.name := by
      rw [isSome_variableNamed?, ih, List.mem_eraseDups]
    rw [enterAll_append, enterAll_cons, enterAll_nil, vars_enter, List.map_append,
      List.map_singleton, eraseDups_concat, ← ih]
    by_cases h : v.name ∈ vs.map Variable.name
    · rw [if_pos (hsome.mpr h), if_pos h]
    · rw [if_neg (mt hsome.mp h), if_neg h, List.map_append, List.map_singleton]

end Scope

abbrev NameMap := String → Option Variable

namespace NameMap

def empty : NameMap := fun _ => none

def add (m : NameMap) (v : Variable) : NameMap := fun name =>
  (m name).or (if v.name = name then some v else none)

end NameMap

structure Layers where
  top : NameMap
  below : List NameMap
  fragment : Nat
  attempts : Nat

namespace Layers

def bottom (fragment : Nat) : Layers := ⟨.empty, [], fragment, 0⟩

def find? (s : Layers) (name : String) : Option Variable :=
  (s.top :: s.below).findSome? fun m => m name

def perform (s : Layers) : ScopeOperation → ScopeAnswer NameMap × Layers
  | .push => (.pushed, { s with top := .empty, below := s.top :: s.below })
  | .pop =>
    match s.below with
    | [] => (.popped none, s)
    | m :: rest => (.popped (some s.top), { s with top := m, below := rest })
  | .declare name isReadOnly type =>
    let v : Variable := ⟨⟨s.fragment, s.attempts⟩, name, isReadOnly, type⟩
    (.declared (if (s.top name).isSome then .error v else .ok v),
      { s with top := s.top.add v, attempts := s.attempts + 1 })
  | .add v => (.added (s.top v.name).isNone, { s with top := s.top.add v })
  | .variableNamed name => (.variable (s.find? name), s)
  | .functionNamed name => (.function (Function.builtins.find? fun f => f.name == name), s)

end Layers

namespace ScopeChain

def perform (chain : ScopeChain) : ScopeOperation → ScopeAnswer Scope × ScopeChain
  | .push => (.pushed, chain.push)
  | .pop =>
    match chain.pop? with
    | none => (.popped none, chain)
    | some (scope, rest) => (.popped (some scope), rest)
  | .declare name isReadOnly type =>
    let (result, declared) := chain.declare name isReadOnly type
    (.declared result, declared)
  | .add v =>
    match chain.import? v with
    | none => (.added false, chain)
    | some added => (.added true, added)
  | .variableNamed name => (.variable (chain.variableNamed? name), chain)
  | .functionNamed name => (.function (chain.functionNamed? name), chain)

def layers (chain : ScopeChain) : Layers :=
  ⟨chain.current.variableNamed?, chain.scopes.tail.map Scope.variableNamed?, chain.fragment,
    chain.nextIndex⟩

section Performing

variable {chain : ScopeChain}

theorem perform_declare (chain : ScopeChain) (name : String) (isReadOnly : Bool) (type : Ty) :
    chain.perform (.declare name isReadOnly type) =
      (.declared (if (chain.current.variableNamed? name).isSome then
          .error (chain.fresh name isReadOnly type)
        else .ok (chain.fresh name isReadOnly type)),
      (chain.enter (chain.fresh name isReadOnly type)).advance 1) := by
  simp only [perform, declare_eq]

theorem perform_add (chain : ScopeChain) (v : Variable) :
    chain.perform (.add v) =
      (.added (chain.current.variableNamed? v.name).isNone, chain.enter v) := by
  have henter : chain.enter v = (chain.import? v).getD chain := rfl
  rw [henter]
  simp only [perform, import?_eq]
  cases chain.current.variableNamed? v.name <;> rfl

theorem scopes_enter (chain : ScopeChain) (v : Variable) :
    (chain.enter v).scopes = chain.current.enter v :: chain.scopes.tail :=
  chain.scopes_enterAll [v]

theorem Native.perform (h : chain.Native) (op : ScopeOperation) : (chain.perform op).2.Native := by
  cases op with
  | push => exact h.push
  | pop =>
    obtain ⟨n, hn⟩ := h
    obtain ⟨inner, root, fragment, nextIndex⟩ := chain
    cases inner with
    | nil => exact ⟨n, hn⟩
    | cons scope rest =>
      cases n with
      | zero => simp [scopes] at hn
      | succ n => exact ⟨n, (List.cons.inj hn).2⟩
  | declare name isReadOnly type =>
    rw [perform_declare]
    exact (h.enterAll [_]).advance 1
  | add v =>
    rw [perform_add]
    exact h.enterAll [v]
  | variableNamed name => exact h
  | functionNamed name => exact h

theorem layers_enter (chain : ScopeChain) (v : Variable) :
    (chain.enter v).layers = { chain.layers with top := chain.layers.top.add v } := by
  have hcurrent : (chain.enter v).current = chain.current.enter v := chain.current_enterAll [v]
  have hfragment : (chain.enter v).fragment = chain.fragment := chain.fragment_enterAll [v]
  have hnext : (chain.enter v).nextIndex = chain.nextIndex := chain.nextIndex_enterAll [v]
  have htop : (chain.current.enter v).variableNamed? = chain.layers.top.add v :=
    funext fun name => Scope.variableNamed?_enter chain.current v name
  rw [layers, hcurrent, scopes_enter, hfragment, hnext, htop]
  rfl

theorem find?_layers (chain : ScopeChain) (name : String) :
    chain.layers.find? name = chain.variableNamed? name := by
  have hmap : chain.layers.top :: chain.layers.below = chain.scopes.map Scope.variableNamed? := by
    rw [scopes_eq, List.map_cons]
    rfl
  rw [Layers.find?, hmap, List.findSome?_map]
  rfl

/-- The scopes answer an operation as the maps do, and are as the maps are afterwards. -/
theorem perform_layers (h : chain.Native) (op : ScopeOperation) :
    chain.layers.perform op =
      ((chain.perform op).1.map Scope.variableNamed?, (chain.perform op).2.layers) := by
  cases op with
  | push =>
    have hscopes : chain.push.scopes.tail = chain.current :: chain.scopes.tail := chain.scopes_eq
    simp only [perform, Layers.perform, layers, hscopes]
    rfl
  | pop =>
    obtain ⟨inner, root, fragment, nextIndex⟩ := chain
    cases inner with
    | nil => rfl
    | cons scope rest => cases rest <;> rfl
  | declare name isReadOnly type =>
    have hlayers (c : ScopeChain) : (c.advance 1).layers =
        { c.layers with attempts := c.layers.attempts + 1 } := rfl
    rw [perform_declare, hlayers, layers_enter]
    rfl
  | add v =>
    rw [perform_add, layers_enter]
    rfl
  | variableNamed name =>
    simp only [perform, Layers.perform, find?_layers]
    rfl
  | functionNamed name =>
    simp only [perform, Layers.perform, h.functionNamed?]
    rfl

theorem answers_layers (h : chain.Native) (ops : List ScopeOperation) :
    (answers perform chain ops).map (ScopeAnswer.map Scope.variableNamed?) =
      answers Layers.perform chain.layers ops := by
  induction ops generalizing chain with
  | nil => rfl
  | cons op ops ih =>
    simp only [answers, List.map_cons]
    rw [perform_layers h op, ih (h.perform op)]

theorem scopes_of_isRefusal {op : ScopeOperation} (h : (chain.perform op).1.isRefusal = true) :
    (chain.perform op).2.scopes = chain.scopes := by
  have henter {v : Variable} (hv : (chain.current.variableNamed? v.name).isSome = true) :
      chain.enter v = chain := by
    simp [enter, import?_eq, hv]
  cases op with
  | pop =>
    simp only [perform] at h ⊢
    split at h
    · rfl
    · cases h
  | declare name isReadOnly type =>
    rw [perform_declare] at h ⊢
    cases hname : (chain.current.variableNamed? name).isSome with
    | false => simp [hname, ScopeAnswer.isRefusal] at h
    | true =>
      rw [henter hname]
      rfl
  | add v =>
    rw [perform_add] at h ⊢
    cases hname : chain.current.variableNamed? v.name with
    | none => simp [hname, ScopeAnswer.isRefusal] at h
    | some w => rw [henter (by simp [hname])]
  | push | variableNamed | functionNamed => cases h

end Performing

section Ids

variable {chain : ScopeChain}

/-- The attempts to declare a variable take the ids one after the other. -/
theorem ids_answers (chain : ScopeChain) (ops : List ScopeOperation) :
    ∃ n, (answers perform chain ops).filterMap ScopeAnswer.id? =
      (List.range' chain.nextIndex n).map (SymbolId.mk chain.fragment) := by
  induction ops generalizing chain with
  | nil => exact ⟨0, rfl⟩
  | cons op ops ih =>
    have hkept (h : (chain.perform op).1.id? = none)
        (hf : (chain.perform op).2.fragment = chain.fragment)
        (hn : (chain.perform op).2.nextIndex = chain.nextIndex) :
        ∃ n, (answers perform chain (op :: ops)).filterMap ScopeAnswer.id? =
          (List.range' chain.nextIndex n).map (SymbolId.mk chain.fragment) := by
      obtain ⟨n, hn'⟩ := ih (chain.perform op).2
      rw [answers, List.filterMap_cons, h, hn', hf, hn]
      exact ⟨n, rfl⟩
    cases op with
    | declare name isReadOnly type =>
      obtain ⟨n, hn⟩ := ih (chain.perform (.declare name isReadOnly type)).2
      have hid : (chain.perform (.declare name isReadOnly type)).1.id? =
          some ⟨chain.fragment, chain.nextIndex⟩ := by
        rw [perform_declare]
        split <;> rfl
      have hfragment : (chain.perform (.declare name isReadOnly type)).2.fragment =
          chain.fragment := by
        rw [perform_declare]
        exact chain.fragment_enterAll [_]
      have hnext : (chain.perform (.declare name isReadOnly type)).2.nextIndex =
          chain.nextIndex + 1 := by
        rw [perform_declare]
        exact congrArg (· + 1) (chain.nextIndex_enterAll [_])
      rw [answers, List.filterMap_cons, hid, hn, hfragment, hnext]
      exact ⟨n + 1, rfl⟩
    | add v =>
      refine hkept ?_ ?_ ?_ <;> rw [perform_add]
      · rfl
      · exact chain.fragment_enterAll [v]
      · exact chain.nextIndex_enterAll [v]
    | pop =>
      obtain ⟨inner, root, fragment, nextIndex⟩ := chain
      cases inner <;> exact hkept rfl rfl rfl
    | push | variableNamed | functionNamed => exact hkept rfl rfl rfl

end Ids

/-- Leaving a scope gives the variables entered since, and the chain as it was but for the ids. -/
theorem perform_pop_entered (chain : ScopeChain) (vs : List Variable) (n : Nat) :
    ((chain.push.enterAll vs).advance n).perform .pop =
      (.popped (some (Scope.empty.enterAll vs)), chain.advance n) := by
  rw [enterAll_eq]
  rfl

/-- Balanced operations enter variables into the innermost scope and take ids, and do no more. -/
theorem after_balanced {ops : List ScopeOperation} {names : List String}
    (h : Balanced ops names) (chain : ScopeChain) :
    ∃ vs n, after perform chain ops = (chain.enterAll vs).advance n ∧
      vs.map Variable.name = names := by
  induction h generalizing chain with
  | nil => exact ⟨[], 0, rfl, rfl⟩
  | declare name isReadOnly type _ ih =>
    obtain ⟨vs, n, hafter, hnames⟩ := ih (chain.perform (.declare name isReadOnly type)).2
    refine ⟨chain.fresh name isReadOnly type :: vs, 1 + n, ?_, by rw [List.map_cons, hnames]; rfl⟩
    rw [after_cons, hafter, perform_declare, enterAll_advance, advance_advance]
    rfl
  | add v _ ih =>
    obtain ⟨vs, n, hafter, hnames⟩ := ih (chain.perform (.add v)).2
    refine ⟨v :: vs, n, ?_, by rw [List.map_cons, hnames]⟩
    rw [after_cons, hafter, perform_add]
    rfl
  | variableNamed _ _ ih => exact ih chain
  | functionNamed _ _ ih => exact ih chain
  | scope _ _ ihinner ih =>
    obtain ⟨ws, m, hinner, -⟩ := ihinner chain.push
    obtain ⟨vs, n, hafter, hnames⟩ := ih (chain.advance m)
    refine ⟨vs, m + n, ?_, hnames⟩
    have hpush : (chain.perform .push).2 = chain.push := rfl
    rw [List.cons_append, after_cons, after_append, hpush, hinner, after_cons,
      perform_pop_entered, hafter, enterAll_advance, advance_advance]

def performed (fragment : Nat) (ops : List ScopeOperation) : ScopeChain :=
  after perform (ofFragment fragment) ops

def answered (fragment : Nat) (ops : List ScopeOperation) : List (ScopeAnswer Scope) :=
  answers perform (ofFragment fragment) ops

def ids (fragment : Nat) (ops : List ScopeOperation) : List SymbolId :=
  (answered fragment ops).filterMap ScopeAnswer.id?

theorem ids_eq (fragment : Nat) (ops : List ScopeOperation) :
    ids fragment ops = (List.range (ids fragment ops).length).map (SymbolId.mk fragment) := by
  obtain ⟨n, hn⟩ := ids_answers (ofFragment fragment) ops
  have hids : ids fragment ops = (List.range n).map (SymbolId.mk fragment) := by
    rw [List.range_eq_range']
    exact hn
  have hlength : (ids fragment ops).length = n := by simp [hids]
  rw [hlength, hids]

theorem native_performed (fragment : Nat) (ops : List ScopeOperation) :
    (performed fragment ops).Native :=
  after_keeps perform (fun _ op h => h.perform op) (native_ofFragment fragment) ops

/-- A scope that was entered and is left after operations that leave all scopes they enter. -/
theorem perform_pop_balanced {inner : List ScopeOperation} {names : List String}
    (h : Balanced inner names) (fragment : Nat) (ops : List ScopeOperation) :
    ∃ scope n, (performed fragment (ops ++ .push :: inner)).perform .pop =
        (.popped (some scope), (performed fragment ops).advance n) ∧
      scope.vars.map Variable.name = names.eraseDups := by
  obtain ⟨vs, n, hinner, hnames⟩ := after_balanced h (performed fragment ops).push
  have hafter : performed fragment (ops ++ .push :: inner) =
      ((performed fragment ops).push.enterAll vs).advance n := by
    rw [performed, after_append, after_cons, ← hinner]
    rfl
  exact ⟨_, n, by rw [hafter, perform_pop_entered], by rw [Scope.names_enterAll_empty, hnames]⟩

/-- Scopes are maps laid on one another, each of which keeps for a name what it was given first.
The lowest, which has the built-in functions, is never left. What cannot be done changes nothing in
them. After operations that leave all scopes they enter, the scope around them has the names that
were declared in it in their order, and leaving it makes all names stand for what they stood for
before. No two attempts to declare a variable take the same id: they are counted from zero. -/
theorem performs_as_layers (fragment : Nat) (ops : List ScopeOperation) :
    1 ≤ (performed fragment ops).depth ∧
      (∀ f ∈ Function.builtins, (performed fragment ops).functionNamed? f.name = some f) ∧
      (answered fragment ops).map (ScopeAnswer.map Scope.variableNamed?) =
        answers Layers.perform (.bottom fragment) ops ∧
      (∀ op, ((performed fragment ops).perform op).1.isRefusal = true →
        ((performed fragment ops).perform op).2.scopes = (performed fragment ops).scopes) ∧
      (∀ inner names, Balanced inner names →
        ∃ scope left, (performed fragment (ops ++ .push :: inner)).perform .pop =
            (.popped (some scope), left) ∧
          scope.vars.map Variable.name = names.eraseDups ∧
          (∀ name, left.variableNamed? name = (performed fragment ops).variableNamed? name) ∧
          ∀ name, left.functionNamed? name = (performed fragment ops).functionNamed? name) ∧
      (ids fragment ops).Nodup ∧
      ∀ id ∈ ids fragment ops, id.fragment = fragment ∧ id.index < (ids fragment ops).length := by
  have hnative := native_performed fragment ops
  have hids := ids_eq fragment ops
  refine ⟨?_, fun f hf => ?_, answers_layers (native_ofFragment fragment) ops,
    fun op => scopes_of_isRefusal, fun inner names h => ?_, ?_, fun id hid => ?_⟩
  · exact List.length_pos_iff.mpr (scopes_ne_nil _)
  · rw [hnative.functionNamed?]
    exact Scope.functionNamed?_builtins hf
  · obtain ⟨scope, n, hpop, hnames⟩ := perform_pop_balanced h fragment ops
    exact ⟨scope, _, hpop, hnames, fun name => rfl, fun name => rfl⟩
  · rw [hids]
    exact List.nodup_range.map fun i j h => congrArg SymbolId.index h
  · rw [hids] at hid
    obtain ⟨i, hi, rfl⟩ := List.mem_map.mp hid
    exact ⟨rfl, List.mem_range.mp hi⟩

end ScopeChain

end ScalarScript
