import ScalarScript.Proofs.Session.Merging
import ScalarScript.Proofs.Session.Steps

set_option autoImplicit false

namespace ScalarScript

open Binder

section Concat

variable {rounds : Nat}

theorem Statement.bindAll_concat (ss : List Statement) (s : Statement) :
    Statement.bindAll (ss ++ [s]) = (do
      let actions ← Statement.bindAll ss
      let action ← s.bind
      return actions ++ [action]) := by
  induction ss with
  | nil => simp [Statement.bindAll]
  | cons first rest ih => simp [Statement.bindAll, ih]

theorem Statement.result_concat (ss : List Statement) (s : Statement) (S : ScopeChain) :
    (Statement.bindAll (ss ++ [s])).result S = (Statement.bindAll ss).result S ++
      [s.bind.result ((Statement.bindAll ss).scopesAfter S)] := by
  rw [bindAll_concat]
  simp

theorem Statement.found_concat (ss : List Statement) (s : Statement) (S : ScopeChain) :
    (Statement.bindAll (ss ++ [s])).found S = (Statement.bindAll ss).found S ++
      s.bind.found ((Statement.bindAll ss).scopesAfter S) := by
  rw [bindAll_concat]
  simp

theorem Statement.scopesAfter_concat (ss : List Statement) (s : Statement) (S : ScopeChain) :
    (Statement.bindAll (ss ++ [s])).scopesAfter S =
      s.bind.scopesAfter ((Statement.bindAll ss).scopesAfter S) := by
  rw [bindAll_concat]
  simp

theorem Action.declaredAll_concat (actions : List Action) (a : Action) :
    Action.declaredAll (actions ++ [a]) = Action.declaredAll actions ++ a.declared := by
  induction actions with
  | nil => simp [Action.declaredAll]
  | cons first rest ih => simp [Action.declaredAll, ih]

theorem Action.runAll_concat {actions : List Action} {m : Machine}
    (h : (Action.runAll rounds actions m).1 = .ok ()) (a : Action) :
    Action.runAll rounds (actions ++ [a]) m = a.run rounds (Action.runAll rounds actions m).2 := by
  induction actions generalizing m with
  | nil =>
    change Eval.bind (a.run rounds) (fun _ => Eval.pure ()) m = a.run rounds m
    unfold Eval.bind
    cases a.run rounds m with
    | mk result m' => cases result <;> rfl
  | cons first rest ih =>
    have hcons (as : List Action) : Action.runAll rounds (first :: as) m =
        Eval.bind (first.run rounds) (fun _ => Action.runAll rounds as) m := rfl
    rw [List.cons_append, hcons, hcons]
    rw [hcons] at h
    unfold Eval.bind at h ⊢
    cases hfirst : first.run rounds m with
    | mk result m' =>
      rw [hfirst] at h
      cases result with
      | ok _ => exact ih h
      | error halt => cases h

end Concat

def Compilation.Apart (chain : List Compilation) : Prop :=
  chain.Pairwise fun c d =>
    ∀ v ∈ c.snapshot.exported, ∀ w ∈ d.snapshot.exported, v.name ≠ w.name

instance (chain : List Compilation) : Decidable (Compilation.Apart chain) :=
  inferInstanceAs (Decidable (chain.Pairwise _))

namespace Session

inductive Submits (rounds : Nat) (s : Session) : List Fragment → Session → Prop where
  | nil : Submits rounds s [] s
  | snoc {fragments : List Fragment} {t : Session} (h : Submits rounds s fragments t)
      {fragment : Fragment} {value : Option Value}
      (succeeds : (t.run rounds (t.compile fragment)).1 = .ok ⟨[], value⟩) :
      Submits rounds s (fragments ++ [fragment]) (t.run rounds (t.compile fragment)).2

def declared (s : Session) : List Variable :=
  s.snapshots.reverse.flatMap fun snapshot => snapshot.action.declared

/-- The same variable in two sessions, up to its id, with the same value or without one in both. -/
structure SameValue (store store' : Store) (v w : Variable) : Prop where
  name : w.name = v.name
  isReadOnly : w.isReadOnly = v.isReadOnly
  type : w.type = v.type
  value : store'.get? w = store.get? v

def blockScopes : ScopeChain := (Snapshot.surroundings []).push

/-- A block of statements, run from the state `m`, has come as far as the session. -/
structure Tracks (counts : List Nat) (rounds : Nat) (m : Machine) (s : Session)
    (statements : List Statement) : Prop where
  faultless : (Statement.bindAll statements).found blockScopes = []
  gathers :
    Snapshot.Gathers counts s.snapshots ((Statement.bindAll statements).scopesAfter blockScopes)
  exported : ∀ snapshot ∈ s.snapshots, ∀ v ∈ snapshot.exported, v ∈ s.declared
  counted : ∀ v ∈ s.declared, Counted counts v
  declared : Action.declaredAll ((Statement.bindAll statements).result blockScopes) =
    s.declared.map (Variable.rename (merged counts))
  ends : (Action.runAll rounds ((Statement.bindAll statements).result blockScopes) m).1 = .ok ()
  mirrors : Machine.Mirrors (merged counts) (Counted counts) False s.machine
    (Action.runAll rounds ((Statement.bindAll statements).result blockScopes) m).2

theorem tracks_start (counts : List Nat) (rounds : Nat) (host : Host) (seed seed' : Option UInt64) :
    (start host seed).Tracks counts rounds (start host seed').machine [] where
  faultless := rfl
  gathers := Snapshot.gathers_nil counts
  exported := by simp [snapshots, start]
  counted := by simp [Session.declared, snapshots, start]
  declared := rfl
  ends := rfl
  mirrors := ⟨fun _ _ => rfl, rfl, False.elim⟩

namespace Tracks

variable {counts : List Nat} {rounds : Nat} {m : Machine} {s : Session}
  {statements : List Statement} {fragment : Fragment} {statement : Statement}

theorem not_exported (hapart : Compilation.Apart (s.compile fragment :: s.chain)) :
    ∀ v ∈ (s.compile fragment).snapshot.action.leaked,
      Snapshot.exported? s.snapshots v.name = none := by
  intro v hv
  rw [snapshot_compile] at hv
  have hsome : (((s.compile fragment).snapshot.exported).find? fun w => w.name == v.name).isSome := by
    rw [snapshot_compile, Snapshot.find?_exported_bind, List.find?_isSome]
    exact ⟨v, hv, beq_self_eq_true _⟩
  obtain ⟨w, hw⟩ := Option.isSome_iff_exists.mp hsome
  have hname : w.name = v.name := by simpa using List.find?_some hw
  refine Option.eq_none_iff_forall_ne_some.mpr fun u hu => ?_
  obtain ⟨⟨snapshot, hmem, hexported⟩, huname⟩ := Snapshot.mem_of_exported? hu
  obtain ⟨c, hc, rfl⟩ := List.mem_map.mp hmem
  have hne := (List.pairwise_cons.mp hapart).1 c hc w (List.mem_of_find?_eq_some hw) u hexported
  exact hne (hname.trans huname.symm)

variable (h : s.Tracks counts rounds m statements)
  (hs : statement.unplaced = fragment.tree.statement.unplaced)
  (hapart : Compilation.Apart (s.compile fragment :: s.chain))
  (hcount : counts[s.ordinal]? = some fragment.tree.statement.declarations.length)

include h hs hapart hcount

theorem commutes :
    Commutes (Action.Becomes (merged counts)) fragment.tree.statement.bind
        (Snapshot.surroundings s.snapshots) statement.bind
        ((Statement.bindAll statements).scopesAfter blockScopes) ∧
      Snapshot.Gathers counts ((s.compile fragment).snapshot :: s.snapshots)
        ((Statement.bindAll (statements ++ [statement])).scopesAfter blockScopes) := by
  have hlength : s.snapshots.length = s.ordinal := List.length_map _
  rw [Statement.scopesAfter_concat, snapshot_compile]
  exact h.gathers.bind hs (not_exported hapart) (hlength ▸ hcount)

theorem result_concat :
    (Statement.bindAll (statements ++ [statement])).result blockScopes =
      (Statement.bindAll statements).result blockScopes ++
        [(s.compile fragment).snapshot.action.rename (merged counts)] := by
  have hresult := (h.commutes hs hapart hcount).1.1
  rw [Statement.result_concat, hresult, snapshot_compile, Snapshot.action_bind]

theorem found_concat (hf : (s.compile fragment).diagnostics = []) :
    (Statement.bindAll (statements ++ [statement])).found blockScopes = [] := by
  have hfaults := (h.commutes hs hapart hcount).1.2
  rw [found_compile hf, List.map_nil, List.map_eq_nil_iff] at hfaults
  rw [Statement.found_concat, h.faultless, hfaults, List.append_nil]

omit h hs hapart in
theorem counted_declared :
    ∀ v ∈ (s.compile fragment).snapshot.action.declared, Counted counts v := by
  have hlength : s.snapshots.length = s.ordinal := List.length_map _
  rw [snapshot_compile, Snapshot.action_bind]
  refine (fragment.tree.statement.numbered_declared _).counted (by simp) ?_
  rw [Snapshot.fragment_surroundings, hlength]
  exact hcount

theorem parallel (hrnd : ∀ t ∈ fragment.tree.statement.calls, t.text ≠ Function.rnd.name) :
    (Action.runAll rounds ((Statement.bindAll (statements ++ [statement])).result blockScopes)
        m).1 = ((s.compile fragment).snapshot.action.run rounds s.machine).1 ∧
      Machine.Mirrors (merged counts) (Counted counts) False
        ((s.compile fragment).snapshot.action.run rounds s.machine).2
        (Action.runAll rounds ((Statement.bindAll (statements ++ [statement])).result blockScopes)
          m).2 := by
  have hdeclared := counted_declared hcount
  -- Only what has a number of its own keeps apart from the others in the block.
  have hreferences : ∀ v ∈ (s.compile fragment).snapshot.action.references, Counted counts v := by
    intro v hv
    rw [snapshot_compile] at hv
    rcases Snapshot.mem_references_bind hv with hv | ⟨snapshot, hmem, hv⟩
    · exact hdeclared v hv
    · exact h.counted v (h.exported snapshot hmem v hv)
  have hcallees : ∀ f ∈ (s.compile fragment).snapshot.action.callees, f = .rnd → False := by
    intro f hf heq
    rw [snapshot_compile, Snapshot.action_bind] at hf
    obtain ⟨t, ht, htext⟩ := (fragment.tree.statement.called_bind _).exists_token hf
    exact hrnd t ht (heq ▸ htext)
  have hparallel := (s.compile fragment).snapshot.action.parallel_rename (separates_merged counts)
    rounds hdeclared hreferences hcallees
  rw [h.result_concat hs hapart hcount, Action.runAll_concat h.ends]
  exact hparallel _ _ h.mirrors

/-- After one more successful submission, and one more statement in the block. -/
theorem submit (hrnd : ∀ t ∈ fragment.tree.statement.calls, t.text ≠ Function.rnd.name)
    {value : Option Value}
    (succeeds : (s.run rounds (s.compile fragment)).1 = .ok ⟨[], value⟩) :
    (s.run rounds (s.compile fragment)).2.Tracks counts rounds m (statements ++ [statement]) := by
  have hf := diagnostics_of_ok succeeds
  obtain ⟨hends, hmirrors⟩ := h.parallel hs hapart hcount hrnd
  have hrun := s.run_eq rounds hf
  cases hresult : (s.compile fragment).snapshot.action.run rounds s.machine with
  | mk result n =>
    rw [hresult] at hrun hends hmirrors
    cases result with
    | error halt =>
      rw [hrun] at succeeds
      cases succeeds
    | ok _ =>
      have hsnapshots : (s.run rounds (s.compile fragment)).2.snapshots =
          (s.compile fragment).snapshot :: s.snapshots := by rw [hrun]; rfl
      have hall : (s.run rounds (s.compile fragment)).2.declared =
          s.declared ++ (s.compile fragment).snapshot.action.declared := by
        rw [Session.declared, hsnapshots]
        simp [Session.declared]
      refine ⟨?_, ?_, ?_, ?_, ?_, hends, ?_⟩
      · exact h.found_concat hs hapart hcount hf
      · rw [hsnapshots]
        exact (h.commutes hs hapart hcount).2
      · rw [hsnapshots, hall, List.forall_mem_cons]
        refine ⟨fun v hv => List.mem_append_right _ ?_, fun snapshot hmem v hv =>
          List.mem_append_left _ (h.exported snapshot hmem v hv)⟩
        rw [snapshot_compile] at hv ⊢
        exact Snapshot.mem_exported_bind _ _ hv
      · rw [hall, List.forall_mem_append]
        exact ⟨h.counted, counted_declared hcount⟩
      · rw [h.result_concat hs hapart hcount, Action.declaredAll_concat, h.declared, hall,
          List.map_append, Action.declared_rename]
      · rw [hrun]
        exact ⟨hmirrors.store, hmirrors.host, False.elim⟩

end Tracks

section Blocks

variable {rounds : Nat} {host : Host} {seed seed' : Option UInt64} {s : Session}
  {counts : List Nat} {fragments : List Fragment} {statements : List Statement}

theorem Submits.chain_eq (h : Submits rounds (start host seed) fragments s) :
    s.chain = Compilation.chainOf fragments := by
  induction h with
  | nil => rfl
  | snoc h succeeds ih => rw [chain_of_ok succeeds, compile, ih, Compilation.chainOf_concat]

theorem Submits.ordinal_eq (h : Submits rounds (start host seed) fragments s) :
    s.ordinal = fragments.length := by
  induction h with
  | nil => rfl
  | snoc h succeeds ih =>
    rw [ordinal] at ih ⊢
    rw [chain_of_ok succeeds, List.length_cons, ih, List.length_append, List.length_singleton]

def declarationCounts (fragments : List Fragment) : List Nat :=
  fragments.map fun fragment => fragment.tree.statement.declarations.length

theorem declarationCounts_concat (fragments : List Fragment) (fragment : Fragment) :
    declarationCounts (fragments ++ [fragment]) =
      declarationCounts fragments ++ [fragment.tree.statement.declarations.length] :=
  List.map_append

theorem Submits.count (h : Submits rounds (start host seed) fragments s) {fragment : Fragment}
    (hcounts : declarationCounts (fragments ++ [fragment]) <+: counts) :
    counts[s.ordinal]? = some fragment.tree.statement.declarations.length := by
  obtain ⟨more, rfl⟩ := hcounts
  rw [h.ordinal_eq, declarationCounts_concat]
  simp [declarationCounts]

theorem Submits.tracks (h : Submits rounds (start host seed) fragments s)
    (hcounts : declarationCounts fragments <+: counts)
    (hsame : statements.map Statement.unplaced =
      fragments.map fun fragment => fragment.tree.statement.unplaced)
    (hrnd : ∀ fragment ∈ fragments, ∀ t ∈ fragment.tree.statement.calls,
      t.text ≠ Function.rnd.name)
    (hapart : Compilation.Apart (Compilation.chainOf fragments)) (seed' : Option UInt64) :
    s.Tracks counts rounds (start host seed').machine statements := by
  induction h generalizing statements with
  | nil =>
    rw [List.map_nil, List.map_eq_nil_iff] at hsame
    rw [hsame]
    exact tracks_start counts rounds host seed seed'
  | @snoc fragments t h fragment value succeeds ih =>
    -- The last fragment is the last statement of the block; the rest is the block so far.
    rw [List.map_append, List.map_singleton, List.map_eq_append_iff] at hsame
    obtain ⟨before, after, rfl, hbefore, hafter⟩ := hsame
    obtain ⟨statement, rfl, hstatement⟩ := List.map_eq_singleton_iff.mp hafter
    rw [Compilation.chainOf_concat, ← h.chain_eq] at hapart
    rw [List.forall_mem_append, List.forall_mem_singleton] at hrnd
    have hcount := h.count hcounts
    have hprefix : declarationCounts fragments <+: counts := by
      rw [declarationCounts_concat] at hcounts
      exact (List.prefix_append _ _).trans hcounts
    have ht := ih hprefix hbefore hrnd.1 (h.chain_eq ▸ (List.pairwise_cons.mp hapart).2)
    exact ht.submit hstatement hapart hcount hrnd.2 succeeds

section Block

variable {block : Fragment} {openBrace closeBrace : Token}
  (hblock : block.tree.statement = .block openBrace statements closeBrace)

include hblock

theorem action_block :
    ((start host seed).compile block).snapshot.action =
      .block ((Statement.bindAll statements).result blockScopes) := by
  rw [snapshot_compile, Snapshot.action_bind, hblock]
  simp [Statement.bind, blockScopes, snapshots, start]

theorem diagnostics_block (hread : block.diagnostics = [])
    (hfound : (Statement.bindAll statements).found blockScopes = []) :
    ((start host seed).compile block).diagnostics = [] := by
  have hbound : ((start host seed).compile block).snapshot.diagnostics = [] := by
    have hinside : (Statement.bindAll statements).found (Snapshot.surroundings []).push = [] := hfound
    rw [snapshot_compile, Snapshot.diagnostics_bind, hblock]
    simp [Statement.bind, snapshots, start, hinside]
  have hfragment : ((start host seed).compile block).fragment = block := rfl
  rw [Compilation.diagnostics, hbound, hfragment, hread, List.append_nil]

theorem run_block (rounds : Nat) (host : Host) (seed : Option UInt64)
    (hread : block.diagnostics = [])
    (hfound : (Statement.bindAll statements).found blockScopes = []) :
    (start host seed).run rounds ((start host seed).compile block) =
      match Action.runAll rounds ((Statement.bindAll statements).result blockScopes)
        (start host seed).machine with
      | (.ok _, m) =>
        (.ok ⟨[], m.lastValue⟩, { start host seed with
          store := m.store, host := m.host, chain := [(start host seed).compile block] })
      | (.error halt, m) =>
        (.error halt, { start host seed with store := m.store, host := m.host }) := by
  rw [run_eq _ _ (diagnostics_block hblock hread hfound), action_block hblock]
  rfl

end Block

section Agreement

variable {block : Fragment} {openBrace closeBrace : Token}
  (hblock : block.tree.statement = .block openBrace statements closeBrace)
  (hsame : statements.map Statement.unplaced =
    fragments.map fun fragment => fragment.tree.statement.unplaced)
  (hread : block.diagnostics = [])
  (hrnd : ∀ fragment ∈ fragments, ∀ t ∈ fragment.tree.statement.calls, t.text ≠ Function.rnd.name)
  (hapart : Compilation.Apart (Compilation.chainOf fragments))

include hblock hsame hread hrnd hapart

theorem Submits.block_succeeds (h : Submits rounds (start host seed) fragments s) :
    ∃ value s', (start host seed').run rounds ((start host seed').compile block) =
        (.ok ⟨[], value⟩, s') ∧
      s'.host = s.host ∧
      List.Forall₂ (SameValue s.store s'.store) s.declared s'.declared ∧
      ∀ snapshot ∈ s.snapshots, ∀ v ∈ snapshot.exported, v ∈ s.declared := by
  have ht := h.tracks (List.prefix_refl _) hsame hrnd hapart seed'
  have hrun := run_block hblock rounds host seed' hread ht.faultless
  obtain ⟨hends, hmirrors⟩ := And.intro ht.ends ht.mirrors
  cases hresult : Action.runAll rounds ((Statement.bindAll statements).result blockScopes)
      (start host seed').machine with
  | mk result m =>
    rw [hresult] at hrun hends hmirrors
    cases hends
    refine ⟨m.lastValue, _, hrun, hmirrors.host, ?_, ht.exported⟩
    have hdeclared : declared { start host seed' with
        store := m.store, host := m.host, chain := [(start host seed').compile block] } =
          s.declared.map (Variable.rename (merged (declarationCounts fragments))) := by
      rw [← ht.declared]
      simp [declared, snapshots, action_block hblock, Action.declared]
    rw [hdeclared, List.forall₂_map_right_iff, List.forall₂_same]
    exact fun v hv => ⟨rfl, rfl, rfl, hmirrors.store v (ht.counted v hv)⟩

theorem Submits.block_halts {earlier : List Fragment} {fragment : Fragment} {halt : Halt}
    (hfragments : fragments = earlier ++ [fragment])
    (h : Submits rounds (start host seed) earlier s)
    (hhalt : (s.run rounds (s.compile fragment)).1 = .error halt) :
    ((start host seed').run rounds ((start host seed').compile block)).1 = .error halt ∧
      ((start host seed').run rounds ((start host seed').compile block)).2.host =
        (s.run rounds (s.compile fragment)).2.host := by
  subst hfragments
  rw [List.map_append, List.map_singleton, List.map_eq_append_iff] at hsame
  obtain ⟨before, after, rfl, hbefore, hafter⟩ := hsame
  obtain ⟨statement, rfl, hstatement⟩ := List.map_eq_singleton_iff.mp hafter
  rw [Compilation.chainOf_concat, ← h.chain_eq] at hapart
  rw [List.forall_mem_append, List.forall_mem_singleton] at hrnd
  have hcount := h.count (List.prefix_refl (declarationCounts (earlier ++ [fragment])))
  have hprefix : declarationCounts earlier <+: declarationCounts (earlier ++ [fragment]) := by
    rw [declarationCounts_concat]
    exact List.prefix_append _ _
  have ht := h.tracks hprefix hbefore hrnd.1 (h.chain_eq ▸ (List.pairwise_cons.mp hapart).2) seed'
  have hf := diagnostics_of_error hhalt
  obtain ⟨hends, hmirrors⟩ := ht.parallel hstatement hapart hcount hrnd.2
  have hfragment := s.run_eq rounds hf
  have hrun := run_block hblock rounds host seed' hread
    (ht.found_concat hstatement hapart hcount hf)
  cases hresult : (s.compile fragment).snapshot.action.run rounds s.machine with
  | mk result m =>
    cases hresult' : Action.runAll rounds
        ((Statement.bindAll (before ++ [statement])).result blockScopes)
        (start host seed').machine with
    | mk result' m' =>
      rw [hresult] at hfragment hends hmirrors
      rw [hresult'] at hrun hends hmirrors
      cases hends
      cases result with
      | ok _ =>
        rw [hfragment] at hhalt
        cases hhalt
      | error halt' =>
        rw [hfragment] at hhalt ⊢
        rw [hrun]
        exact ⟨hhalt, hmirrors.host⟩

end Agreement

/-- Statements that are submitted one by one, or run as one block, do the same. If all succeed as
fragments so does the block, with the same lines read and written and the same values for all
variables that are declared, those exported among them. If the last is the first that does not
succeed, but halts, the block halts likewise. -/
theorem block_agrees {block : Fragment} {openBrace closeBrace : Token}
    (hblock : block.tree.statement = .block openBrace statements closeBrace)
    (hsame : statements.map Statement.unplaced =
      fragments.map fun fragment => fragment.tree.statement.unplaced)
    (hread : block.diagnostics = [])
    (hrnd : ∀ fragment ∈ fragments, ∀ t ∈ fragment.tree.statement.calls,
      t.text ≠ Function.rnd.name)
    (hapart : Compilation.Apart (Compilation.chainOf fragments))
    (rounds : Nat) (host : Host) (seed seed' : Option UInt64) :
    (∀ s, Submits rounds (start host seed) fragments s →
      ∃ value s', (start host seed').run rounds ((start host seed').compile block) =
          (.ok ⟨[], value⟩, s') ∧
        s'.host = s.host ∧
        List.Forall₂ (SameValue s.store s'.store) s.declared s'.declared ∧
        ∀ snapshot ∈ s.snapshots, ∀ v ∈ snapshot.exported, v ∈ s.declared) ∧
      ∀ earlier fragment s halt, fragments = earlier ++ [fragment] →
        Submits rounds (start host seed) earlier s →
        (s.run rounds (s.compile fragment)).1 = .error halt →
        ((start host seed').run rounds ((start host seed').compile block)).1 = .error halt ∧
          ((start host seed').run rounds ((start host seed').compile block)).2.host =
            (s.run rounds (s.compile fragment)).2.host :=
  ⟨fun _ h => h.block_succeeds hblock hsame hread hrnd hapart,
    fun _ _ _ _ hfragments h hhalt =>
      h.block_halts hblock hsame hread hrnd hapart hfragments hhalt⟩

def fragmentOf (s : Statement) : Fragment := ⟨"", ⟨s, ⟨.endOfFile, ⟨0, 0⟩, ""⟩⟩, []⟩

def dividedParts : List Statement :=
  [.declaration ⟨.varKeyword, ⟨0, 3⟩, "var"⟩ ⟨.identifier, ⟨4, 1⟩, "a"⟩ none
      ⟨.equals, ⟨6, 1⟩, "="⟩ (.literal ⟨.number, ⟨8, 1⟩, "1"⟩ (.int 1)),
    .expression (.call ⟨.identifier, ⟨0, 5⟩, "write"⟩ ⟨.openParen, ⟨5, 1⟩, "("⟩
      [.call ⟨.identifier, ⟨6, 6⟩, "string"⟩ ⟨.openParen, ⟨12, 1⟩, "("⟩
        [.name ⟨.identifier, ⟨13, 1⟩, "a"⟩] ⟨.closeParen, ⟨14, 1⟩, ")"⟩]
      ⟨.closeParen, ⟨15, 1⟩, ")"⟩),
    .expression (.binary (.name ⟨.identifier, ⟨0, 1⟩, "a"⟩) ⟨.slash, ⟨2, 1⟩, "/"⟩
      (.literal ⟨.number, ⟨4, 1⟩, "0"⟩ (.int 0)))]

def dividedBlock : Fragment :=
  fragmentOf (.block ⟨.openBrace, ⟨0, 1⟩, "\x7b"⟩ (dividedParts.map Statement.unplaced)
    ⟨.closeBrace, ⟨34, 1⟩, "\x7d"⟩)

/-- What is written before the division is written in either way. -/
theorem block_agrees_divided :
    ∃ s, Submits 1 (start (.ofLines []) none)
        [fragmentOf dividedParts[0], fragmentOf dividedParts[1]] s ∧
      (s.run 1 (s.compile (fragmentOf dividedParts[2]))).1 = .error (.failed .divisionByZero) ∧
      (s.run 1 (s.compile (fragmentOf dividedParts[2]))).2.host = ⟨[], #["1"], 0⟩ ∧
      ((start (.ofLines []) none).run 1 ((start (.ofLines []) none).compile dividedBlock)).1 =
        .error (.failed .divisionByZero) ∧
      ((start (.ofLines []) none).run 1
        ((start (.ofLines []) none).compile dividedBlock)).2.host = ⟨[], #["1"], 0⟩ := by
  obtain ⟨first, hfirst⟩ : ∃ first, first = ((start (.ofLines []) none).run 1
      ((start (.ofLines []) none).compile (fragmentOf dividedParts[0]))).2 := ⟨_, rfl⟩
  obtain ⟨second, hsecond⟩ : ∃ second, second =
      (first.run 1 (first.compile (fragmentOf dividedParts[1]))).2 := ⟨_, rfl⟩
  have hone : ((start (.ofLines []) none).run 1
      ((start (.ofLines []) none).compile (fragmentOf dividedParts[0]))).1 =
        .ok ⟨[], some (.int 1)⟩ := by
    decide +kernel
  have htwo : (first.run 1 (first.compile (fragmentOf dividedParts[1]))).1 = .ok ⟨[], none⟩ := by
    rw [hfirst]
    decide +kernel
  have hsubmits : Submits 1 (start (.ofLines []) none)
      [fragmentOf dividedParts[0], fragmentOf dividedParts[1]] second := by
    rw [hsecond, hfirst]
    exact .snoc (.snoc .nil hone) (hfirst ▸ htwo)
  have hhalt : (second.run 1 (second.compile (fragmentOf dividedParts[2]))).1 =
      .error (.failed .divisionByZero) := by
    rw [hsecond, hfirst]
    decide +kernel
  have hhost : (second.run 1 (second.compile (fragmentOf dividedParts[2]))).2.host =
      ⟨[], #["1"], 0⟩ := by
    rw [hsecond, hfirst]
    decide +kernel
  have hsame : (dividedParts.map Statement.unplaced).map Statement.unplaced =
      (dividedParts.map fragmentOf).map fun fragment => fragment.tree.statement.unplaced := rfl
  have hagrees := block_agrees (rfl : dividedBlock.tree.statement = _) hsame rfl (by decide +kernel)
    (by decide +kernel) 1 (.ofLines []) none none
  obtain ⟨hresult, hworld⟩ := hagrees.2 _ _ second _ rfl hsubmits hhalt
  exact ⟨second, hsubmits, hhalt, hhost, hresult, hworld.trans hhost⟩

end Blocks

end Session

end ScalarScript
