import ScalarScript.Proofs.Names.Occurrences
import ScalarScript.Proofs.Scope.Alike

/-!
Names are resolved by lexical scope. While the binder walks through a fragment, its innermost scopes
hold what was declared in the scopes that are open, and so what it finds under a name is what the
rules of lexical scope say.
-/

set_option autoImplicit false

namespace ScalarScript

open Binder

def History.declaredIn (h : History) (scope : Nat) : List Variable :=
  h.filterMap fun (o, v) => if o.declares ∧ o.scopes.head? = some scope then v else none

/-- What a name stands for: the first variable of that name in the innermost open scope that has
one, or else what it stands for outside. -/
def History.lexical (h : History) (outer : String → Option Variable) (use : Occurrence) :
    Option Variable :=
  (use.scopes.findSome? fun scope =>
    (h.declaredIn scope).find? fun v => v.name == use.identifier.text).or
      (outer use.identifier.text)

def History.Explained (outer : String → Option Variable) : History → History → Prop
  | _, [] => True
  | h, (o, v) :: rest =>
    (o.declares = false → v = h.lexical outer o) ∧ Explained outer (h ++ [(o, v)]) rest

namespace History

variable {outer : String → Option Variable}

theorem explained_append {h l m : History} :
    Explained outer h (l ++ m) ↔ Explained outer h l ∧ Explained outer (h ++ l) m := by
  induction l generalizing h with
  | nil => simp [Explained]
  | cons p l ih =>
    obtain ⟨o, v⟩ := p
    simp only [List.cons_append, Explained, ih, List.append_assoc, List.nil_append, and_assoc]

theorem Explained.split {h l : History} (he : Explained outer h l) {before after : History}
    {use : Occurrence} {v : Option Variable} (hl : l = before ++ (use, v) :: after)
    (huse : use.declares = false) : v = (h ++ before).lexical outer use := by
  rw [hl, explained_append] at he
  exact he.2.1 huse

@[simp] theorem declaredIn_append (h l : History) (scope : Nat) :
    (h ++ l : History).declaredIn scope = h.declaredIn scope ++ l.declaredIn scope :=
  List.filterMap_append

theorem mem_declared_of_declaredIn {h : History} {scope : Nat} {v : Variable}
    (hv : v ∈ h.declaredIn scope) : v ∈ h.declared := by
  obtain ⟨⟨o, w⟩, hmem, hw⟩ := List.mem_filterMap.mp hv
  refine List.mem_filterMap.mpr ⟨(o, w), hmem, ?_⟩
  dsimp only at hw ⊢
  split at hw
  · rename_i hd
    rw [if_pos hd.1, hw]
  · cases hw

theorem declaredIn_uses (ts : List Token) (f : Token → Option Variable) (scopes : List Nat)
    (scope : Nat) :
    declaredIn (ts.map fun t => (⟨t, false, scopes⟩, f t)) scope = [] := by
  simp [declaredIn]

theorem declaredIn_declaration (t : Token) (q : Nat) (scopes : List Nat) (v : Variable)
    (scope : Nat) :
    declaredIn [(⟨t, true, q :: scopes⟩, some v)] scope = if q = scope then [v] else [] := by
  by_cases h : q = scope <;> simp [declaredIn, h]

theorem declaredIn_fresh {h : History} {next : Nat} (past : ∀ p ∈ h, ∀ q ∈ p.1.scopes, q < next) :
    h.declaredIn next = [] := by
  simp only [declaredIn, List.filterMap_eq_nil_iff]
  intro p hp
  have hhead : p.1.scopes.head? ≠ some next := by
    intro hhead
    have := past p hp next (List.mem_of_head? hhead)
    omega
  simp [hhead]

end History

/-- Where the binder has got to: its innermost scopes hold what the history says was declared in
the scopes that are open, and the rest is `base`. No scope has got the number `next` yet. -/
structure Reached (base : ScopeChain) (scopes : List Nat) (next : Nat) (h : History)
    (S : ScopeChain) : Prop where
  layout : S.scopes =
    (scopes.map fun scope => Scope.empty.enterAll (h.declaredIn scope)) ++ base.scopes
  nodup : scopes.Nodup
  below : ∀ q ∈ scopes, q < next
  past : ∀ p ∈ h, ∀ q ∈ p.1.scopes, q < next

namespace Reached

variable {base S : ScopeChain} {q next : Nat} {scopes : List Nat} {h : History}

theorem variableNamed? (hr : Reached base scopes next h S) (t : Token) :
    S.variableNamed? t.text = h.lexical base.variableNamed? ⟨t, false, scopes⟩ := by
  have hscope (scope : Nat) :
      (Scope.empty.enterAll (h.declaredIn scope)).variableNamed? t.text =
        (h.declaredIn scope).find? fun v => v.name == t.text := by
    simp [Scope.variableNamed?_enterAll]
  rw [ScopeChain.variableNamed?, hr.layout, List.findSome?_append, List.findSome?_map]
  simp only [Function.comp_def, hscope]
  rfl

theorem uses (hr : Reached base scopes next h S) (ts : List Token) (f : Token → Option Variable) :
    Reached base scopes next (h ++ ts.map fun t => (⟨t, false, scopes⟩, f t)) S where
  layout := by
    have hdeclared (scope : Nat) : History.declaredIn
        (h ++ ts.map fun t => (⟨t, false, scopes⟩, f t)) scope = h.declaredIn scope := by
      rw [History.declaredIn_append, History.declaredIn_uses, List.append_nil]
    simp only [hdeclared]
    exact hr.layout
  nodup := hr.nodup
  below := hr.below
  past p hp := by
    rcases List.mem_append.mp hp with hp | hp
    · exact hr.past p hp
    · obtain ⟨t, -, rfl⟩ := List.mem_map.mp hp
      exact hr.below

theorem push (hr : Reached base scopes next h S) :
    Reached base (next :: scopes) (next + 1) h S.push where
  layout := by
    rw [ScopeChain.scopes_push, hr.layout, List.map_cons, History.declaredIn_fresh hr.past]
    rfl
  nodup := List.nodup_cons.mpr ⟨fun hmem => Nat.lt_irrefl _ (hr.below next hmem), hr.nodup⟩
  below q hq := by
    rcases List.mem_cons.mp hq with rfl | hq
    · omega
    · have := hr.below q hq
      omega
  past p hp q hq := by
    have := hr.past p hp q hq
    omega

theorem pop (hr : Reached base (q :: scopes) next h S) : Reached base scopes next h S.pop where
  layout := by
    have htail : S.scopes.tail =
        (scopes.map fun scope => Scope.empty.enterAll (h.declaredIn scope)) ++ base.scopes := by
      rw [hr.layout]
      rfl
    rw [ScopeChain.scopes_pop, htail]
    simp [htail, base.scopes_ne_nil]
  nodup := (List.nodup_cons.mp hr.nodup).2
  below p hp := hr.below p (List.mem_cons_of_mem _ hp)
  past := hr.past

theorem declare (hr : Reached base (q :: scopes) next h S) (t : Token) (v : Variable) (n : Nat) :
    Reached base (q :: scopes) next (h ++ [(⟨t, true, q :: scopes⟩, some v)])
      ((S.enter v).advance n) where
  layout := by
    have hlayout := hr.layout
    -- The open scopes have different numbers, so only the innermost gets the variable.
    have hother : ∀ scope ∈ scopes,
        Scope.empty.enterAll
          (History.declaredIn (h ++ [(⟨t, true, q :: scopes⟩, some v)]) scope) =
        Scope.empty.enterAll (h.declaredIn scope) := by
      intro scope hmem
      have hne : q ≠ scope := fun heq => (List.nodup_cons.mp hr.nodup).1 (heq ▸ hmem)
      rw [History.declaredIn_append, History.declaredIn_declaration, if_neg hne, List.append_nil]
    rw [List.map_cons, List.cons_append, ScopeChain.scopes_eq] at hlayout
    obtain ⟨hcurrent, htail⟩ := List.cons.inj hlayout
    have henter : ((S.enter v).advance n).scopes = S.current.enter v :: S.scopes.tail :=
      ScopeChain.scopes_enterAll S [v]
    rw [henter, hcurrent, htail, List.map_cons, List.cons_append, List.map_congr_left hother,
      History.declaredIn_append, History.declaredIn_declaration, if_pos rfl, Scope.enterAll_append]
    rfl
  nodup := hr.nodup
  below := hr.below
  past p hp := by
    rcases List.mem_append.mp hp with hp | hp
    · exact hr.past p hp
    · rw [List.mem_singleton.mp hp]
      exact hr.below

end Reached

theorem History.explained_uses {base S : ScopeChain} {scopes : List Nat} {next : Nat} {h : History}
    (hr : Reached base scopes next h S) (ts : List Token) :
    Explained base.variableNamed? h
      (ts.map fun t => (⟨t, false, scopes⟩, S.variableNamed? t.text)) := by
  induction ts generalizing h with
  | nil => trivial
  | cons t ts ih =>
    have hrest := hr.uses [t] fun t => S.variableNamed? t.text
    exact ⟨fun _ => hr.variableNamed? t, ih hrest⟩

structure Walked (base : ScopeChain) (scopes : List Nat) (next : Nat) (h l : History)
    (S : ScopeChain) : Prop where
  explained : History.Explained base.variableNamed? h l
  reached : Reached base scopes next (h ++ l) S

namespace Walked

variable {base S : ScopeChain} {scopes : List Nat} {next : Nat} {h l m : History}

theorem append {S' : ScopeChain} {next' : Nat} (hl : Walked base scopes next h l S)
    (hm : Reached base scopes next (h ++ l) S → Walked base scopes next' (h ++ l) m S') :
    Walked base scopes next' h (l ++ m) S' where
  explained := History.explained_append.mpr ⟨hl.explained, (hm hl.reached).explained⟩
  reached := List.append_assoc h l m ▸ (hm hl.reached).reached

theorem expression (hr : Reached base scopes next h S) (e : Expression) :
    Walked base scopes next h (e.history S scopes) S := by
  have heq : e.history S scopes =
      e.names.map fun t => (⟨t, false, scopes⟩, S.variableNamed? t.text) := by
    simp [Expression.history, Expression.occurrences, Function.comp_def]
  rw [heq]
  exact ⟨History.explained_uses hr e.names, hr.uses e.names _⟩

theorem declaration {q : Nat} (hr : Reached base (q :: scopes) next h S) (t : Token) (v : Variable)
    (n : Nat) :
    Walked base (q :: scopes) next h [(⟨t, true, q :: scopes⟩, some v)] ((S.enter v).advance n) :=
  ⟨⟨by simp, trivial⟩, hr.declare t v n⟩

theorem pop {q : Nat} (hw : Walked base (q :: scopes) next h l S) :
    Walked base scopes next h l S.pop :=
  ⟨hw.explained, hw.reached.pop⟩

end Walked

mutual

theorem Statement.walked {base S : ScopeChain} {q next : Nat} {scopes : List Nat} {h : History}
    (hr : Reached base (q :: scopes) next h S) : (s : Statement) →
    Walked base (q :: scopes) (next + s.scopeCount) h (s.history S (q :: scopes) next)
      (s.bind.scopesAfter S)
  | .block _ statements _ => by
    have hw := Statement.walkedAll hr.push statements
    rw [Nat.add_assoc] at hw
    simpa [bind, history, scopeCount] using hw.pop
  | .declaration keyword identifier clause equals initializer => by
    rw [scopesAfter_declaration]
    exact (Walked.expression hr initializer).append fun hr => .declaration hr identifier _ 1
  | .ifThen _ condition thenStatement => by
    have hw := (Walked.expression hr condition).append fun hr => thenStatement.walked hr
    simpa [bind, history, scopeCount] using hw
  | .ifThenElse _ condition thenStatement _ elseStatement => by
    have hthen := (Walked.expression hr condition).append fun hr => thenStatement.walked hr
    have hw := hthen.append fun hr => elseStatement.walked hr
    rw [Nat.add_assoc] at hw
    simpa [bind, history, scopeCount] using hw
  | .whileLoop _ condition body => by
    have hw := (Walked.expression hr condition).append fun hr => body.walked hr
    simpa [bind, history, scopeCount] using hw
  | .forLoop _ identifier _ lower _ upper body => by
    have hbounds := (Walked.expression hr lower).append fun hr => .expression hr upper
    have hw := hbounds.append fun hr =>
      have hdeclared : Walked _ _ _ _ _ (loopScopes S identifier) :=
        .declaration hr.push identifier (S.fresh identifier.text true .int) 1
      (hdeclared.append fun hr => body.walked hr).pop
    rw [scopesAfter_forLoop]
    rw [Nat.add_assoc] at hw
    simpa [history, scopeCount] using hw
  | .expression inner => by
    simpa [bind, history, scopeCount] using Walked.expression hr inner

theorem Statement.walkedAll {base S : ScopeChain} {q next : Nat} {scopes : List Nat} {h : History}
    (hr : Reached base (q :: scopes) next h S) : (ss : List Statement) →
    Walked base (q :: scopes) (next + Statement.scopeCountAll ss) h
      (Statement.historyAll S (q :: scopes) next ss) ((Statement.bindAll ss).scopesAfter S)
  | [] => by
    simp only [Statement.bindAll, Statement.historyAll, Statement.scopeCountAll]
    exact ⟨trivial, by simpa using hr⟩
  | s :: rest => by
    have hw := (s.walked hr).append fun hr => Statement.walkedAll hr rest
    rw [Nat.add_assoc] at hw
    simpa [Statement.bindAll, Statement.historyAll, Statement.scopeCountAll] using hw

end

end ScalarScript
