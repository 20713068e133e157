import ScalarScript.Proofs.Mistakes.Actions
import ScalarScript.Proofs.Renaming.Running
import ScalarScript.Proofs.Tree.Places

/-!
The binder with the ids of the variables renamed. In scopes that answer with the renamed variables a
fragment has the same meaning, renamed, and the same faults; and where its tokens stand makes no
difference but to the places of the faults.
-/

set_option autoImplicit false

namespace ScalarScript

open Binder

variable {ρ : SymbolId → SymbolId}

@[simp] theorem Term.type_rename (t : Term) : (t.rename ρ).type = t.type := by
  cases t <;> rfl

theorem Term.renameAll_eq_map (ts : List Term) :
    Term.renameAll ρ ts = ts.map (Term.rename ρ) := by
  induction ts with
  | nil => rfl
  | cons t rest ih => rw [Term.renameAll, ih, List.map_cons]

mutual

theorem Action.leaked_rename : (a : Action) →
    (a.rename ρ).leaked = a.leaked.map (Variable.rename ρ)
  | .block _ => rfl
  | .declaration _ _ => rfl
  | .ifThen _ thenAction => thenAction.leaked_rename
  | .ifThenElse _ thenAction elseAction => by
    simp [rename, leaked, thenAction.leaked_rename, elseAction.leaked_rename]
  | .whileLoop _ body => body.leaked_rename
  | .forLoop _ _ _ _ => rfl
  | .expression _ => rfl

theorem Action.leakedAll_rename : (actions : List Action) →
    Action.leakedAll (Action.renameAll ρ actions) =
      (Action.leakedAll actions).map (Variable.rename ρ)
  | [] => rfl
  | a :: rest => by
    simp [Action.renameAll, Action.leakedAll, a.leaked_rename, Action.leakedAll_rename rest]

end

mutual

theorem Action.declared_rename : (a : Action) →
    (a.rename ρ).declared = a.declared.map (Variable.rename ρ)
  | .block actions => Action.declaredAll_rename actions
  | .declaration _ _ => rfl
  | .ifThen _ thenAction => thenAction.declared_rename
  | .ifThenElse _ thenAction elseAction => by
    simp [rename, declared, thenAction.declared_rename, elseAction.declared_rename]
  | .whileLoop _ body => body.declared_rename
  | .forLoop _ _ _ body => by
    simp [rename, declared, body.declared_rename]
  | .expression _ => rfl

theorem Action.declaredAll_rename : (actions : List Action) →
    Action.declaredAll (Action.renameAll ρ actions) =
      (Action.declaredAll actions).map (Variable.rename ρ)
  | [] => rfl
  | a :: rest => by
    simp [Action.renameAll, Action.declaredAll, a.declared_rename, Action.declaredAll_rename rest]

end

namespace ScopeChain

/-- The scopes `T` answer as `S` do, with the variables renamed; the names in `D` are taken in both
innermost scopes or in neither; and the ids that come next in `S` are renamed to those in `T`. -/
structure Renames (ρ : SymbolId → SymbolId) (D : String → Prop) (S T : ScopeChain) : Prop where
  alike : S.Alike (fun v w => w = v.rename ρ) D T
  lined : ∀ i, ρ ⟨S.fragment, S.nextIndex + i⟩ = ⟨T.fragment, T.nextIndex + i⟩

namespace Renames

variable {D D' : String → Prop} {S T : ScopeChain}

theorem variableNamed? (h : S.Renames ρ D T) (name : String) :
    T.variableNamed? name = (S.variableNamed? name).map (Variable.rename ρ) := by
  have hvisible := h.alike.visible name
  cases hs : S.variableNamed? name with
  | none =>
    rw [hs] at hvisible
    generalize T.variableNamed? name = w at hvisible
    cases hvisible
    rfl
  | some v =>
    rw [hs] at hvisible
    generalize T.variableNamed? name = w at hvisible
    cases hvisible with
    | some hw => rw [hw, Option.map_some]

theorem fresh (h : S.Renames ρ D T) (name : String) (isReadOnly : Bool) (type : Ty) :
    T.fresh name isReadOnly type = (S.fresh name isReadOnly type).rename ρ := by
  have hnext := h.lined 0
  simp only [Nat.add_zero] at hnext
  rw [Variable.rename, ScopeChain.fresh, ScopeChain.fresh, hnext]

theorem push (h : S.Renames ρ D T) (D' : String → Prop) : S.push.Renames ρ D' T.push :=
  ⟨h.alike.push D', h.lined⟩

theorem advance (h : S.Renames ρ D T) (n : Nat) : (S.advance n).Renames ρ D (T.advance n) where
  alike := h.alike.advance n n
  lined i := by
    have hn := h.lined (n + i)
    rwa [← Nat.add_assoc, ← Nat.add_assoc] at hn

theorem enterAll (h : S.Renames ρ D T) {vs : List Variable} (hD : ∀ v ∈ vs, D v.name) :
    (S.enterAll vs).Renames ρ D (T.enterAll (vs.map (Variable.rename ρ))) where
  alike := by
    have hv : List.Forall₂ (fun v w => w = v.rename ρ) vs (vs.map (Variable.rename ρ)) := by
      rw [List.forall₂_map_right_iff]
      exact List.forall₂_same.mpr fun _ _ => rfl
    have hname (v w : Variable) (hw : w = v.rename ρ) : w.name = v.name := by
      rw [hw, Variable.rename]
    exact Alike.enterAll hname h.alike hv hD
  lined i := by
    rw [fragment_enterAll, nextIndex_enterAll, fragment_enterAll, nextIndex_enterAll]
    exact h.lined i

theorem loopScopes (h : S.Renames ρ D T) (identifier : Token) :
    (Statement.loopScopes S identifier).Renames ρ (fun _ => True)
      (Statement.loopScopes T identifier) := by
  have hnames : ∀ v ∈ [S.fresh identifier.text true .int], (fun _ => True) v.name :=
    fun _ _ => trivial
  have henter := (h.push fun _ => True).enterAll hnames
  rw [List.map_singleton, ← h.fresh] at henter
  exact henter.advance 1

end Renames

end ScopeChain

namespace Binder

variable {α β γ δ : Type} {r : α → β → Prop} {q : γ → δ → Prop} {x : Binder α} {y : Binder β}
  {f : α → Binder γ} {g : β → Binder δ} {D : String → Prop} {S T : ScopeChain}

/-- What the two binders give is related, and they find the same faults, whatever the places. -/
def Commutes (r : α → β → Prop) (x : Binder α) (S : ScopeChain) (y : Binder β) (T : ScopeChain) :
    Prop :=
  r (x.result S) (y.result T) ∧
    (y.found T).map Diagnostic.fault = (x.found S).map Diagnostic.fault

theorem commutes_pure {a : α} {b : β} (h : r a b) : Commutes r (pure a) S (pure b) T := ⟨h, rfl⟩

theorem Commutes.bind [Additive x] [Additive y] [∀ a, Additive (f a)] [∀ b, Additive (g b)]
    (hx : Commutes r x S y T)
    (hf : ∀ a b, r a b → Commutes q (f a) (x.scopesAfter S) (g b) (y.scopesAfter T)) :
    Commutes q (x >>= f) S (y >>= g) T := by
  obtain ⟨hresult, hfound⟩ := hx
  obtain ⟨hq, hmore⟩ := hf _ _ hresult
  refine ⟨?_, ?_⟩
  · rw [result_bind, result_bind]
    exact hq
  · rw [found_bind, found_bind, List.map_append, List.map_append, hfound, hmore]

theorem Commutes.bind_reads [Reads x] [Reads y] [∀ a, Additive (f a)] [∀ b, Additive (g b)]
    (hx : Commutes r x S y T) (hf : ∀ a b, r a b → Commutes q (f a) S (g b) T) :
    Commutes q (x >>= f) S (y >>= g) T :=
  hx.bind fun a b h => by
    rw [scopesAfter_still, scopesAfter_still]
    exact hf a b h

theorem Yields.commutes {gives : ScopeChain → α} {finds : ScopeChain → List Diagnostic}
    {gives' : ScopeChain → β} {finds' : ScopeChain → List Diagnostic} (hx : Yields x gives finds)
    (hy : Yields y gives' finds') (hr : r (gives S) (gives' T))
    (hf : (finds' T).map Diagnostic.fault = (finds S).map Diagnostic.fault) :
    Commutes r x S y T := by
  refine ⟨?_, ?_⟩
  · rw [hx.result_eq, hy.result_eq]
    exact hr
  · rw [hx.found_eq, hy.found_eq]
    exact hf

end Binder

def Term.Becomes (ρ : SymbolId → SymbolId) (t u : Term) : Prop := u = t.rename ρ

def Action.Becomes (ρ : SymbolId → SymbolId) (a b : Action) : Prop := b = a.rename ρ

def Action.BecomeAll (ρ : SymbolId → SymbolId) (as bs : List Action) : Prop :=
  bs = Action.renameAll ρ as

def Term.BecomeAll (ρ : SymbolId → SymbolId) (as bs : List (Span × Term)) : Prop :=
  bs.map Prod.snd = Term.renameAll ρ (as.map Prod.snd)

namespace Binder

variable {D : String → Prop} {S T : ScopeChain} {span span' : Span}

theorem commutes_requireValue (t : Term) :
    Commutes (Term.Becomes ρ) (requireValue span t) S (requireValue span' (t.rename ρ)) T := by
  refine (yields_requireValue _ _).commutes (yields_requireValue _ _) ?_ ?_
  · rw [Term.type_rename]
    split <;> rfl
  · rw [Term.type_rename]
    split <;> rfl

theorem commutes_requireType (type target : Ty) :
    Commutes (fun _ _ => True) (requireType span type target) S (requireType span' type target)
      T := by
  refine (yields_requireType _ _ _).commutes (yields_requireType _ _ _) trivial ?_
  split <;> rfl

theorem commutes_name (h : S.Renames ρ D T) (identifier : Token) :
    Commutes (Term.Becomes ρ) (name identifier) S (name identifier.unplaced) T := by
  have hv : T.variableNamed? identifier.unplaced.text = _ := h.variableNamed? identifier.text
  have hmissing : identifier.unplaced.isMissing = identifier.isMissing := rfl
  refine (yields_name _).commutes (yields_name _) ?_ ?_
  · rw [hv, hmissing]
    cases identifier.isMissing <;> cases S.variableNamed? identifier.text <;> rfl
  · rw [hv, hmissing]
    cases identifier.isMissing <;> cases S.variableNamed? identifier.text <;> rfl

theorem commutes_assignment (h : S.Renames ρ D T) (identifier equals : Token) (t : Term) :
    Commutes (Term.Becomes ρ) (assignment identifier equals span t) S
      (assignment identifier.unplaced equals.unplaced span' (t.rename ρ)) T := by
  have hv : T.variableNamed? identifier.unplaced.text = _ := h.variableNamed? identifier.text
  refine (yields_assignment _ _ _ _).commutes (yields_assignment _ _ _ _) ?_ ?_
  · rw [hv, Term.type_rename]
    cases S.variableNamed? identifier.text with
    | none => rfl
    | some v =>
      dsimp only [Option.map_some, Variable.rename]
      split <;> rfl
  · rw [hv, Term.type_rename]
    cases S.variableNamed? identifier.text with
    | none => rfl
    | some v =>
      dsimp only [Option.map_some, Variable.rename]
      rw [List.map_append, List.map_append]
      congr 1
      · split <;> rfl
      · split <;> rfl

theorem commutes_unary (operator : Token) (t : Term) :
    Commutes (Term.Becomes ρ) (unary operator t) S (unary operator.unplaced (t.rename ρ)) T := by
  have hkind : operator.unplaced.kind = operator.kind := rfl
  refine (yields_unary _ _).commutes (yields_unary _ _) ?_ ?_
  · rw [Term.type_rename, hkind]
    split
    · rfl
    · cases UnaryOperator.find? operator.kind t.type <;> rfl
  · rw [Term.type_rename, hkind]
    split
    · rfl
    · cases UnaryOperator.find? operator.kind t.type <;> rfl

theorem commutes_binary (left : Term) (operator : Token) (right : Term) :
    Commutes (Term.Becomes ρ) (binary left operator right) S
      (binary (left.rename ρ) operator.unplaced (right.rename ρ)) T := by
  have hkind : operator.unplaced.kind = operator.kind := rfl
  refine (yields_binary _ _ _).commutes (yields_binary _ _ _) ?_ ?_
  · rw [Term.type_rename, Term.type_rename, hkind]
    split
    · rfl
    · cases BinaryOperator.find? operator.kind left.type right.type <;> rfl
  · rw [Term.type_rename, Term.type_rename, hkind]
    split
    · rfl
    · cases BinaryOperator.find? operator.kind left.type right.type <;> rfl

theorem commutes_conversion (t : Term) (target : Ty) :
    Commutes (Term.Becomes ρ) (conversion span t target) S
      (conversion span' (t.rename ρ) target) T := by
  refine (yields_conversion _ _ _).commutes (yields_conversion _ _ _) ?_ ?_
  · rw [Term.type_rename]
    split
    · rfl
    · cases Conversion.classify t.type target <;> rfl
  · rw [Term.type_rename]
    split
    · rfl
    · cases Conversion.classify t.type target <;> rfl

section Calls

variable {as bs : List (Span × Term)}

theorem types_of_becomeAll (h : Term.BecomeAll ρ as bs) :
    (bs.map Prod.snd).map Term.type = (as.map Prod.snd).map Term.type := by
  rw [h, Term.renameAll_eq_map]
  simp

theorem length_of_becomeAll (h : Term.BecomeAll ρ as bs) : bs.length = as.length := by
  have hlength := congrArg List.length (types_of_becomeAll h)
  simpa using hlength

theorem faults_argumentFaults (parameters : List Parameter)
    (h : (bs.map Prod.snd).map Term.type = (as.map Prod.snd).map Term.type) :
    (argumentFaults parameters bs).map Diagnostic.fault =
      (argumentFaults parameters as).map Diagnostic.fault := by
  induction parameters generalizing as bs with
  | nil => rfl
  | cons p parameters ih =>
    match as, bs, h with
    | [], [], _ => rfl
    | (span, t) :: as, (span', u) :: bs, h =>
      simp only [List.map_cons, List.cons.injEq] at h
      simp only [argumentFaults, List.map_append, h.1, ih h.2]
      congr 1
      split <;> rfl

theorem commutes_call (h : S.Renames ρ D T) (identifier : Token) (ha : Term.BecomeAll ρ as bs) :
    Commutes (Term.Becomes ρ) (call span identifier as) S
      (call span' identifier.unplaced bs) T := by
  have hf : T.functionNamed? identifier.unplaced.text = _ := h.alike.functions identifier.text
  refine (yields_call _ _ _).commutes (yields_call _ _ _) ?_ ?_
  · rw [hf, types_of_becomeAll ha, ha]
    cases S.functionNamed? identifier.text with
    | none => rfl
    | some f =>
      dsimp only
      split <;> rfl
  · rw [hf, length_of_becomeAll ha]
    cases S.functionNamed? identifier.text with
    | none => rfl
    | some f =>
      dsimp only
      split
      · rfl
      · exact faults_argumentFaults f.parameters (types_of_becomeAll ha)

theorem commutes_callOrConversion (h : S.Renames ρ D T) (identifier : Token)
    (ha : Term.BecomeAll ρ as bs) :
    Commutes (Term.Becomes ρ) (callOrConversion span identifier as) S
      (callOrConversion span' identifier.unplaced bs) T := by
  have hcall : Commutes (Term.Becomes ρ) (call span identifier as) S
      (call span' identifier.unplaced bs) T := commutes_call h identifier ha
  have htext : identifier.unplaced.text = identifier.text := rfl
  unfold callOrConversion
  rw [htext]
  cases Ty.ofName? identifier.text with
  | none => exact hcall
  | some target =>
    match as, bs, ha, hcall with
    | [], [], _, hcall => exact hcall
    | [(span, t)], [(span', u)], ha, _ =>
      have hu : u = t.rename ρ := (List.cons.inj ha).1
      rw [hu]
      exact commutes_conversion t target
    | [_], _ :: _ :: _, ha, _ => exact absurd (length_of_becomeAll ha) (by simp)
    | _ :: _ :: _, [_], ha, _ => exact absurd (length_of_becomeAll ha) (by simp)
    | _ :: _ :: _, _ :: _ :: _, _, hcall => exact hcall

end Calls

end Binder

section Expressions

variable {D : String → Prop} {S T : ScopeChain}

theorem Expression.commutes_bindValue_of {e e' : Expression}
    (h : Commutes (Term.Becomes ρ) e.bind S e'.bind T) :
    Commutes (Term.Becomes ρ) e.bindValue S e'.bindValue T :=
  h.bind_reads fun t _ ht => ht ▸ commutes_requireValue t

mutual

theorem Expression.commutes_bind (h : S.Renames ρ D T) : (e : Expression) →
    Commutes (Term.Becomes ρ) e.bind S e.unplaced.bind T
  | .literal _ value => commutes_pure rfl
  | .name identifier => commutes_name h identifier
  | .unary operator operand => by
    have ho := commutes_bindValue_of (operand.commutes_bind h)
    rw [unplaced, bind_unary, bind_unary]
    exact ho.bind_reads fun t _ ht => ht ▸ commutes_unary operator t
  | .binary left operator right => by
    have hl := commutes_bindValue_of (left.commutes_bind h)
    have hr := commutes_bindValue_of (right.commutes_bind h)
    rw [unplaced, bind_binary, bind_binary]
    exact hl.bind_reads fun l _ hl => hr.bind_reads fun r _ hr =>
      hl ▸ hr ▸ commutes_binary l operator r
  | .parenthesized _ inner _ => by
    rw [unplaced, bind, bind]
    exact inner.commutes_bind h
  | .assignment identifier equals source => by
    have hs := commutes_bindValue_of (source.commutes_bind h)
    rw [unplaced, bind_assignment, bind_assignment]
    exact hs.bind_reads fun t _ ht => ht ▸ commutes_assignment h identifier equals t
  | .call identifier openParen arguments closeParen => by
    have ha := Expression.commutes_bindAll h arguments
    rw [unplaced, bind_call, bind_call]
    exact ha.bind_reads fun _ _ hts => commutes_callOrConversion h identifier hts

theorem Expression.commutes_bindAll (h : S.Renames ρ D T) : (es : List Expression) →
    Commutes (Term.BecomeAll ρ) (Expression.bindAll es) S
      (Expression.bindAll (Expression.unplacedAll es)) T
  | [] => commutes_pure rfl
  | e :: rest => by
    have he := commutes_bindValue_of (e.commutes_bind h)
    have hr := Expression.commutes_bindAll h rest
    rw [unplacedAll, bindAll_cons, bindAll_cons]
    refine he.bind_reads fun t u ht => hr.bind_reads fun ts us hts => commutes_pure ?_
    rw [Term.BecomeAll, List.map_cons, List.map_cons, Term.renameAll, hts]
    exact congrArg (· :: _) ht

end

theorem Expression.commutes_bindValue (h : S.Renames ρ D T) (e : Expression) :
    Commutes (Term.Becomes ρ) e.bindValue S e.unplaced.bindValue T :=
  commutes_bindValue_of (e.commutes_bind h)

theorem Expression.commutes_bindTyped (h : S.Renames ρ D T) (e : Expression) (target : Ty) :
    Commutes (Term.Becomes ρ) (e.bindTyped target) S (e.unplaced.bindTyped target) T := by
  refine (e.commutes_bindValue h).bind_reads fun t u ht => ?_
  rw [ht, Term.type_rename]
  exact (commutes_requireType t.type target).bind_reads fun _ _ _ => commutes_pure rfl

end Expressions

mutual

theorem Statement.declarations_unplaced : (s : Statement) →
    s.unplaced.declarations = s.declarations.map Token.unplaced
  | .block _ statements _ => Statement.declarationsAll_unplaced statements
  | .declaration _ _ _ _ _ => rfl
  | .ifThen _ _ thenStatement => thenStatement.declarations_unplaced
  | .ifThenElse _ _ thenStatement _ elseStatement => by
    simp [unplaced, declarations, thenStatement.declarations_unplaced,
      elseStatement.declarations_unplaced]
  | .whileLoop _ _ body => body.declarations_unplaced
  | .forLoop _ _ _ _ _ _ body => by
    simp [unplaced, declarations, body.declarations_unplaced]
  | .expression _ => rfl

theorem Statement.declarationsAll_unplaced : (ss : List Statement) →
    Statement.declarationsAll (Statement.unplacedAll ss) =
      (Statement.declarationsAll ss).map Token.unplaced
  | [] => rfl
  | s :: rest => by
    simp [Statement.unplacedAll, Statement.declarationsAll, s.declarations_unplaced,
      Statement.declarationsAll_unplaced rest]

end

section Statements

variable {D : String → Prop} {S T : ScopeChain}

theorem ScopeChain.Renames.scopesAfter_bind (h : S.Renames ρ D T) {s s' : Statement}
    (hs : Commutes (Action.Becomes ρ) s.bind S s'.bind T)
    (hcount : s'.declarations.length = s.declarations.length)
    (hD : ∀ v ∈ (s.bind.result S).leaked, D v.name) :
    (s.bind.scopesAfter S).Renames ρ D (s'.bind.scopesAfter T) := by
  rw [s.scopesAfter_bind, s'.scopesAfter_bind, hs.1, Action.leaked_rename, hcount]
  exact (h.enterAll hD).advance _

theorem commutes_declare (h : S.Renames ρ D T) (identifier : Token) (initializer : Term)
    (isReadOnly : Bool) (hD : D identifier.text) :
    Commutes (Action.Becomes ρ)
      (Binder.declare identifier.text isReadOnly initializer.type >>=
        declaration identifier initializer) S
      (Binder.declare identifier.unplaced.text isReadOnly (initializer.rename ρ).type >>=
        declaration identifier.unplaced (initializer.rename ρ)) T := by
  have hfresh : T.fresh identifier.unplaced.text isReadOnly initializer.type = _ :=
    h.fresh identifier.text isReadOnly initializer.type
  have htaken := h.alike.taken identifier.text hD
  have htext : identifier.unplaced.text = identifier.text := rfl
  have hmissing : identifier.unplaced.isMissing = identifier.isMissing := rfl
  refine ⟨?_, ?_⟩
  · rw [result_bind, result_bind, result_declare, result_declare,
      (yields_declaration _ _ _).result_eq, (yields_declaration _ _ _).result_eq,
      attempted_declare, attempted_declare, Term.type_rename, hfresh]
    rfl
  · rw [found_bind, found_bind, result_declare, result_declare,
      (yields_declaration _ _ _).found_eq, (yields_declaration _ _ _).found_eq,
      declarationFaults_declare, declarationFaults_declare, hmissing, htext,
      if_congr (and_congr_left' htaken) rfl rfl, found_declare, found_declare]
    split <;> rfl

mutual

/-- A statement has the same meaning in scopes with renamed variables, and the same faults. -/
theorem Statement.commutes_bind {D : String → Prop} {S T : ScopeChain} (h : S.Renames ρ D T) :
    (s : Statement) → (∀ v ∈ (s.bind.result S).leaked, D v.name) →
    Commutes (Action.Becomes ρ) s.bind S s.unplaced.bind T
  | .block _ statements _, _ => by
    have ih := Statement.commutes_bindAll (h.push fun _ => True) statements fun _ _ => trivial
    refine ⟨?_, ?_⟩
    · simp only [unplaced, bind, result_bind, result_inNewScope, result_pure]
      exact congrArg Action.block ih.1
    · simp [unplaced, bind, ih.2]
  | .declaration keyword identifier _ _ initializer, hD => by
    rw [result_declaration] at hD
    rw [unplaced, bind_declaration, bind_declaration]
    exact (initializer.commutes_bindValue h).bind_reads fun t _ ht =>
      ht ▸ commutes_declare h identifier t _ (hD _ (List.mem_singleton_self _))
  | .ifThen _ condition thenStatement, hD => by
    have hc := condition.commutes_bindTyped h .bool
    simp only [bind, result_bind, scopesAfter_still, result_pure, Action.leaked] at hD
    have ht := thenStatement.commutes_bind h hD
    rw [unplaced, bind, bind]
    refine hc.bind_reads fun c _ hc => ht.bind fun a _ ha => commutes_pure ?_
    rw [hc, ha]
    rfl
  | .ifThenElse _ condition thenStatement _ elseStatement, hD => by
    have hc := condition.commutes_bindTyped h .bool
    simp only [bind, result_bind, scopesAfter_still, result_pure, Action.leaked,
      List.forall_mem_append] at hD
    have ht := thenStatement.commutes_bind h hD.1
    have hafter := h.scopesAfter_bind ht (by simp [thenStatement.declarations_unplaced]) hD.1
    have he := elseStatement.commutes_bind hafter hD.2
    rw [unplaced, bind, bind]
    refine hc.bind_reads fun c _ hc => ht.bind fun a _ ha => he.bind fun b _ hb => commutes_pure ?_
    rw [hc, ha, hb]
    rfl
  | .whileLoop _ condition body, hD => by
    have hc := condition.commutes_bindTyped h .bool
    simp only [bind, result_bind, scopesAfter_still, result_pure, Action.leaked] at hD
    have hb := body.commutes_bind h hD
    rw [unplaced, bind, bind]
    refine hc.bind_reads fun c _ hc => hb.bind fun a _ ha => commutes_pure ?_
    rw [hc, ha]
    rfl
  | .forLoop _ identifier _ lower _ upper body, _ => by
    have hl := lower.commutes_bindTyped h .int
    have hu := upper.commutes_bindTyped h .int
    have hb := body.commutes_bind (h.loopScopes identifier) fun _ _ => trivial
    have hfresh : T.fresh identifier.unplaced.text true .int = _ := h.fresh identifier.text true .int
    refine ⟨?_, ?_⟩
    · rw [unplaced, result_forLoop, result_forLoop, (lower.commutes_bindValue h).1,
        (upper.commutes_bindValue h).1, hfresh]
      exact congrArg (Action.forLoop _ _ _) hb.1
    · rw [unplaced, found_forLoop, found_forLoop]
      simp only [List.map_append, hl.2, hu.2]
      exact congrArg _ hb.2
  | .expression inner, _ => by
    rw [unplaced, bind, bind]
    refine (inner.commutes_bind h).bind_reads fun t _ ht => commutes_pure ?_
    rw [ht]
    rfl

theorem Statement.commutes_bindAll {D : String → Prop} {S T : ScopeChain} (h : S.Renames ρ D T) :
    (ss : List Statement) →
    (∀ v ∈ Action.leakedAll ((Statement.bindAll ss).result S), D v.name) →
    Commutes (Action.BecomeAll ρ) (Statement.bindAll ss) S
      (Statement.bindAll (Statement.unplacedAll ss)) T
  | [], _ => commutes_pure rfl
  | s :: rest, hD => by
    simp only [Statement.bindAll, result_bind, result_pure, Action.leakedAll,
      List.forall_mem_append] at hD
    have hs := s.commutes_bind h hD.1
    have hafter := h.scopesAfter_bind hs (by simp [s.declarations_unplaced]) hD.1
    have hr := Statement.commutes_bindAll hafter rest hD.2
    rw [Statement.unplacedAll, Statement.bindAll, Statement.bindAll]
    refine hs.bind fun a _ ha => hr.bind fun as _ has => commutes_pure ?_
    rw [Action.BecomeAll, ha, has, Action.renameAll]

end

theorem ScopeChain.Renames.refl (S : ScopeChain) : S.Renames id (fun _ => True) S where
  alike := by
    have hvisible (o : Option Variable) : Option.Rel (fun v w => w = v.rename id) o o := by
      cases o with
      | none => exact .none
      | some v => exact .some rfl
    exact ⟨fun _ => hvisible _, fun _ _ => Iff.rfl, fun _ => rfl⟩
  lined _ := rfl

/-- Two statements that are the same up to places have the same meaning, and the same faults, up to
places. -/
theorem Statement.commutes_bind_of_unplaced (h : S.Renames ρ D T) {s s' : Statement}
    (hs : s'.unplaced = s.unplaced) (hD : ∀ v ∈ (s.bind.result S).leaked, D v.name) :
    Commutes (Action.Becomes ρ) s.bind S s'.bind T := by
  obtain ⟨hresult, hfound⟩ := s.commutes_bind h hD
  -- The other statement is compared with the same tree without places, nothing being renamed.
  obtain ⟨hresult', hfound'⟩ := s'.commutes_bind (.refl T) fun _ _ => trivial
  rw [Action.Becomes, Action.rename_id] at hresult'
  rw [← hs, hresult'] at hresult
  rw [← hs, hfound'] at hfound
  exact ⟨hresult, hfound⟩

theorem Statement.length_declarations_of_unplaced {s s' : Statement}
    (hs : s'.unplaced = s.unplaced) : s'.declarations.length = s.declarations.length := by
  have hnames := congrArg Statement.declarations hs
  rw [s.declarations_unplaced, s'.declarations_unplaced] at hnames
  simpa using congrArg List.length hnames

end Statements

end ScalarScript
