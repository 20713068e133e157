import ScalarScript.Proofs.Mistakes.Terms

set_option autoImplicit false

namespace ScalarScript

open Binder

variable {S S' : ScopeChain} {ds es : List Diagnostic}

def Action.Blurs (a b : Action) : Prop := List.Forall₂ Variable.Blurs a.leaked b.leaked

def Action.BlursAll (as bs : List Action) : Prop :=
  List.Forall₂ Variable.Blurs (Action.leakedAll as) (Action.leakedAll bs)

abbrev ScopeChain.Blurs (S S' : ScopeChain) : Prop := S.Alike Variable.Blurs (fun _ => True) S'

theorem Option.rel_refl {α : Type} {r : α → α → Prop} (hr : ∀ a, r a a) (o : Option α) :
    Option.Rel r o o := by
  cases o with
  | none => exact .none
  | some a => exact .some (hr a)

theorem ScopeChain.Blurs.refl (S : ScopeChain) : S.Blurs S :=
  ⟨fun _ => Option.rel_refl Variable.Blurs.refl _, fun _ _ => Iff.rfl, fun _ => rfl⟩

theorem ScopeChain.Blurs.enterAll (h : S.Blurs S') {vs ws : List Variable}
    (hv : List.Forall₂ Variable.Blurs vs ws) (m n : Nat) :
    ScopeChain.Blurs ((S.enterAll vs).advance m) ((S'.enterAll ws).advance n) :=
  (ScopeChain.Alike.enterAll (fun _ _ h => h.name) h hv fun _ _ => trivial).advance m n

theorem ScopeChain.Blurs.scopesAfter_bind (h : S.Blurs S') {s s' : Statement}
    (hs : (s.bind.result S).Blurs (s'.bind.result S')) :
    ScopeChain.Blurs (s.bind.scopesAfter S) (s'.bind.scopesAfter S') := by
  rw [s.scopesAfter_bind, s'.scopesAfter_bind]
  exact h.enterAll hs _ _

theorem blurs_fresh (name : String) (isReadOnly : Bool) {t u : Ty} (h : t.Blurs u) :
    (S.fresh name isReadOnly t).Blurs (S'.fresh name isReadOnly u) := ⟨rfl, rfl, h⟩

theorem ScopeChain.Blurs.loopScopes (h : S.Blurs S') (identifier : Token) :
    ScopeChain.Blurs (Statement.loopScopes S identifier) (Statement.loopScopes S' identifier) := by
  rw [loopScopes_eq, loopScopes_eq]
  exact ScopeChain.Blurs.enterAll (h.push _) (.cons (blurs_fresh _ _ (.refl _)) .nil) 1 1

theorem declarationFaults_declare (identifier : Token) (isReadOnly : Bool) (type : Ty) :
    declarationFaults identifier (S.declare identifier.text isReadOnly type).1 =
      if S.Taken identifier.text ∧ identifier.isMissing = false then
        [⟨identifier.span, .variableAlreadyDeclared identifier.text⟩]
      else [] := by
  rw [ScopeChain.declare_eq]
  by_cases h : S.Taken identifier.text
  · have hsome : (S.current.variableNamed? identifier.text).isSome = true := h
    cases hm : identifier.isMissing <;> simp [declarationFaults, h, hsome, hm]
  · have hnone : (S.current.variableNamed? identifier.text).isSome = false := by
      simpa [ScopeChain.Taken] using h
    simp [declarationFaults, h, hnone]

namespace Statement

variable {e e' upper upper' : Expression} {s s' : Statement} {ss ss' : List Statement}
  {fs : List Diagnostic}

theorem follows_declaration_of (h : S.Blurs S') (keyword identifier : Token)
    (clause : Option TypeClause) (equals : Token)
    (he : Follows Term.Blurs ds e.bind S e'.bind S') :
    Follows Action.Blurs ds (declaration keyword identifier clause equals e).bind S
      (declaration keyword identifier clause equals e').bind S' := by
  intro hf
  rw [found_declaration, List.append_eq_nil_iff, declarationFaults_declare] at hf
  obtain ⟨hfound, hblur⟩ := Expression.follows_bindValue_of he hf.1
  rw [found_declaration, declarationFaults_declare, if_congr (and_congr_left fun _ =>
    h.taken identifier.text trivial) rfl rfl, hf.2, hfound, List.append_nil, result_declaration,
    result_declaration]
  exact ⟨rfl, .cons (blurs_fresh _ _ hblur) .nil⟩

theorem follows_ifThen_of (ifKeyword : Token) (hc : Follows Term.Blurs ds e.bind S e'.bind S')
    (ht : Follows Action.Blurs es s.bind S s'.bind S') :
    Follows Action.Blurs (ds ++ es) (ifThen ifKeyword e s).bind S
      (ifThen ifKeyword e' s').bind S' := by
  rw [bind, bind, ← List.append_nil es]
  exact (Expression.follows_bindTyped_of .bool hc).bind_reads fun _ _ _ =>
    ht.bind fun _ hr => follows_pure hr

theorem follows_ifThenElse_of (ifKeyword elseKeyword : Token) {r r' : Statement}
    (hc : Follows Term.Blurs ds e.bind S e'.bind S')
    (ht : Follows Action.Blurs es s.bind S s'.bind S')
    (he : (s.bind.result S).Blurs (s'.bind.result S') →
      Follows Action.Blurs fs r.bind (s.bind.scopesAfter S) r'.bind (s'.bind.scopesAfter S')) :
    Follows Action.Blurs (ds ++ (es ++ fs)) (ifThenElse ifKeyword e s elseKeyword r).bind S
      (ifThenElse ifKeyword e' s' elseKeyword r').bind S' := by
  rw [bind, bind, ← List.append_nil fs]
  exact (Expression.follows_bindTyped_of .bool hc).bind_reads fun _ _ _ =>
    ht.bind fun _ hr => (he hr).bind fun _ hr' => follows_pure (List.rel_append hr hr')

theorem follows_whileLoop_of (whileKeyword : Token)
    (hc : Follows Term.Blurs ds e.bind S e'.bind S')
    (hb : Follows Action.Blurs es s.bind S s'.bind S') :
    Follows Action.Blurs (ds ++ es) (whileLoop whileKeyword e s).bind S
      (whileLoop whileKeyword e' s').bind S' := by
  rw [bind, bind, ← List.append_nil es]
  exact (Expression.follows_bindTyped_of .bool hc).bind_reads fun _ _ _ =>
    hb.bind fun _ hr => follows_pure hr

theorem follows_forLoop_of (forKeyword identifier equals toKeyword : Token)
    (hl : Follows Term.Blurs ds e.bind S e'.bind S')
    (hu : Follows Term.Blurs es upper.bind S upper'.bind S')
    (hb : Follows Action.Blurs fs s.bind (loopScopes S identifier) s'.bind
      (loopScopes S' identifier)) :
    Follows Action.Blurs (ds ++ es ++ fs)
      (forLoop forKeyword identifier equals e toKeyword upper s).bind S
      (forLoop forKeyword identifier equals e' toKeyword upper' s').bind S' := by
  intro hf
  rw [found_forLoop, List.append_eq_nil_iff, List.append_eq_nil_iff] at hf
  obtain ⟨⟨hlf, huf⟩, hbf⟩ := hf
  rw [found_forLoop, (Expression.follows_bindTyped_of .int hl hlf).1,
    (Expression.follows_bindTyped_of .int hu huf).1, (hb hbf).1, result_forLoop, result_forLoop]
  exact ⟨rfl, .nil⟩

theorem follows_expression_of (he : Follows Term.Blurs ds e.bind S e'.bind S') :
    Follows Action.Blurs ds (expression e).bind S (expression e').bind S' := by
  rw [bind, bind, ← List.append_nil ds]
  exact he.bind_reads fun _ _ _ => follows_pure .nil

theorem follows_block_of (openBrace closeBrace : Token)
    (hs : Follows Action.BlursAll ds (bindAll ss) S.push (bindAll ss') S'.push) :
    Follows Action.Blurs ds (block openBrace ss closeBrace).bind S
      (block openBrace ss' closeBrace).bind S' := by
  intro hf
  simp only [bind, found_bind, found_inNewScope, found_pure, List.append_nil] at hf
  simp only [bind, found_bind, found_inNewScope, found_pure, List.append_nil, (hs hf).1,
    result_bind, result_pure]
  exact ⟨trivial, .nil⟩

theorem follows_cons_of (hs : Follows Action.Blurs ds s.bind S s'.bind S')
    (hr : (s.bind.result S).Blurs (s'.bind.result S') →
      Follows Action.BlursAll es (bindAll ss) (s.bind.scopesAfter S) (bindAll ss')
        (s'.bind.scopesAfter S')) :
    Follows Action.BlursAll (ds ++ es) (bindAll (s :: ss)) S (bindAll (s' :: ss')) S' := by
  rw [bindAll, bindAll, ← List.append_nil es]
  exact hs.bind fun _ ha => (hr ha).bind fun _ hb => follows_pure (List.rel_append ha hb)

end Statement

mutual

/-- A statement without faults has none where some types have become errors. -/
theorem Statement.follows_bind {S S' : ScopeChain} (h : S.Blurs S') : (s : Statement) →
    Follows Action.Blurs [] s.bind S s.bind S'
  | .block openBrace statements closeBrace =>
    Statement.follows_block_of openBrace closeBrace
      (Statement.follows_bindAll (h.push _) statements)
  | .declaration keyword identifier clause equals initializer =>
    Statement.follows_declaration_of h keyword identifier clause equals (initializer.follows_bind h)
  | .ifThen ifKeyword condition thenStatement =>
    Statement.follows_ifThen_of ifKeyword (condition.follows_bind h) (thenStatement.follows_bind h)
  | .ifThenElse ifKeyword condition thenStatement elseKeyword elseStatement =>
    Statement.follows_ifThenElse_of ifKeyword elseKeyword (condition.follows_bind h)
      (thenStatement.follows_bind h) fun ht => elseStatement.follows_bind (h.scopesAfter_bind ht)
  | .whileLoop whileKeyword condition body =>
    Statement.follows_whileLoop_of whileKeyword (condition.follows_bind h) (body.follows_bind h)
  | .forLoop forKeyword identifier equals lower toKeyword upper body =>
    Statement.follows_forLoop_of forKeyword identifier equals toKeyword (lower.follows_bind h)
      (upper.follows_bind h) (body.follows_bind (h.loopScopes identifier))
  | .expression inner => Statement.follows_expression_of (inner.follows_bind h)

theorem Statement.follows_bindAll {S S' : ScopeChain} (h : S.Blurs S') : (ss : List Statement) →
    Follows Action.BlursAll [] (Statement.bindAll ss) S (Statement.bindAll ss) S'
  | [] => by
    rw [Statement.bindAll]
    exact follows_pure .nil
  | s :: rest =>
    Statement.follows_cons_of (s.follows_bind h) fun hs =>
      Statement.follows_bindAll (h.scopesAfter_bind hs) rest

end

end ScalarScript
