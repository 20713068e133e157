import ScalarScript.Proofs.Binding.Meaning
import ScalarScript.Proofs.Scope.Stack

/-!
What a statement does to the scopes. Each declaration and each loop over a range uses up one id, in
the order of the text. Of the variables declared, those in blocks and loops over ranges are gone
afterwards; the others are entered into the scope around the statement, as far as their names are
not taken.
-/

set_option autoImplicit false

namespace ScalarScript

open Binder

mutual

def Statement.declarations : Statement → List Token
  | .block _ statements _ => Statement.declarationsAll statements
  | .declaration _ identifier _ _ _ => [identifier]
  | .ifThen _ _ thenStatement => thenStatement.declarations
  | .ifThenElse _ _ thenStatement _ elseStatement =>
    thenStatement.declarations ++ elseStatement.declarations
  | .whileLoop _ _ body => body.declarations
  | .forLoop _ identifier _ _ _ _ body => identifier :: body.declarations
  | .expression _ => []

def Statement.declarationsAll : List Statement → List Token
  | [] => []
  | s :: rest => s.declarations ++ Statement.declarationsAll rest

end

mutual

def Action.declared : Action → List Variable
  | .block actions => Action.declaredAll actions
  | .declaration v _ => [v]
  | .ifThen _ thenAction => thenAction.declared
  | .ifThenElse _ thenAction elseAction => thenAction.declared ++ elseAction.declared
  | .whileLoop _ body => body.declared
  | .forLoop v _ _ body => v :: body.declared
  | .expression _ => []

def Action.declaredAll : List Action → List Variable
  | [] => []
  | a :: rest => a.declared ++ Action.declaredAll rest

end

mutual

/-- The variables that an action declares in the scope around it. -/
def Action.leaked : Action → List Variable
  | .block _ => []
  | .declaration v _ => [v]
  | .ifThen _ thenAction => thenAction.leaked
  | .ifThenElse _ thenAction elseAction => thenAction.leaked ++ elseAction.leaked
  | .whileLoop _ body => body.leaked
  | .forLoop _ _ _ _ => []
  | .expression _ => []

def Action.leakedAll : List Action → List Variable
  | [] => []
  | a :: rest => a.leaked ++ Action.leakedAll rest

end

instance (e : Expression) : Reads e.bind := e.reads_bind

instance (es : List Expression) : Reads (Expression.bindAll es) := Expression.reads_bindAll es

instance (e : Expression) (target : Ty) : Reads (e.bindTyped target) :=
  inferInstanceAs (Reads (e.bindValue >>= fun term => do
    requireType e.span term.type target; return term))

namespace Binder

variable {α : Type} (x : Binder α) [Additive x] (scopes : ScopeChain)

instance : Additive (inNewScope x) :=
  inferInstanceAs (Additive (inScopes ScopeChain.push >>= fun _ => x >>= fun result =>
    inScopes ScopeChain.pop >>= fun _ => pure result))

@[simp] theorem result_inNewScope : (inNewScope x).result scopes = x.result scopes.push := by
  unfold inNewScope
  simp

@[simp] theorem found_inNewScope : (inNewScope x).found scopes = x.found scopes.push := by
  unfold inNewScope
  simp

@[simp] theorem scopesAfter_inNewScope :
    (inNewScope x).scopesAfter scopes = (x.scopesAfter scopes.push).pop := by
  unfold inNewScope
  simp

def declaration (identifier : Token) (initializer : Term) : Except Variable Variable → Binder Action
  | .ok v => return .declaration v initializer
  | .error v => do
    if !identifier.isMissing then
      report identifier.span (.variableAlreadyDeclared identifier.text)
    return .declaration v initializer

def declarationFaults (identifier : Token) : Except Variable Variable → List Diagnostic
  | .ok _ => []
  | .error _ =>
    if identifier.isMissing then []
    else [⟨identifier.span, .variableAlreadyDeclared identifier.text⟩]

def attempted : Except Variable Variable → Variable
  | .ok v => v
  | .error v => v

theorem yields_declaration (identifier : Token) (initializer : Term)
    (declared : Except Variable Variable) :
    Yields (declaration identifier initializer declared)
      (fun _ => .declaration (attempted declared) initializer)
      (fun _ => declarationFaults identifier declared) where
  run_eq b := by
    cases declared with
    | ok v => simp [declaration, declarationFaults]; rfl
    | error v =>
      cases h : identifier.isMissing <;> simp [declaration, declarationFaults, h, report] <;> rfl

instance (identifier : Token) (initializer : Term) (declared : Except Variable Variable) :
    Reads (declaration identifier initializer declared) :=
  (yields_declaration identifier initializer declared).reads

end Binder

namespace Statement

theorem bind_declaration (keyword identifier : Token) (clause : Option TypeClause) (equals : Token)
    (initializer : Expression) :
    (declaration keyword identifier clause equals initializer).bind = (do
      let term ← initializer.bindValue
      let declared ← Binder.declare identifier.text (keyword.kind == .letKeyword) term.type
      Binder.declaration identifier term declared) := by
  rw [bind]
  congr 1

theorem bind_forLoop (forKeyword identifier equals : Token) (lower : Expression)
    (toKeyword : Token) (upper : Expression) (body : Statement) :
    (forLoop forKeyword identifier equals lower toKeyword upper body).bind = (do
      let lower ← lower.bindTyped .int
      let upper ← upper.bindTyped .int
      inNewScope do
        let declared ← Binder.declare identifier.text true .int
        let action ← body.bind
        return .forLoop (attempted declared) lower upper action) := by
  rw [bind]
  congr 1

end Statement

mutual

theorem Statement.additive_bind : (s : Statement) → Additive s.bind
  | .block _ statements _ => by
    have := Statement.additive_bindAll statements
    rw [Statement.bind]
    infer_instance
  | .declaration keyword identifier clause equals initializer => by
    rw [Statement.bind_declaration]
    infer_instance
  | .ifThen _ condition thenStatement => by
    have := thenStatement.additive_bind
    rw [Statement.bind]
    infer_instance
  | .ifThenElse _ condition thenStatement _ elseStatement => by
    have := thenStatement.additive_bind
    have := elseStatement.additive_bind
    rw [Statement.bind]
    infer_instance
  | .whileLoop _ condition body => by
    have := body.additive_bind
    rw [Statement.bind]
    infer_instance
  | .forLoop _ identifier _ lower _ upper body => by
    have := body.additive_bind
    rw [Statement.bind_forLoop]
    infer_instance
  | .expression inner => by
    rw [Statement.bind]
    infer_instance

theorem Statement.additive_bindAll : (ss : List Statement) → Additive (Statement.bindAll ss)
  | [] => by
    rw [Statement.bindAll]
    infer_instance
  | s :: rest => by
    have := s.additive_bind
    have := Statement.additive_bindAll rest
    rw [Statement.bindAll]
    infer_instance

end

instance (s : Statement) : Additive s.bind := s.additive_bind

instance (ss : List Statement) : Additive (Statement.bindAll ss) := Statement.additive_bindAll ss

@[simp] theorem attempted_declare (scopes : ScopeChain) (name : String) (isReadOnly : Bool)
    (type : Ty) :
    attempted (scopes.declare name isReadOnly type).1 = scopes.fresh name isReadOnly type := by
  rw [ScopeChain.declare_eq]
  dsimp only
  split <;> rfl

@[simp] theorem declare_snd (scopes : ScopeChain) (name : String) (isReadOnly : Bool) (type : Ty) :
    (scopes.declare name isReadOnly type).2 =
      (scopes.enter (scopes.fresh name isReadOnly type)).advance 1 := by
  rw [ScopeChain.declare_eq]

@[simp] theorem fresh_push (scopes : ScopeChain) (name : String) (isReadOnly : Bool) (type : Ty) :
    scopes.push.fresh name isReadOnly type = scopes.fresh name isReadOnly type := rfl

section Parts

variable (scopes : ScopeChain)

theorem Expression.result_bindTyped (e : Expression) (target : Ty) :
    (e.bindTyped target).result scopes = e.bindValue.result scopes := by
  simp [Expression.bindTyped]

theorem Expression.found_bindTyped (e : Expression) (target : Ty) :
    (e.bindTyped target).found scopes =
      e.bindValue.found scopes ++
        if Clash (e.bindValue.result scopes).type target then
          [⟨e.span, .cannotConvert (e.bindValue.result scopes).type.name target.name⟩]
        else [] := by
  simp [Expression.bindTyped, (yields_requireType _ _ _).found_eq]

namespace Statement

variable (keyword identifier : Token) (clause : Option TypeClause) (equals : Token)
  (initializer : Expression)

theorem result_declaration :
    (declaration keyword identifier clause equals initializer).bind.result scopes =
      .declaration
        (scopes.fresh identifier.text (keyword.kind == .letKeyword)
          (initializer.bindValue.result scopes).type)
        (initializer.bindValue.result scopes) := by
  simp [bind_declaration, (yields_declaration _ _ _).result_eq]

theorem found_declaration :
    (declaration keyword identifier clause equals initializer).bind.found scopes =
      initializer.bindValue.found scopes ++
        declarationFaults identifier
          (scopes.declare identifier.text (keyword.kind == .letKeyword)
            (initializer.bindValue.result scopes).type).1 := by
  simp [bind_declaration, (yields_declaration _ _ _).found_eq]

theorem scopesAfter_declaration :
    (declaration keyword identifier clause equals initializer).bind.scopesAfter scopes =
      (scopes.enter (scopes.fresh identifier.text (keyword.kind == .letKeyword)
        (initializer.bindValue.result scopes).type)).advance 1 := by
  simp [bind_declaration]

def loopScopes (scopes : ScopeChain) (identifier : Token) : ScopeChain :=
  (scopes.push.enter (scopes.fresh identifier.text true .int)).advance 1

variable (forKeyword toKeyword : Token) (lower upper : Expression) (body : Statement)

theorem result_forLoop :
    (forLoop forKeyword identifier equals lower toKeyword upper body).bind.result scopes =
      .forLoop (scopes.fresh identifier.text true .int) (lower.bindValue.result scopes)
        (upper.bindValue.result scopes) (body.bind.result (loopScopes scopes identifier)) := by
  simp [bind_forLoop, Expression.result_bindTyped, loopScopes]

theorem found_forLoop :
    (forLoop forKeyword identifier equals lower toKeyword upper body).bind.found scopes =
      (lower.bindTyped .int).found scopes ++ (upper.bindTyped .int).found scopes ++
        body.bind.found (loopScopes scopes identifier) := by
  simp [bind_forLoop, loopScopes]

theorem scopesAfter_forLoop :
    (forLoop forKeyword identifier equals lower toKeyword upper body).bind.scopesAfter scopes =
      (body.bind.scopesAfter (loopScopes scopes identifier)).pop := by
  simp [bind_forLoop, loopScopes]

end Statement

end Parts

theorem loopScopes_eq (scopes : ScopeChain) (identifier : Token) :
    Statement.loopScopes scopes identifier =
      (scopes.push.enterAll [scopes.fresh identifier.text true .int]).advance 1 := rfl

theorem enterAll_enterAll_advance (scopes : ScopeChain) (vs ws : List Variable) (m n : Nat) :
    (((scopes.enterAll vs).advance m).enterAll ws).advance n =
      (scopes.enterAll (vs ++ ws)).advance (m + n) := by
  rw [ScopeChain.enterAll_advance, ScopeChain.advance_advance, ScopeChain.enterAll_append]

mutual

/-- What a statement does to the scopes: it uses up its ids and enters what leaks out of it. -/
theorem Statement.scopesAfter_bind (scopes : ScopeChain) : (s : Statement) →
    s.bind.scopesAfter scopes =
      (scopes.enterAll (s.bind.result scopes).leaked).advance s.declarations.length
  | .block _ statements _ => by
    have ih := Statement.scopesAfter_bindAll scopes.push statements
    simp [Statement.bind, Action.leaked, Statement.declarations, ih, ScopeChain.pop_enterAll_push]
  | .declaration keyword identifier clause equals initializer => by
    rw [Statement.scopesAfter_declaration, Statement.result_declaration]
    rfl
  | .ifThen _ condition thenStatement => by
    have ih := thenStatement.scopesAfter_bind scopes
    simp [Statement.bind, Action.leaked, Statement.declarations, ih]
  | .ifThenElse _ condition thenStatement _ elseStatement => by
    have ht := thenStatement.scopesAfter_bind scopes
    have he := elseStatement.scopesAfter_bind (thenStatement.bind.scopesAfter scopes)
    rw [ht] at he
    simp [Statement.bind, Action.leaked, Statement.declarations, ht, he,
      enterAll_enterAll_advance]
  | .whileLoop _ condition body => by
    have ih := body.scopesAfter_bind scopes
    simp [Statement.bind, Action.leaked, Statement.declarations, ih]
  | .forLoop _ identifier _ lower _ upper body => by
    have ih := body.scopesAfter_bind (Statement.loopScopes scopes identifier)
    rw [Statement.scopesAfter_forLoop, Statement.result_forLoop, ih, loopScopes_eq,
      enterAll_enterAll_advance, ScopeChain.pop_enterAll_push, Nat.add_comm]
    rfl
  | .expression inner => by
    simp [Statement.bind, Action.leaked, Statement.declarations]

theorem Statement.scopesAfter_bindAll (scopes : ScopeChain) : (ss : List Statement) →
    (Statement.bindAll ss).scopesAfter scopes =
      (scopes.enterAll (Action.leakedAll ((Statement.bindAll ss).result scopes))).advance
        (Statement.declarationsAll ss).length
  | [] => by
    simp [Statement.bindAll, Action.leakedAll, Statement.declarationsAll]
  | s :: rest => by
    have hs := s.scopesAfter_bind scopes
    have hr := Statement.scopesAfter_bindAll (s.bind.scopesAfter scopes) rest
    rw [hs] at hr
    simp [Statement.bindAll, Action.leakedAll, Statement.declarationsAll, hs, hr,
      enterAll_enterAll_advance]

end

def Numbered (scopes : ScopeChain) (names : List Token) (vs : List Variable) : Prop :=
  vs.map Variable.id = (List.range' scopes.nextIndex names.length).map (⟨scopes.fragment, ·⟩) ∧
    vs.map Variable.name = names.map Token.text

theorem Numbered.append {scopes : ScopeChain} {names more : List Token} {vs ws us : List Variable}
    (hv : Numbered scopes names vs)
    (hw : Numbered ((scopes.enterAll us).advance names.length) more ws) :
    Numbered scopes (names ++ more) (vs ++ ws) := by
  obtain ⟨hvi, hvn⟩ := hv
  obtain ⟨hwi, hwn⟩ := hw
  simp only [ScopeChain.advance, ScopeChain.nextIndex_enterAll, ScopeChain.fragment_enterAll] at hwi
  refine ⟨?_, by simp [hvn, hwn]⟩
  rw [List.map_append, hvi, hwi, List.length_append, ← List.map_append, List.range'_append_1]

theorem Numbered.id_of_mem {scopes : ScopeChain} {names : List Token} {vs : List Variable}
    (h : Numbered scopes names vs) {v : Variable} (hv : v ∈ vs) :
    v.id.fragment = scopes.fragment ∧ scopes.nextIndex ≤ v.id.index ∧
      v.id.index < scopes.nextIndex + names.length := by
  have hid : v.id ∈ vs.map Variable.id := List.mem_map_of_mem hv
  rw [h.1] at hid
  obtain ⟨index, hindex, heq⟩ := List.mem_map.mp hid
  rw [← heq]
  exact ⟨rfl, List.mem_range'_1.mp hindex⟩

theorem Numbered.ascending {scopes : ScopeChain} {names : List Token} {vs : List Variable}
    (h : Numbered scopes names vs) : vs.Pairwise fun v w => v.id.index < w.id.index := by
  have hindices : vs.map (fun v => v.id.index) =
      List.range' scopes.nextIndex names.length := by
    have hids := congrArg (List.map SymbolId.index) h.1
    simpa [Function.comp_def] using hids
  have hascend := List.pairwise_lt_range' (s := scopes.nextIndex) (n := names.length)
  rwa [← hindices, List.pairwise_map] at hascend

theorem numbered_fresh (scopes : ScopeChain) (identifier : Token) (isReadOnly : Bool) (type : Ty) :
    Numbered scopes [identifier] [scopes.fresh identifier.text isReadOnly type] := ⟨rfl, rfl⟩

mutual

theorem Statement.numbered_declared (scopes : ScopeChain) : (s : Statement) →
    Numbered scopes s.declarations (s.bind.result scopes).declared
  | .block _ statements _ => by
    have ih : Numbered scopes _ _ := Statement.numbered_declaredAll scopes.push statements
    simpa [Statement.bind, Action.declared, Statement.declarations] using ih
  | .declaration keyword identifier clause equals initializer => by
    rw [Statement.result_declaration]
    exact numbered_fresh ..
  | .ifThen _ condition thenStatement => by
    have ih := thenStatement.numbered_declared scopes
    simpa [Statement.bind, Action.declared, Statement.declarations] using ih
  | .ifThenElse _ condition thenStatement _ elseStatement => by
    have ht := thenStatement.numbered_declared scopes
    have he := elseStatement.numbered_declared (thenStatement.bind.scopesAfter scopes)
    rw [thenStatement.scopesAfter_bind] at he
    have h := ht.append he
    simpa [Statement.bind, Action.declared, Statement.declarations,
      thenStatement.scopesAfter_bind] using h
  | .whileLoop _ condition body => by
    have ih := body.numbered_declared scopes
    simpa [Statement.bind, Action.declared, Statement.declarations] using ih
  | .forLoop _ identifier _ lower _ upper body => by
    have ih : Numbered
        ((scopes.push.enterAll [scopes.fresh identifier.text true .int]).advance 1) _ _ :=
      body.numbered_declared (Statement.loopScopes scopes identifier)
    rw [Statement.result_forLoop]
    exact (numbered_fresh scopes.push identifier true .int).append ih
  | .expression inner => by
    simp [Statement.bind, Action.declared, Statement.declarations, Numbered]

theorem Statement.numbered_declaredAll (scopes : ScopeChain) : (ss : List Statement) →
    Numbered scopes (Statement.declarationsAll ss)
      (Action.declaredAll ((Statement.bindAll ss).result scopes))
  | [] => by
    simp [Statement.bindAll, Action.declaredAll, Statement.declarationsAll, Numbered]
  | s :: rest => by
    have hs := s.numbered_declared scopes
    have hr := Statement.numbered_declaredAll (s.bind.scopesAfter scopes) rest
    rw [s.scopesAfter_bind] at hr
    have h := hs.append hr
    simpa [Statement.bindAll, Action.declaredAll, Statement.declarationsAll,
      s.scopesAfter_bind] using h

end

mutual

theorem Action.leaked_sublist_declared : (a : Action) → a.leaked.Sublist a.declared
  | .block _ => List.nil_sublist _
  | .declaration _ _ => List.Sublist.refl _
  | .ifThen _ thenAction => thenAction.leaked_sublist_declared
  | .ifThenElse _ thenAction elseAction =>
    thenAction.leaked_sublist_declared.append elseAction.leaked_sublist_declared
  | .whileLoop _ body => body.leaked_sublist_declared
  | .forLoop _ _ _ _ => List.nil_sublist _
  | .expression _ => List.nil_sublist _

theorem Action.leakedAll_sublist_declaredAll : (actions : List Action) →
    (Action.leakedAll actions).Sublist (Action.declaredAll actions)
  | [] => List.nil_sublist _
  | a :: rest =>
    a.leaked_sublist_declared.append (Action.leakedAll_sublist_declaredAll rest)

end

end ScalarScript
