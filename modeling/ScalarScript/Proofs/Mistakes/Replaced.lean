import ScalarScript.Proofs.Mistakes.Actions
import ScalarScript.Proofs.Binding.Snapshots

/-!
One mistake is noted once. In a fragment without faults one expression, wherever it stands, is
replaced by a name that stands for nothing; then this name is all that is noted.
-/

set_option autoImplicit false

namespace ScalarScript

open Binder

inductive Expression.Replaced (t : Token) : Expression → Expression → Prop where
  | here (e : Expression) : Replaced t e (.name t)
  | unary (operator : Token) {e e' : Expression} (h : Replaced t e e') :
      Replaced t (.unary operator e) (.unary operator e')
  | binaryLeft {e e' : Expression} (h : Replaced t e e') (operator : Token) (right : Expression) :
      Replaced t (.binary e operator right) (.binary e' operator right)
  | binaryRight (left : Expression) (operator : Token) {e e' : Expression} (h : Replaced t e e') :
      Replaced t (.binary left operator e) (.binary left operator e')
  | parenthesized (openParen : Token) {e e' : Expression} (h : Replaced t e e')
      (closeParen : Token) :
      Replaced t (.parenthesized openParen e closeParen) (.parenthesized openParen e' closeParen)
  | assignment (identifier equals : Token) {e e' : Expression} (h : Replaced t e e') :
      Replaced t (.assignment identifier equals e) (.assignment identifier equals e')
  | call (identifier openParen : Token) (before : List Expression) {e e' : Expression}
      (h : Replaced t e e') (after : List Expression) (closeParen : Token) :
      Replaced t (.call identifier openParen (before ++ e :: after) closeParen)
        (.call identifier openParen (before ++ e' :: after) closeParen)

inductive Statement.Replaced (t : Token) : Statement → Statement → Prop where
  | block (openBrace : Token) (before : List Statement) {s s' : Statement} (h : Replaced t s s')
      (after : List Statement) (closeBrace : Token) :
      Replaced t (.block openBrace (before ++ s :: after) closeBrace)
        (.block openBrace (before ++ s' :: after) closeBrace)
  | declaration (keyword identifier : Token) (clause : Option TypeClause) (equals : Token)
      {e e' : Expression} (h : e.Replaced t e') :
      Replaced t (.declaration keyword identifier clause equals e)
        (.declaration keyword identifier clause equals e')
  | ifThenCondition (ifKeyword : Token) {e e' : Expression} (h : e.Replaced t e')
      (thenStatement : Statement) :
      Replaced t (.ifThen ifKeyword e thenStatement) (.ifThen ifKeyword e' thenStatement)
  | ifThenBody (ifKeyword : Token) (condition : Expression) {s s' : Statement}
      (h : Replaced t s s') :
      Replaced t (.ifThen ifKeyword condition s) (.ifThen ifKeyword condition s')
  | ifThenElseCondition (ifKeyword : Token) {e e' : Expression} (h : e.Replaced t e')
      (thenStatement : Statement) (elseKeyword : Token) (elseStatement : Statement) :
      Replaced t (.ifThenElse ifKeyword e thenStatement elseKeyword elseStatement)
        (.ifThenElse ifKeyword e' thenStatement elseKeyword elseStatement)
  | ifThenElseThen (ifKeyword : Token) (condition : Expression) {s s' : Statement}
      (h : Replaced t s s') (elseKeyword : Token) (elseStatement : Statement) :
      Replaced t (.ifThenElse ifKeyword condition s elseKeyword elseStatement)
        (.ifThenElse ifKeyword condition s' elseKeyword elseStatement)
  | ifThenElseElse (ifKeyword : Token) (condition : Expression) (thenStatement : Statement)
      (elseKeyword : Token) {s s' : Statement} (h : Replaced t s s') :
      Replaced t (.ifThenElse ifKeyword condition thenStatement elseKeyword s)
        (.ifThenElse ifKeyword condition thenStatement elseKeyword s')
  | whileCondition (whileKeyword : Token) {e e' : Expression} (h : e.Replaced t e')
      (body : Statement) :
      Replaced t (.whileLoop whileKeyword e body) (.whileLoop whileKeyword e' body)
  | whileBody (whileKeyword : Token) (condition : Expression) {s s' : Statement}
      (h : Replaced t s s') :
      Replaced t (.whileLoop whileKeyword condition s) (.whileLoop whileKeyword condition s')
  | forLower (forKeyword identifier equals : Token) {e e' : Expression} (h : e.Replaced t e')
      (toKeyword : Token) (upper : Expression) (body : Statement) :
      Replaced t (.forLoop forKeyword identifier equals e toKeyword upper body)
        (.forLoop forKeyword identifier equals e' toKeyword upper body)
  | forUpper (forKeyword identifier equals : Token) (lower : Expression) (toKeyword : Token)
      {e e' : Expression} (h : e.Replaced t e') (body : Statement) :
      Replaced t (.forLoop forKeyword identifier equals lower toKeyword e body)
        (.forLoop forKeyword identifier equals lower toKeyword e' body)
  | forBody (forKeyword identifier equals : Token) (lower : Expression) (toKeyword : Token)
      (upper : Expression) {s s' : Statement} (h : Replaced t s s') :
      Replaced t (.forLoop forKeyword identifier equals lower toKeyword upper s)
        (.forLoop forKeyword identifier equals lower toKeyword upper s')
  | expression {e e' : Expression} (h : e.Replaced t e') :
      Replaced t (.expression e) (.expression e')

def Token.undefined (t : Token) : Diagnostic := ⟨t.span, .undefinedName t.text⟩

variable {t : Token} {S : ScopeChain}

theorem follows_undefined (ht : t.isMissing = false) (hidden : S.variableNamed? t.text = none)
    (x : Binder Term) : Follows Term.Blurs [t.undefined] x S (name t) S := by
  intro _
  rw [(yields_name t).found_eq, (yields_name t).result_eq]
  simp only [ht, hidden]
  exact ⟨rfl, .inr rfl⟩

theorem Expression.follows_insert {e e' : Expression} {ds : List Diagnostic}
    (h : Follows Term.Blurs ds e.bind S e'.bind S) (before after : List Expression) :
    Follows ArgumentsBlur ds (bindAll (before ++ e :: after)) S
      (bindAll (before ++ e' :: after)) S := by
  have hS := ScopeChain.Blurs.refl S
  induction before with
  | nil => simpa using Expression.follows_cons_of h (Expression.follows_bindAll hS after)
  | cons first before ih => exact Expression.follows_cons_of (first.follows_bind hS) ih

theorem Expression.Replaced.follows (ht : t.isMissing = false)
    (hidden : S.variableNamed? t.text = none) {e e' : Expression} (h : e.Replaced t e') :
    Follows Term.Blurs [t.undefined] e.bind S e'.bind S := by
  have hS := ScopeChain.Blurs.refl S
  induction h with
  | here e =>
    rw [Expression.bind]
    exact follows_undefined ht hidden e.bind
  | unary operator h ih => exact Expression.follows_unary_of operator ih
  | binaryLeft h operator right ih =>
    exact Expression.follows_binary_of operator ih (right.follows_bind hS)
  | binaryRight left operator h ih =>
    exact Expression.follows_binary_of operator (left.follows_bind hS) ih
  | parenthesized openParen h closeParen ih =>
    rw [Expression.bind, Expression.bind]
    exact ih
  | assignment identifier equals h ih => exact Expression.follows_assignment_of hS identifier equals ih
  | call identifier openParen before h after closeParen ih =>
    exact Expression.follows_call_of hS identifier openParen closeParen
      (Expression.follows_insert ih before after)

def ScopeChain.Hides (S : ScopeChain) (t : Token) : Prop := S.Each fun v => v.name ≠ t.text

theorem ScopeChain.Hides.variableNamed? (h : S.Hides t) : S.variableNamed? t.text = none := by
  cases hv : S.variableNamed? t.text with
  | none => rfl
  | some v =>
    have hname := Each.of_variableNamed? h hv
    exact absurd hname.2 hname.1

theorem Numbered.exists_token {names : List Token} {vs : List Variable} (h : Numbered S names vs)
    {v : Variable} (hv : v ∈ vs) : ∃ d ∈ names, d.text = v.name :=
  List.mem_map.mp (h.2 ▸ List.mem_map_of_mem hv)

theorem ScopeChain.Hides.scopesAfter_bind (h : S.Hides t) {s : Statement}
    (hs : ∀ d ∈ s.declarations, d.text ≠ t.text) : (s.bind.scopesAfter S).Hides t := by
  rw [s.scopesAfter_bind]
  refine Each.advance (Each.enterAll h fun v hv => ?_) _
  have hdeclared := (Action.leaked_sublist_declared _).subset hv
  obtain ⟨d, hd, hname⟩ := (s.numbered_declared S).exists_token hdeclared
  exact hname ▸ hs d hd

theorem ScopeChain.Hides.loopScopes (h : S.Hides t) {identifier : Token}
    (hne : identifier.text ≠ t.text) : (Statement.loopScopes S identifier).Hides t := by
  rw [loopScopes_eq]
  exact Each.advance (Each.enterAll (Each.push h) fun v hv => by
    rw [List.mem_singleton.mp hv]
    exact hne) _

theorem Statement.follows_insert {s s' : Statement} {ds : List Diagnostic}
    (before after : List Statement) (hidden : S.Hides t)
    (hs : ∀ d ∈ Statement.declarationsAll (before ++ s :: after), d.text ≠ t.text)
    (h : ∀ S : ScopeChain, S.Hides t → Follows Action.Blurs ds s.bind S s'.bind S) :
    Follows Action.BlursAll ds (bindAll (before ++ s :: after)) S
      (bindAll (before ++ s' :: after)) S := by
  have hS := ScopeChain.Blurs.refl S
  induction before generalizing S with
  | nil =>
    have hall := Statement.follows_cons_of (h S hidden) fun ha =>
      Statement.follows_bindAll (hS.scopesAfter_bind ha) after
    simpa using hall
  | cons first before ih =>
    simp only [List.cons_append, Statement.declarationsAll, List.mem_append] at hs
    have hfirst := hidden.scopesAfter_bind fun d hd => hs d (.inl hd)
    exact Statement.follows_cons_of (first.follows_bind hS) fun _ =>
      ih hfirst (fun d hd => hs d (.inr hd)) (ScopeChain.Blurs.refl _)

theorem Statement.mem_declarationsAll {d : Token} {s : Statement} {ss : List Statement}
    (hs : s ∈ ss) (hd : d ∈ s.declarations) : d ∈ Statement.declarationsAll ss := by
  induction ss with
  | nil => cases hs
  | cons first rest ih =>
    simp only [Statement.declarationsAll, List.mem_append]
    rcases List.mem_cons.mp hs with rfl | hs
    · exact .inl hd
    · exact .inr (ih hs)

theorem Statement.Replaced.follows (ht : t.isMissing = false) {s s' : Statement}
    (h : s.Replaced t s') (hidden : S.Hides t) (hs : ∀ d ∈ s.declarations, d.text ≠ t.text) :
    Follows Action.Blurs [t.undefined] s.bind S s'.bind S := by
  have same (S : ScopeChain) : S.Blurs S := ScopeChain.Blurs.refl S
  induction h generalizing S with
  | @block openBrace before s s' h after closeBrace ih =>
    refine Statement.follows_block_of openBrace closeBrace
      (Statement.follows_insert before after hidden.push hs fun S' hidden' => ih hidden' ?_)
    exact fun d hd => hs d (Statement.mem_declarationsAll (by simp) hd)
  | declaration keyword identifier clause equals h =>
    exact Statement.follows_declaration_of (same S) keyword identifier clause equals
      (h.follows ht hidden.variableNamed?)
  | ifThenCondition ifKeyword h thenStatement =>
    exact Statement.follows_ifThen_of ifKeyword (h.follows ht hidden.variableNamed?)
      (thenStatement.follows_bind (same S))
  | ifThenBody ifKeyword condition h ih =>
    exact Statement.follows_ifThen_of ifKeyword (condition.follows_bind (same S)) (ih hidden hs)
  | ifThenElseCondition ifKeyword h thenStatement elseKeyword elseStatement =>
    exact Statement.follows_ifThenElse_of ifKeyword elseKeyword
      (h.follows ht hidden.variableNamed?) (thenStatement.follows_bind (same S))
      fun _ => elseStatement.follows_bind (same _)
  | ifThenElseThen ifKeyword condition h elseKeyword elseStatement ih =>
    have hthen := ih hidden fun d hd => hs d (List.mem_append_left _ hd)
    exact Statement.follows_ifThenElse_of ifKeyword elseKeyword (condition.follows_bind (same S))
      hthen fun hblurs => elseStatement.follows_bind ((same S).scopesAfter_bind hblurs)
  | ifThenElseElse ifKeyword condition thenStatement elseKeyword h ih =>
    have hidden' := hidden.scopesAfter_bind fun d hd => hs d (List.mem_append_left _ hd)
    exact Statement.follows_ifThenElse_of ifKeyword elseKeyword (condition.follows_bind (same S))
      (thenStatement.follows_bind (same S))
      fun _ => ih hidden' fun d hd => hs d (List.mem_append_right _ hd)
  | whileCondition whileKeyword h body =>
    exact Statement.follows_whileLoop_of whileKeyword (h.follows ht hidden.variableNamed?)
      (body.follows_bind (same S))
  | whileBody whileKeyword condition h ih =>
    exact Statement.follows_whileLoop_of whileKeyword (condition.follows_bind (same S))
      (ih hidden hs)
  | forLower forKeyword identifier equals h toKeyword upper body =>
    exact Statement.follows_forLoop_of forKeyword identifier equals toKeyword
      (h.follows ht hidden.variableNamed?) (upper.follows_bind (same S))
      (body.follows_bind (same _))
  | forUpper forKeyword identifier equals lower toKeyword h body =>
    exact Statement.follows_forLoop_of forKeyword identifier equals toKeyword
      (lower.follows_bind (same S)) (h.follows ht hidden.variableNamed?)
      (body.follows_bind (same _))
  | forBody forKeyword identifier equals lower toKeyword upper h ih =>
    have hidden' := hidden.loopScopes (hs _ (List.mem_cons_self ..))
    exact Statement.follows_forLoop_of forKeyword identifier equals toKeyword
      (lower.follows_bind (same S)) (upper.follows_bind (same S))
      (ih hidden' fun d hd => hs d (List.mem_cons_of_mem _ hd))
  | expression h => exact Statement.follows_expression_of (h.follows ht hidden.variableNamed?)

/-- Where a fragment has no fault after fragments without faults, and an expression in it is
replaced by a name that they do not export and it does not declare, the name is noted and nothing
else. -/
theorem Snapshot.bind_replaced {earlier : List Snapshot} {tree : Tree} {t : Token} {s : Statement}
    (faultless : (bind earlier tree).diagnostics = []) (ht : t.isMissing = false)
    (notExported : ∀ snapshot ∈ earlier, ∀ v ∈ snapshot.exported, v.name ≠ t.text)
    (notDeclared : ∀ d ∈ tree.statement.declarations, d.text ≠ t.text)
    (replaced : tree.statement.Replaced t s) :
    (bind earlier { tree with statement := s }).diagnostics =
      [⟨t.span, .undefinedName t.text⟩] := by
  rw [diagnostics_bind, List.append_eq_nil_iff] at faultless
  obtain ⟨hbefore, hfound⟩ := faultless
  have hidden : (surroundings earlier).Hides t := each_surroundings notExported
  have hfollows := (replaced.follows ht hidden notDeclared hfound).1
  rw [diagnostics_bind, hbefore, List.nil_append]
  exact hfollows

def Statement.sumAfter (initializer : Expression) : Statement :=
  .block ⟨.openBrace, ⟨0, 1⟩, "\x7b"⟩
    [.declaration ⟨.letKeyword, ⟨2, 3⟩, "let"⟩ ⟨.identifier, ⟨6, 1⟩, "a"⟩ none
      ⟨.equals, ⟨8, 1⟩, "="⟩ initializer,
    .expression (.binary (.name ⟨.identifier, ⟨12, 1⟩, "a"⟩) ⟨.plus, ⟨14, 1⟩, "+"⟩
      (.literal ⟨.number, ⟨16, 1⟩, "2"⟩ (.int 2)))]
    ⟨.closeBrace, ⟨18, 1⟩, "\x7d"⟩

theorem Snapshot.bind_replaced_initializer :
    (bind [] ⟨.sumAfter (.name ⟨.identifier, ⟨10, 1⟩, "b"⟩),
      ⟨.endOfFile, ⟨19, 0⟩, ""⟩⟩).diagnostics = [⟨⟨10, 1⟩, .undefinedName "b"⟩] := by
  have hreplaced : (Statement.sumAfter (.literal ⟨.number, ⟨10, 1⟩, "1"⟩ (.int 1))).Replaced
      ⟨.identifier, ⟨10, 1⟩, "b"⟩ (.sumAfter (.name ⟨.identifier, ⟨10, 1⟩, "b"⟩)) :=
    .block _ [] (.declaration _ _ _ _ (.here _)) _ _
  have hfaultless : (bind [] ⟨.sumAfter (.literal ⟨.number, ⟨10, 1⟩, "1"⟩ (.int 1)),
      ⟨.endOfFile, ⟨19, 0⟩, ""⟩⟩).diagnostics = [] := by rfl
  exact bind_replaced hfaultless (by decide) (by simp) (by decide) hreplaced

end ScalarScript
