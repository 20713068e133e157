import Mathlib.Logic.Relation
import ScalarScript.Proofs.Tree.Reading

/-!
The course that reading takes through any lexemes, with faults or without: which cursor each
expression and statement is read from, and which one is left behind it. The relation says nothing
of how long lists are nor of how much may still be nested, so that an induction over it has one case
for each production.
-/

set_option autoImplicit false

namespace ScalarScript

namespace Cursor

def start (c : Cursor) : Nat := c.current.token.span.start

def lacking (c : Cursor) (kind : TokenKind) : Cursor :=
  if c.abandoned then c
  else c.report ⟨c.current.token.span, .unexpectedToken c.kind.name kind.name⟩

def giveUp (c : Cursor) : Cursor :=
  if c.abandoned then c
  else
    { c.report ⟨c.current.token.span, .nestingTooDeep nestingLimit⟩ with
      ahead := [], abandoned := true }

def nothing (c : Cursor) : Expression := .name (.missing .identifier c.giveUp.start)

inductive Step : Cursor → Cursor → Prop where
  | advance (c : Cursor) : Step c c.advance
  | lacking (c : Cursor) (kind : TokenKind) : Step c (c.lacking kind)
  | giveUp (c : Cursor) : Step c c.giveUp

abbrev Steps : Cursor → Cursor → Prop := Relation.ReflTransGen Step

theorem Steps.keeps {P : Cursor → Prop} (hstep : ∀ c c', Step c c' → P c → P c') {c c' : Cursor}
    (h : Steps c c') (hc : P c) : P c' := by
  induction h with
  | refl => exact hc
  | tail _ h ih => exact hstep _ _ h ih

theorem steps_advance (c : Cursor) : Steps c c.advance := .single (.advance c)

theorem steps_giveUp (c : Cursor) : Steps c c.giveUp := .single (.giveUp c)

end Cursor

open Cursor (Steps steps_advance steps_giveUp)

inductive Token.Expected (kind : TokenKind) (c : Cursor) : Token → Cursor → Prop where
  | found (h : c.kind = kind) : Expected kind c c.current.token c.advance
  | missing (h : c.kind ≠ kind) : Expected kind c (.missing kind c.start) (c.lacking kind)

inductive Passage where
  | expression
  | operation (least : Precedence)
  | chain (least : Precedence) (left : Expression)
  | operand
  | primary

mutual

/-- The expression is read by the passage from the first cursor on, up to the second. -/
inductive Expression.Read : Passage → Cursor → Expression → Cursor → Prop where
  | tooDeep {p : Passage} (c : Cursor) (h : p = .expression ∨ p = .operand) :
    Read p c c.nothing c.giveUp
  | assignment {c c' : Cursor} {source : Expression} (hidentifier : c.kind = .identifier)
    (hequals : c.advance.kind = .equals) (h : Read .expression c.advance.advance source c') :
    Read .expression c (.assignment c.current.token c.advance.current.token source) c'
  | expression {c c' : Cursor} {e : Expression} (h : Read (.operation .lowest) c e c') :
    Read .expression c e c'
  | operation {least : Precedence} {c c' c'' : Cursor} {left e : Expression}
    (hleft : Read .operand c left c') (h : Read (.chain least left) c' e c'') :
    Read (.operation least) c e c''
  | done {least : Precedence} {left : Expression} {c : Cursor}
    (h : Grammar.operatorAbove? least c.kind = none) : Read (.chain least left) c left c
  | cut {least : Precedence} (left : Expression) (c : Cursor) :
    Read (.chain least left) c left c.giveUp
  | more {least p : Precedence} {left right e : Expression} {c c' c'' : Cursor}
    (hp : Grammar.operatorAbove? least c.kind = some p)
    (hright : Read (.operation p) c.advance right c')
    (h : Read (.chain least (.binary left c.current.token right)) c' e c'') :
    Read (.chain least left) c e c''
  | unary {p : Precedence} {c c' : Cursor} {operand : Expression}
    (hp : c.kind.unaryPrecedence? = some p) (h : Read (.operation p) c.advance operand c') :
    Read .operand c (.unary c.current.token operand) c'
  | primary {c c' : Cursor} {e : Expression} (h : Read .primary c e c') : Read .operand c e c'
  | parenthesized {c c' c'' : Cursor} {inner : Expression} {closeParen : Token}
    (hopen : c.kind = .openParen) (h : Read .expression c.advance inner c')
    (hclose : closeParen.Expected .closeParen c' c'') :
    Read .primary c (.parenthesized c.current.token inner closeParen) c''
  | literal {c : Cursor} (h : c.kind ≠ .endOfFile) (value : Value) :
    Read .primary c (.literal c.current.token value) c.advance
  | call {c c' c'' : Cursor} {arguments : List Expression} {closeParen : Token}
    (hidentifier : c.kind = .identifier) (hopen : c.advance.kind = .openParen)
    (h : Expression.ReadAll c.advance.advance arguments c')
    (hclose : closeParen.Expected .closeParen c' c'') :
    Read .primary c (.call c.current.token c.advance.current.token arguments closeParen) c''
  | name {c c' : Cursor} {identifier : Token} (h : identifier.Expected .identifier c c') :
    Read .primary c (.name identifier) c'

inductive Expression.ReadAll : Cursor → List Expression → Cursor → Prop where
  | nil (c : Cursor) : ReadAll c [] c
  | last {c c' : Cursor} {e : Expression} (h : Expression.Read .expression c e c') :
    ReadAll c [e] c'
  | cons {c c' c'' : Cursor} {e : Expression} {rest : List Expression}
    (h : Expression.Read .expression c e c') (hcomma : c'.kind = .comma)
    (hrest : ReadAll c'.advance rest c'') : ReadAll c (e :: rest) c''

end

inductive TypeClause.Read (c : Cursor) : Option TypeClause → Cursor → Prop where
  | none : Read c .none c
  | some {c' : Cursor} {identifier : Token} (hcolon : c.kind = .colon)
    (h : identifier.Expected .identifier c.advance c') :
    Read c (.some ⟨c.current.token, identifier⟩) c'

mutual

inductive Statement.Read : Cursor → Statement → Cursor → Prop where
  | block {c c' c'' : Cursor} {statements : List Statement} {closeBrace : Token}
    (hopen : c.kind = .openBrace) (h : Statement.ReadAll c.advance statements c')
    (hclose : closeBrace.Expected .closeBrace c' c'') :
    Read c (.block c.current.token statements closeBrace) c''
  | declaration {c c₁ c₂ c₃ c₄ : Cursor} {identifier equals : Token} {clause : Option TypeClause}
    {initializer : Expression} (hkeyword : c.kind = .letKeyword ∨ c.kind = .varKeyword)
    (hidentifier : identifier.Expected .identifier c.advance c₁)
    (hclause : TypeClause.Read c₁ clause c₂) (hequals : equals.Expected .equals c₂ c₃)
    (h : initializer.Read .expression c₃ c₄) :
    Read c (.declaration c.current.token identifier clause equals initializer) c₄
  | ifThen {c c₁ c₂ : Cursor} {condition : Expression} {thenStatement : Statement}
    (hif : c.kind = .ifKeyword) (hcondition : condition.Read .expression c.advance c₁)
    (hthen : Read c₁ thenStatement c₂) :
    Read c (.ifThen c.current.token condition thenStatement) c₂
  | ifThenElse {c c₁ c₂ c₃ : Cursor} {condition : Expression} {thenStatement other : Statement}
    (hif : c.kind = .ifKeyword) (hcondition : condition.Read .expression c.advance c₁)
    (hthen : Read c₁ thenStatement c₂) (helse : c₂.kind = .elseKeyword)
    (hother : Read c₂.advance other c₃) :
    Read c (.ifThenElse c.current.token condition thenStatement c₂.current.token other) c₃
  | whileLoop {c c₁ c₂ : Cursor} {condition : Expression} {body : Statement}
    (hwhile : c.kind = .whileKeyword) (hcondition : condition.Read .expression c.advance c₁)
    (hbody : Read c₁ body c₂) : Read c (.whileLoop c.current.token condition body) c₂
  | forLoop {c c₁ c₂ c₃ c₄ c₅ c₆ : Cursor} {identifier equals toKeyword : Token}
    {lower upper : Expression} {body : Statement} (hfor : c.kind = .forKeyword)
    (hidentifier : identifier.Expected .identifier c.advance c₁)
    (hequals : equals.Expected .equals c₁ c₂) (hlower : lower.Read .expression c₂ c₃)
    (hto : toKeyword.Expected .toKeyword c₃ c₄) (hupper : upper.Read .expression c₄ c₅)
    (hbody : Read c₅ body c₆) :
    Read c (.forLoop c.current.token identifier equals lower toKeyword upper body) c₆
  | expression {c c' : Cursor} {e : Expression} (h : e.Read .expression c c') :
    Read c (.expression e) c'

/-- The statements of a block are read from the first cursor on, up to the second; the lexeme behind
one of them can be left out. -/
inductive Statement.ReadAll : Cursor → List Statement → Cursor → Prop where
  | nil (c : Cursor) : ReadAll c [] c
  | cons {c c' c'' : Cursor} {first : Statement} {rest : List Statement}
    (h : Statement.Read c first c') (hrest : ReadAll c' rest c'') : ReadAll c (first :: rest) c''
  | skip {c c' c'' : Cursor} {first : Statement} {rest : List Statement}
    (h : Statement.Read c first c') (hrest : ReadAll c'.advance rest c'') :
    ReadAll c (first :: rest) c''

end

section Steps

theorem Token.Expected.steps {kind : TokenKind} {t : Token} {c c' : Cursor} :
    t.Expected kind c c' → Steps c c'
  | .found _ => steps_advance c
  | .missing _ => .single (.lacking c kind)

mutual

theorem Expression.Read.steps {p : Passage} {e : Expression} {c c' : Cursor} :
    e.Read p c c' → Steps c c'
  | .tooDeep c _ => steps_giveUp c
  | .assignment _ _ h => (steps_advance _).trans ((steps_advance _).trans h.steps)
  | .expression h => h.steps
  | .operation hleft h => hleft.steps.trans h.steps
  | .done _ => .refl
  | .cut _ c => steps_giveUp c
  | .more _ hright h => (steps_advance _).trans (hright.steps.trans h.steps)
  | .unary _ h => (steps_advance _).trans h.steps
  | .primary h => h.steps
  | .parenthesized _ h hclose => (steps_advance _).trans (h.steps.trans hclose.steps)
  | .literal _ _ => steps_advance _
  | .call _ _ h hclose =>
    (steps_advance _).trans ((steps_advance _).trans (h.steps.trans hclose.steps))
  | .name h => h.steps

theorem Expression.ReadAll.steps {es : List Expression} {c c' : Cursor} :
    ReadAll c es c' → Steps c c'
  | .nil _ => .refl
  | .last h => h.steps
  | .cons h _ hrest => h.steps.trans ((steps_advance _).trans hrest.steps)

end

theorem TypeClause.Read.steps {clause : Option TypeClause} {c c' : Cursor} :
    Read c clause c' → Steps c c'
  | .none => .refl
  | .some _ h => (steps_advance _).trans h.steps

mutual

theorem Statement.Read.steps {s : Statement} {c c' : Cursor} : s.Read c c' → Steps c c'
  | .block _ h hclose => (steps_advance _).trans (h.steps.trans hclose.steps)
  | .declaration _ hidentifier hclause hequals h =>
    (steps_advance _).trans (hidentifier.steps.trans
      (hclause.steps.trans (hequals.steps.trans h.steps)))
  | .ifThen _ hcondition hthen => (steps_advance _).trans (hcondition.steps.trans hthen.steps)
  | .ifThenElse _ hcondition hthen _ hother =>
    (steps_advance _).trans (hcondition.steps.trans
      (hthen.steps.trans ((steps_advance _).trans hother.steps)))
  | .whileLoop _ hcondition hbody => (steps_advance _).trans (hcondition.steps.trans hbody.steps)
  | .forLoop _ hidentifier hequals hlower hto hupper hbody =>
    (steps_advance _).trans (hidentifier.steps.trans (hequals.steps.trans
      (hlower.steps.trans (hto.steps.trans (hupper.steps.trans hbody.steps)))))
  | .expression h => h.steps

theorem Statement.ReadAll.steps {ss : List Statement} {c c' : Cursor} :
    ReadAll c ss c' → Steps c c'
  | .nil _ => .refl
  | .cons h hrest => h.steps.trans hrest.steps
  | .skip h hrest => h.steps.trans ((steps_advance _).trans hrest.steps)

end

end Steps

namespace Reader

variable {α β : Type} {c : Cursor} {Q : α → Cursor → Prop} {R : β → Cursor → Prop}

/-- What the reader gives from the cursor `c`, and the cursor behind it, are so. -/
def Leads (c : Cursor) (x : Reader α) (Q : α → Cursor → Prop) : Prop := Q (x.run c).1 (x.run c).2

theorem leads_pure {a : α} (h : Q a c) : Leads c (pure a) Q := h

theorem Leads.bind {x : Reader α} {f : α → Reader β} (hx : Leads c x Q)
    (hf : ∀ a c', Q a c' → Leads c' (f a) R) : Leads c (x >>= f) R :=
  hf _ _ hx

theorem Leads.mono {Q' : α → Cursor → Prop} {x : Reader α} (hx : Leads c x Q)
    (h : ∀ a c', Q a c' → Q' a c') : Leads c x Q' := h _ _ hx

theorem leads_kind {f : TokenKind → Reader β} (h : Leads c (f c.kind) R) :
    Leads c (kind >>= f) R := h

theorem leads_get {f : Cursor → Reader β} (h : Leads c (f c) R) : Leads c (get >>= f) R := h

theorem leads_take {f : Lexeme → Reader β} (h : Leads c.advance (f c.current) R) :
    Leads c (take >>= f) R := h

theorem leads_expect (kind : TokenKind) (c : Cursor) :
    Leads c (expect kind) fun t => t.Expected kind c := by
  by_cases h : c.kind = kind
  · rw [Leads, run_expect_of_kind h]
    exact .found h
  · rw [Leads, run_expect_of_ne h]
    exact .missing h

theorem leads_expect_of_kind {kind : TokenKind} {f : Token → Reader β} (h : c.kind = kind)
    (hf : Leads c.advance (f c.current.token) R) : Leads c (expect kind >>= f) R := by
  have hrun : ((expect kind >>= f).run c) =
      (f ((expect kind).run c).1).run ((expect kind).run c).2 := rfl
  rw [Leads, hrun, run_expect_of_kind h]
  exact hf

end Reader

namespace Grammar

open Reader

variable {expression : Reader Expression} {c : Cursor}

theorem leads_parenthesized (he : ∀ c, Leads c expression (Expression.Read .expression c))
    (h : c.kind = .openParen) :
    Leads c (parenthesized expression) (Expression.Read .primary c) := by
  refine leads_expect_of_kind h ((he _).bind fun inner c' hinner => ?_)
  exact (leads_expect _ _).bind fun close c'' hclose => leads_pure (.parenthesized h hinner hclose)

theorem leads_argumentsWithin (he : ∀ c, Leads c expression (Expression.Read .expression c))
    (fuel : Nat) (c : Cursor) :
    Leads c (argumentsWithin expression fuel) (Expression.ReadAll c) := by
  induction fuel generalizing c with
  | zero => exact leads_pure (.nil c)
  | succ fuel ih =>
    refine leads_kind ?_
    split
    · exact leads_pure (.nil c)
    · refine (he c).bind fun argument c' h => leads_kind ?_
      split
      · exact leads_pure (.last h)
      · rename_i hcomma
        refine leads_take ((ih c'.advance).bind fun rest c'' hrest => leads_pure ?_)
        exact .cons h (Decidable.not_not.mp hcomma) hrest

theorem leads_call (he : ∀ c, Leads c expression (Expression.Read .expression c))
    (h : c.kind = .identifier) (h' : c.advance.kind = .openParen) :
    Leads c (call expression) (Expression.Read .primary c) := by
  refine leads_expect_of_kind h (leads_expect_of_kind h' (leads_get ?_))
  refine (leads_argumentsWithin he _ _).bind fun arguments c' harguments => ?_
  exact (leads_expect _ _).bind fun close c'' hclose => leads_pure (.call h h' harguments hclose)

theorem leads_primary (he : ∀ c, Leads c expression (Expression.Read .expression c))
    (c : Cursor) : Leads c (primary expression) (Expression.Read .primary c) := by
  have hname : Leads c (do return Expression.name (← expect .identifier))
      (Expression.Read .primary c) :=
    (leads_expect _ _).bind fun identifier c' h => leads_pure (.name h)
  have hliteral (value : Value) (hne : c.kind ≠ .endOfFile) :
      Expression.Read .primary c (.literal c.current.token value) c.advance :=
    .literal hne value
  refine leads_get ?_
  split
  · exact leads_parenthesized he ‹_›
  · exact hliteral _ (by simp [*])
  · exact hliteral _ (by simp [*])
  · exact hliteral _ (by simp [*])
  · exact hliteral _ (by simp [*])
  · split
    · exact leads_call he ‹_› (c.kind_advance.trans ‹_›)
    · exact hname
  · exact hname

theorem leads_tooDeep {p : Passage} (hp : p = .expression ∨ p = .operand) (c : Cursor) :
    Leads c tooDeep (Expression.Read p c) := .tooDeep c hp

end Grammar

open Reader

structure Level.Leads (l : Level) : Prop where
  statement (c : Cursor) : Reader.Leads c l.statement (Statement.Read c)
  expression (c : Cursor) : Reader.Leads c l.expression (Expression.Read .expression c)
  operation (least : Precedence) (c : Cursor) :
    Reader.Leads c (l.operation least) (Expression.Read (.operation least) c)
  chain (least : Precedence) (left : Expression) (c : Cursor) :
    Reader.Leads c (l.chain least left) (Expression.Read (.chain least left) c)

namespace Grammar

variable {below : Level}

theorem leads_expression (hb : below.Leads) (c : Cursor) :
    Reader.Leads c (expression below) (Expression.Read .expression c) := by
  refine leads_get ?_
  split
  · rename_i h
    refine leads_take (leads_take ((hb.expression _).bind fun source c' hsource => leads_pure ?_))
    exact .assignment h.1 (c.kind_advance.trans h.2) hsource
  · exact (hb.operation _ c).mono fun _ _ => .expression

theorem leads_operand (hb : below.Leads) (c : Cursor) :
    Reader.Leads c (operand below) (Expression.Read .operand c) := by
  refine leads_kind ?_
  split
  · rename_i p hp
    exact leads_take ((hb.operation p _).bind fun operand c' h => leads_pure (.unary hp h))
  · exact (leads_primary (leads_expression hb) c).mono fun _ _ => .primary

theorem leads_chain (hb : below.Leads) (least : Precedence) (left : Expression) (c : Cursor) :
    Reader.Leads c (chain below least left) (Expression.Read (.chain least left) c) := by
  refine leads_kind ?_
  split
  · exact leads_pure (.done ‹_›)
  · rename_i p hp
    refine leads_take ((hb.operation p _).bind fun right c' hright => ?_)
    exact (hb.chain least _ c').mono fun _ _ => .more hp hright

theorem leads_operation (hb : below.Leads) (least : Precedence) (c : Cursor) :
    Reader.Leads c (operation below least) (Expression.Read (.operation least) c) :=
  (leads_operand hb c).bind fun left c' hleft =>
    (leads_chain hb least left c').mono fun _ _ => .operation hleft

theorem leads_statementsWithin {statement : Reader Statement}
    (hs : ∀ c, Reader.Leads c statement (Statement.Read c)) (fuel : Nat) (c : Cursor) :
    Reader.Leads c (statementsWithin statement fuel) (Statement.ReadAll c) := by
  induction fuel generalizing c with
  | zero => exact leads_pure (.nil c)
  | succ fuel ih =>
    refine leads_kind ?_
    split
    · exact leads_pure (.nil c)
    · refine leads_get ((hs c).bind fun first c' h => leads_get ?_)
      dsimp only
      split
      · exact (ih c'.advance).bind fun rest c'' hrest => leads_pure (.skip h hrest)
      · exact (ih c').bind fun rest c'' hrest => leads_pure (.cons h hrest)

theorem leads_block (hb : below.Leads) {c : Cursor} (h : c.kind = .openBrace) :
    Reader.Leads c (block below) (Statement.Read c) := by
  refine leads_expect_of_kind h (leads_get ?_)
  refine (leads_statementsWithin hb.statement _ _).bind fun statements c' hstatements => ?_
  exact (leads_expect _ _).bind fun close c'' hclose => leads_pure (.block h hstatements hclose)

theorem leads_typeClause (c : Cursor) : Reader.Leads c typeClause (TypeClause.Read c) := by
  refine leads_kind ?_
  split
  · exact leads_pure .none
  · rename_i h
    have hcolon : c.kind = .colon := Decidable.not_not.mp h
    refine leads_expect_of_kind hcolon ((leads_expect _ _).bind fun identifier c' h => ?_)
    exact leads_pure (.some hcolon h)

theorem leads_declaration (hb : below.Leads) {keyword : TokenKind}
    (hk : keyword = .letKeyword ∨ keyword = .varKeyword) {c : Cursor} (h : c.kind = keyword) :
    Reader.Leads c (declaration below keyword) (Statement.Read c) := by
  refine leads_expect_of_kind h ((leads_expect _ _).bind fun identifier c₁ hidentifier => ?_)
  refine (leads_typeClause c₁).bind fun clause c₂ hclause => ?_
  refine (leads_expect _ _).bind fun equals c₃ hequals => ?_
  refine (hb.expression c₃).bind fun initializer c₄ hinitializer => leads_pure ?_
  exact .declaration (h ▸ hk) hidentifier hclause hequals hinitializer

theorem leads_conditional (hb : below.Leads) {c : Cursor} (h : c.kind = .ifKeyword) :
    Reader.Leads c (conditional below) (Statement.Read c) := by
  refine leads_expect_of_kind h ((hb.expression _).bind fun condition c₁ hcondition => ?_)
  refine (hb.statement c₁).bind fun thenStatement c₂ hthen => leads_kind ?_
  split
  · exact leads_pure (.ifThen h hcondition hthen)
  · rename_i hkind
    have helse : c₂.kind = .elseKeyword := Decidable.not_not.mp hkind
    refine leads_expect_of_kind helse ((hb.statement _).bind fun other c₃ hother => ?_)
    exact leads_pure (.ifThenElse h hcondition hthen helse hother)

theorem leads_whileLoop (hb : below.Leads) {c : Cursor} (h : c.kind = .whileKeyword) :
    Reader.Leads c (whileLoop below) (Statement.Read c) := by
  refine leads_expect_of_kind h ((hb.expression _).bind fun condition c₁ hcondition => ?_)
  exact (hb.statement c₁).bind fun body c₂ hbody => leads_pure (.whileLoop h hcondition hbody)

theorem leads_forLoop (hb : below.Leads) {c : Cursor} (h : c.kind = .forKeyword) :
    Reader.Leads c (forLoop below) (Statement.Read c) := by
  refine leads_expect_of_kind h ((leads_expect _ _).bind fun identifier c₁ hidentifier => ?_)
  refine (leads_expect _ _).bind fun equals c₂ hequals => ?_
  refine (hb.expression c₂).bind fun lower c₃ hlower => ?_
  refine (leads_expect _ _).bind fun toKeyword c₄ hto => ?_
  refine (hb.expression c₄).bind fun upper c₅ hupper => ?_
  refine (hb.statement c₅).bind fun body c₆ hbody => leads_pure ?_
  exact .forLoop h hidentifier hequals hlower hto hupper hbody

theorem leads_statement (hb : below.Leads) (c : Cursor) :
    Reader.Leads c (statement below) (Statement.Read c) := by
  refine leads_kind ?_
  split
  · exact leads_block hb ‹_›
  · exact leads_declaration hb (.inl rfl) ‹_›
  · exact leads_declaration hb (.inr rfl) ‹_›
  · exact leads_conditional hb ‹_›
  · exact leads_whileLoop hb ‹_›
  · exact leads_forLoop hb ‹_›
  · exact (hb.expression c).bind fun e c' h => leads_pure (.expression h)

end Grammar

namespace Level

open Grammar

theorem leads_bottomChain (least : Precedence) (left : Expression) (c : Cursor) :
    Reader.Leads c (bottom.bottomChain least left) (Expression.Read (.chain least left) c) := by
  refine leads_kind ?_
  dsimp only
  split
  · exact .cut left c
  · exact leads_pure (.done (Option.not_isSome_iff_eq_none.mp ‹_›))

theorem leads_bottom : bottom.Leads where
  statement c := (leads_tooDeep (.inl rfl) c).bind fun e c' h => leads_pure (.expression h)
  expression := leads_tooDeep (.inl rfl)
  operation least c := by
    have hrest (left : Expression) (c' : Cursor) (hleft : left.Read .operand c c') :
        Reader.Leads c' (bottom.bottomChain least left)
          (Expression.Read (.operation least) c) :=
      (leads_bottomChain least left c').mono fun _ _ => .operation hleft
    refine leads_kind ?_
    dsimp only
    split
    · exact (leads_tooDeep (.inr rfl) c).bind hrest
    · exact (leads_primary (leads_tooDeep (.inl rfl)) c).bind fun left c' hleft =>
        hrest left c' (.primary hleft)
  chain := leads_bottomChain

theorem leads_above {below : Level} (hb : below.Leads) : (above below).Leads where
  statement := leads_statement hb
  expression := leads_expression hb
  operation := leads_operation hb
  chain := leads_chain hb

theorem leads_ofDepth (n : Nat) : (ofDepth n).Leads := by
  induction n with
  | zero => exact leads_bottom
  | succ n ih => exact leads_above ih

end Level

inductive Tree.Read (c : Cursor) : Tree → Cursor → Prop where
  | whole {statement : Statement} {endOfFile : Token} {c' c'' : Cursor}
    (h : statement.Read c c') (hend : endOfFile.Expected .endOfFile c' c'') :
    Read c ⟨statement, endOfFile⟩ c''

namespace Tree.Read

variable {tree : Tree} {c c' : Cursor}

theorem steps : tree.Read c c' → Steps c c'
  | .whole h hend => h.steps.trans hend.steps

end Tree.Read

theorem Grammar.leads_tree (c : Cursor) : Reader.Leads c tree (Tree.Read c) :=
  ((Level.leads_ofDepth nestingLimit).statement c).bind fun _ _ h =>
    (leads_expect _ _).bind fun _ _ hend => leads_pure (.whole h hend)

/-- The tree of a text is read from the first of its lexemes on, and what is wrong with their order
is noted on the way. -/
theorem Fragment.exists_read (text : String) :
    ∃ c, (ofText text).tree.Read (.ofLexemes (Lexeme.ofText text)) c ∧
      (ofText text).diagnostics = Lexeme.diagnostics (Lexeme.ofText text) ++ c.diagnostics := by
  have htree := Grammar.leads_tree (.ofLexemes (Lexeme.ofText text))
  rw [ofText_eq]
  exact ⟨_, htree, rfl⟩

end ScalarScript
