import Mathlib.Order.Filter.AtTopBot.Basic
import ScalarScript.Proofs.Tree.Following

/-!
Reading with a position and a count of levels comes to an end, reads what the grammar reads, and
keeps its balance. Each function follows the reader of the grammar, if enough calls may be open, and
leaves as many levels as it entered. That is shown for each production, from there for each level,
and from the deepest level upwards for all of them.
-/

set_option autoImplicit false

namespace ScalarScript

open Cursor (Steps)

theorem Cursor.Step.length_le {c c' : Cursor} (h : Step c c') :
    c'.ahead.length ≤ c.ahead.length := by
  cases h with
  | advance => exact (List.drop_sublist 1 c.ahead).length_le
  | lacking kind =>
    rw [Cursor.lacking]
    split <;> exact Nat.le_refl _
  | giveUp =>
    rw [Cursor.giveUp]
    split
    · exact Nat.le_refl _
    · exact Nat.zero_le _

theorem Cursor.Steps.length_le {c c' : Cursor} (h : Steps c c') :
    c'.ahead.length ≤ c.ahead.length :=
  Steps.keeps (P := fun c' => c'.ahead.length ≤ c.ahead.length)
    (fun _ _ h hle => Nat.le_trans h.length_le hle) h (Nat.le_refl _)

def Reader.Shortens {α : Type} (r : Reader α) : Prop :=
  ∀ c, (r.run c).2.ahead.length ≤ c.ahead.length

namespace Level.Leads

variable {l : Level}

theorem shortens_statement (h : l.Leads) : l.statement.Shortens :=
  fun c => Steps.length_le (Statement.Read.steps (h.statement c))

theorem shortens_expression (h : l.Leads) : l.expression.Shortens :=
  fun c => Steps.length_le (Expression.Read.steps (h.expression c))

theorem shortens_operation (h : l.Leads) (least : Precedence) : (l.operation least).Shortens :=
  fun c => Steps.length_le (Expression.Read.steps (h.operation least c))

end Level.Leads

namespace Parsing

variable {tokens : List Lexeme} {depth : Nat} {p : Parser} {c : Cursor}
variable {calls : Nat} {reader : Reader Expression} {statement : Reader Statement} {below : Level}

theorem keeps_missingExpression : Keeps tokens depth missingExpression Reader.missingExpression :=
  fun _ _ h => follows_peek h fun _ h' => follows_readGet (follows_pure _ h')

theorem keeps_typeClause : Keeps tokens depth typeClause Grammar.typeClause := by
  refine (keeps_kind.bind fun kind => ?_).tracked
  split
  · exact keeps_pure none
  · exact (keeps_expect _).bind fun colon => (keeps_expect _).bind fun identifier => keeps_pure _

theorem keeps_booleanLiteral : Keeps tokens depth booleanLiteral Grammar.booleanLiteral :=
  (keeps_next.bind fun _ => keeps_pure _).tracked

theorem keeps_literal : Keeps tokens depth literal Grammar.literal :=
  (keeps_next.bind fun _ => keeps_pure _).tracked

theorem keeps_name :
    Keeps tokens depth name (Reader.expect .identifier >>= fun t => pure (.name t)) :=
  ((keeps_expect _).bind fun _ => keeps_pure _).tracked

theorem keeps_parenthesized (he : Keeps tokens depth (expression calls) reader) :
    Keeps tokens depth (parenthesized (calls + 1)) (Grammar.parenthesized reader) := by
  refine Keeps.tracked ((keeps_expect _).bind fun openParen => he.bind fun inner => ?_)
  exact (keeps_expect _).bind fun closeParen => keeps_pure _

theorem keeps_call
    (ha : Keeps tokens depth (arguments calls)
      (get >>= fun c => Grammar.argumentsWithin reader c.ahead.length)) :
    Keeps tokens depth (call (calls + 1)) (Grammar.call reader) := by
  refine Keeps.tracked ((keeps_expect _).bind fun identifier => ?_)
  refine (keeps_expect _).bind fun openParen => ?_
  exact ha.tracked.bind fun arguments => (keeps_expect _).bind fun closeParen => keeps_pure _

theorem keeps_primary
    (hp : Keeps tokens depth (parenthesized calls) (Grammar.parenthesized reader))
    (hc : Keeps tokens depth (call calls) (Grammar.call reader)) :
    Keeps tokens depth (primary (calls + 1)) (Grammar.primary reader) := by
  refine Keeps.tracked fun p c h => follows_kind h fun p' h' => follows_readGet ?_
  generalize c.kind = kind
  cases kind with
  | openParen => exact hp p' c h'
  | trueKeyword => exact keeps_booleanLiteral p' c h'
  | falseKeyword => exact keeps_booleanLiteral p' c h'
  | number => exact keeps_literal p' c h'
  | string => exact keeps_literal p' c h'
  | identifier =>
    refine follows_peek h' fun p₂ h₂ => ?_
    dsimp only
    split
    · exact hc p₂ c h₂
    · exact keeps_name p₂ c h₂
  | _ => exact keeps_name p' c h'

/-- The rounds over arguments take what is left, so that there are no more of them than that. -/
theorem follows_arguments {enough : Nat}
    (he : ∀ calls ≥ enough, Keeps tokens depth (expression calls) reader)
    (hs : reader.Shortens) (fuel : Nat) :
    ∀ calls ≥ enough + fuel, ∀ p c, p.Stands tokens depth c → c.ahead.length ≤ fuel →
      Follows (arguments (calls + 1)) p (Grammar.argumentsWithin reader fuel) c
        (Parser.Stands tokens depth) := by
  induction fuel with
  | zero =>
    intro calls hcalls p c h hfuel
    refine follows_kind h fun p' h' => ?_
    rw [if_pos (.inr (h.kind_of_length hfuel))]
    exact follows_pure [] h'
  | succ fuel ih =>
    intro calls hcalls p c h hfuel
    obtain ⟨calls, rfl⟩ : ∃ k, calls = k + 1 := ⟨calls - 1, by omega⟩
    refine follows_kind h fun p₁ h₁ => follows_readKind ?_
    split
    · exact follows_pure [] h₁
    · rename_i hk
      have hk := (not_or.mp hk).2
      have hfirst := (he (calls + 1) (by omega) p₁ c h₁).and
        (S := fun c' => c'.ahead.length ≤ c.ahead.length) (hs c)
      refine follows_get (hfirst.bind ?_)
      rintro argument p₂ c₂ ⟨h₂, hle⟩
      refine follows_kind h₂ fun p₃ h₃ => follows_readKind ?_
      split
      · exact follows_noteRound h₃ (.inr rfl) fun p₄ h₄ => follows_pure _ h₄
      · rename_i hcomma
        have hk₂ : c₂.kind ≠ .endOfFile := by simp [Decidable.not_not.mp hcomma]
        have hless : c₂.advance.ahead.length < c.ahead.length :=
          Nat.lt_of_lt_of_le (h₃.length_advance_lt hk₂) hle
        refine follows_next h₃ fun p₄ h₄ => ?_
        refine follows_noteRound h₄ (.inl (h₁.position_lt hk h₄ hless)) fun p₅ h₅ => ?_
        have hrest := ih calls (by omega) p₅ c₂.advance h₅ (by omega)
        exact hrest.bind fun rest p₆ c₆ h₆ => follows_pure _ h₆

theorem keeps_arguments {enough : Nat}
    (he : ∀ calls ≥ enough, Keeps tokens depth (expression calls) reader)
    (hs : reader.Shortens)
    (hcalls : enough + tokens.length ≤ calls) :
    Keeps tokens depth (arguments (calls + 1))
      (get >>= fun c => Grammar.argumentsWithin reader c.ahead.length) := by
  intro p c h
  have hlength := h.length_ahead_le
  exact follows_readGet (follows_arguments he hs _ calls (by omega) p c h (Nat.le_refl _))

theorem exists_isAssignment (h : p.Stands tokens depth c) :
    ∃ p', isAssignment.run p =
      .ok (decide (c.kind = .identifier ∧ (c.peek 1).token.kind = .equals), p') ∧
      p'.Stands tokens depth c := by
  obtain ⟨p₁, hkind, h₁⟩ := exists_kind h
  obtain ⟨p₂, hpeek, h₂⟩ := exists_peek h₁ 1
  by_cases hk : c.kind = .identifier
  · refine ⟨p₂, ?_, h₂⟩
    rw [isAssignment, run_bind hkind, if_neg (not_not.mpr hk), run_bind hpeek]
    simp only [hk, true_and]
    rfl
  · refine ⟨p₁, ?_, h₁⟩
    rw [isAssignment, run_bind hkind, if_pos hk]
    simp only [hk, false_and, decide_false]
    rfl

theorem keeps_assignment (he : Keeps tokens depth (expression calls) below.expression)
    (ho : Keeps tokens depth (operation calls .lowest) (below.operation .lowest)) :
    Keeps tokens depth (assignment (calls + 1)) (Grammar.expression below) := by
  refine Keeps.tracked fun p c h => ?_
  obtain ⟨p', hrun, h'⟩ := exists_isAssignment h
  refine follows_after hrun (follows_readGet ?_)
  by_cases hc : c.kind = .identifier ∧ (c.peek 1).token.kind = .equals
  · rw [if_pos (decide_eq_true hc), if_pos hc]
    have hnext : Keeps tokens depth _ _ := keeps_next.bind fun identifier => keeps_next.bind
      fun equals => he.bind fun source => keeps_pure
        (Expression.assignment identifier.token equals.token source)
    exact hnext p' c h'
  · rw [if_neg (by simpa using hc), if_neg hc]
    exact ho p' c h'

theorem keeps_expression (hdepth : depth < nestingLimit)
    (ha : Keeps tokens (depth + 1) (assignment calls) reader) :
    Keeps tokens depth (expression (calls + 1)) reader := (ha.entered hdepth).tracked

theorem not_level_lt {kind : TokenKind} {precedence : Precedence}
    (h : kind.unaryPrecedence? = some precedence) (least : Precedence) :
    ¬precedence.level < least.level := by
  obtain rfl := Grammar.unaryPrecedence?_level h
  cases least <;> decide

theorem keeps_operand {least : Precedence} (hdepth : depth < nestingLimit)
    (hp : Keeps tokens depth (primary calls) (Grammar.primary (Grammar.expression below)))
    (ho : ∀ p, Keeps tokens (depth + 1) (operation calls p) (below.operation p)) :
    Keeps tokens depth (operand (calls + 1) least) (Grammar.operand below) := by
  refine Keeps.tracked fun p c h => follows_kind h fun p' h' => follows_readKind ?_
  cases hprecedence : c.kind.unaryPrecedence? with
  | none => exact hp p' c h'
  | some precedence =>
    dsimp only
    rw [if_neg (not_level_lt hprecedence least)]
    refine follows_enter h' hdepth fun p₂ h₂ => ?_
    refine (keeps_next p₂ c h₂).bind fun operator p₃ c₃ h₃ => ?_
    exact (ho precedence p₃ c₃ h₃).leave

/-- As deep as it may be, if no deeper than code may be nested. -/
def Somewhere (tokens : List Lexeme) (p : Parser) (c : Cursor) : Prop :=
  ∃ depth, p.Stands tokens depth c

theorem keeps_operation {least : Precedence} {r : Reader Expression}
    {g : Expression → Reader Expression} (ho : Keeps tokens depth (operand calls least) r)
    (hc : ∀ left p c, p.Stands tokens depth c →
      Follows (operators calls least left) p (g left) c (Somewhere tokens)) :
    Keeps tokens depth (operation (calls + 1) least) (r >>= g) := by
  refine Keeps.tracked fun p c h => (ho p c h).bind fun left p₁ c₁ h₁ => follows_get ?_
  obtain ⟨p₂, hrun, d, h₂⟩ := hc left p₁ c₁ h₁
  refine ⟨p₂.moved p₂.position depth, ?_, h₂.at_depth h.limit⟩
  rw [run_bind hrun, h₁.depth_eq]
  rfl

theorem follows_operators {least : Precedence} {left : Expression} (hdepth : depth < nestingLimit)
    (ho : ∀ p, Keeps tokens (depth + 1) (operation calls p) (below.operation p))
    (hs : ∀ p, (below.operation p).Shortens)
    (hc : ∀ left p c, p.Stands tokens (depth + 1) c →
      Follows (operators calls least left) p (below.chain least left) c (Somewhere tokens))
    (h : p.Stands tokens depth c) :
    Follows (operators (calls + 1) least left) p (Grammar.chain below least left) c
      (Somewhere tokens) := by
  refine follows_get (follows_kind h fun p₁ h₁ => follows_readKind ?_)
  cases hp : Grammar.operatorAbove? least c.kind with
  | none => exact follows_noteRound h₁ (.inr rfl) fun p₂ h₂ => follows_pure left ⟨depth, h₂⟩
  | some precedence =>
    refine follows_enter h₁ hdepth fun p₂ h₂ => ?_
    refine follows_next h₂ fun p₃ h₃ => ?_
    have hright := (ho precedence p₃ _ h₃).and
      (S := fun c' => c'.ahead.length ≤ c.advance.ahead.length) (hs precedence _)
    refine hright.bind ?_
    rintro right p₄ c₄ ⟨h₄, hle⟩
    have hk : c.kind ≠ .endOfFile := by
      intro hk
      rw [hk, Grammar.operatorAbove?_endOfFile] at hp
      cases hp
    have hless : c₄.ahead.length < c.ahead.length := Nat.lt_of_le_of_lt hle (h.length_advance_lt hk)
    exact follows_noteRound h₄ (.inl (h.position_lt hk h₄ hless)) fun p₅ h₅ => hc _ p₅ c₄ h₅

theorem keeps_declaration {kind : TokenKind} (hkind : kind = .letKeyword ∨ kind = .varKeyword)
    (he : Keeps tokens depth (expression calls) below.expression) (h : p.Stands tokens depth c)
    (hk : c.kind = kind) :
    Follows (declaration calls) p (Grammar.declaration below kind) c
      (Parser.Stands tokens depth) := by
  refine Follows.tracked h (follows_kind h fun p' h' => ?_)
  have hexpected : (if c.kind = .letKeyword then TokenKind.letKeyword else .varKeyword) = kind := by
    rcases hkind with rfl | rfl <;> rw [hk] <;> rfl
  rw [hexpected]
  have hall : Keeps tokens depth _ _ := (keeps_expect kind).bind fun keyword =>
    (keeps_expect .identifier).bind fun identifier => keeps_typeClause.bind fun clause =>
      (keeps_expect .equals).bind fun equals => he.bind fun initializer =>
        keeps_pure (Statement.declaration keyword identifier clause equals initializer)
  exact hall p' c h'

theorem keeps_expressionStatement (he : Keeps tokens depth (expression calls) below.expression) :
    Keeps tokens depth (expressionStatement calls)
      (below.expression >>= fun e => pure (.expression e)) :=
  (he.bind fun _ => keeps_pure _).tracked

theorem keeps_whileLoop (he : Keeps tokens depth (expression calls) below.expression)
    (hs : Keeps tokens depth (Parsing.statement calls) below.statement) :
    Keeps tokens depth (whileLoop (calls + 1)) (Grammar.whileLoop below) :=
  ((keeps_expect _).bind fun _ => he.bind fun _ => hs.bind fun _ => keeps_pure _).tracked

theorem keeps_forLoop (he : Keeps tokens depth (expression calls) below.expression)
    (hs : Keeps tokens depth (Parsing.statement calls) below.statement) :
    Keeps tokens depth (forLoop (calls + 1)) (Grammar.forLoop below) := by
  refine Keeps.tracked ((keeps_expect _).bind fun _ => (keeps_expect _).bind fun _ => ?_)
  refine (keeps_expect _).bind fun _ => he.bind fun _ => (keeps_expect _).bind fun _ => ?_
  exact he.bind fun _ => hs.bind fun _ => keeps_pure _

def elseReader (below : Level) : Reader (Option (Token × Statement)) := do
  if (← Reader.kind) ≠ .elseKeyword then return none
  let keyword ← Reader.expect .elseKeyword
  return some (keyword, ← below.statement)

def conditionalOf (keyword : Token) (condition : Expression) (thenStatement : Statement) :
    Option (Token × Statement) → Statement
  | none => .ifThen keyword condition thenStatement
  | some (elseKeyword, other) =>
    .ifThenElse keyword condition thenStatement elseKeyword other

theorem conditional_eq (below : Level) : Grammar.conditional below = do
    let keyword ← Reader.expect .ifKeyword
    let condition ← below.expression
    let thenStatement ← below.statement
    return conditionalOf keyword condition thenStatement (← elseReader below) := by
  rw [Grammar.conditional]
  refine bind_congr fun keyword => bind_congr fun condition => bind_congr fun thenStatement => ?_
  rw [elseReader, bind_assoc]
  refine bind_congr fun kind => ?_
  split
  · rfl
  · simp only [bind_assoc, pure_bind, conditionalOf]

theorem keeps_elseClause (hs : Keeps tokens depth (Parsing.statement calls) below.statement) :
    Keeps tokens depth (elseClause (calls + 1)) (elseReader below) := by
  refine Keeps.tracked (keeps_kind.bind fun kind => ?_)
  split
  · exact keeps_pure none
  · exact (keeps_expect _).bind fun keyword => hs.bind fun other =>
      keeps_pure (some (keyword, other))

theorem keeps_conditional (he : Keeps tokens depth (expression calls) below.expression)
    (hs : Keeps tokens depth (Parsing.statement calls) below.statement)
    (hc : Keeps tokens depth (elseClause calls) (elseReader below)) :
    Keeps tokens depth (conditional (calls + 1)) (Grammar.conditional below) := by
  rw [conditional_eq]
  refine Keeps.tracked ((keeps_expect _).bind fun _ => he.bind fun _ => hs.bind fun _ => ?_)
  refine hc.bind fun clause => ?_
  cases clause with
  | none => exact keeps_pure _
  | some clause => exact keeps_pure _

/-- The rounds over statements take what is left, so that there are no more of them than that. -/
theorem follows_statements {enough : Nat}
    (hs : ∀ calls ≥ enough, Keeps tokens depth (Parsing.statement calls) statement)
    (hshort : statement.Shortens) (fuel : Nat) :
    ∀ calls ≥ enough + fuel, ∀ p c, p.Stands tokens depth c → c.ahead.length ≤ fuel →
      Follows (statements (calls + 1)) p (Grammar.statementsWithin statement fuel) c
        (Parser.Stands tokens depth) := by
  induction fuel with
  | zero =>
    intro calls hcalls p c h hfuel
    refine follows_kind h fun p' h' => ?_
    rw [if_pos (.inl (h.kind_of_length hfuel))]
    exact follows_pure [] h'
  | succ fuel ih =>
    intro calls hcalls p c h hfuel
    obtain ⟨calls, rfl⟩ : ∃ k, calls = k + 1 := ⟨calls - 1, by omega⟩
    refine follows_kind h fun p₁ h₁ => follows_readKind ?_
    split
    · exact follows_pure [] h₁
    · rename_i hk
      have hk := (not_or.mp hk).1
      have hfirst := (hs (calls + 1) (by omega) p₁ c h₁).and
        (S := fun c' => c'.ahead.length ≤ c.ahead.length) (hshort c)
      refine follows_get (follows_readGet (hfirst.bind ?_))
      rintro first p₂ c₂ ⟨h₂, hle⟩
      obtain ⟨p₃, hskip, h₃⟩ := exists_skipAt h₁ hk h₂
      have hrest {c₃ : Cursor} (h₃ : p₃.Stands tokens depth c₃)
          (hless : c₃.ahead.length < c.ahead.length) :
          Follows (noteRound p₁.position false >>= fun _ => statements (calls + 1) >>= fun rest =>
            pure (first :: rest)) p₃ (Grammar.statementsWithin statement fuel >>= fun rest =>
              pure (first :: rest)) c₃ (Parser.Stands tokens depth) :=
        follows_noteRound h₃ (.inl (h₁.position_lt hk h₃ hless)) fun p₄ h₄ =>
          (ih calls (by omega) p₄ c₃ h₄ (by omega)).bind fun rest p₅ c₅ h₅ => follows_pure _ h₅
      refine follows_after hskip (follows_readGet ?_)
      split
      · rename_i hsame
        rw [if_pos hsame] at h₃
        have hless : c₂.advance.ahead.length < c.ahead.length := by
          have hpos := h.length_pos_of_kind hk
          rw [Cursor.advance, List.length_drop]
          omega
        exact hrest h₃ hless
      · rename_i hother
        rw [if_neg hother] at h₃
        exact hrest h₃ (Nat.lt_of_le_of_ne hle hother)

theorem keeps_statements {enough : Nat}
    (hs : ∀ calls ≥ enough, Keeps tokens depth (Parsing.statement calls) statement)
    (hshort : statement.Shortens) (hcalls : enough + tokens.length ≤ calls) :
    Keeps tokens depth (statements (calls + 1))
      (get >>= fun c => Grammar.statementsWithin statement c.ahead.length) := by
  intro p c h
  have hlength := h.length_ahead_le
  exact follows_readGet (follows_statements hs hshort _ calls (by omega) p c h (Nat.le_refl _))

theorem keeps_block (hs : Keeps tokens depth (statements calls)
      (get >>= fun c => Grammar.statementsWithin below.statement c.ahead.length)) :
    Keeps tokens depth (block (calls + 1)) (Grammar.block below) :=
  ((keeps_expect _).bind fun _ => hs.bind fun _ => (keeps_expect _).bind fun _ =>
    keeps_pure _).tracked

theorem keeps_begunStatement (he : Keeps tokens depth (expression calls) below.expression)
    (hb : Keeps tokens depth (block calls) (Grammar.block below))
    (hc : Keeps tokens depth (conditional calls) (Grammar.conditional below))
    (hw : Keeps tokens depth (whileLoop calls) (Grammar.whileLoop below))
    (hf : Keeps tokens depth (forLoop calls) (Grammar.forLoop below)) :
    Keeps tokens depth (begunStatement (calls + 1)) (Grammar.statement below) := by
  refine fun p c h => follows_kind h fun p' h' => follows_readKind ?_
  have hlet := keeps_declaration (.inl rfl) he h'
  have hvar := keeps_declaration (.inr rfl) he h'
  revert hlet hvar
  generalize c.kind = kind
  intro hlet hvar
  cases kind with
  | openBrace => exact hb p' c h'
  | letKeyword => exact hlet rfl
  | varKeyword => exact hvar rfl
  | ifKeyword => exact hc p' c h'
  | whileKeyword => exact hw p' c h'
  | forKeyword => exact hf p' c h'
  | _ => exact keeps_expressionStatement he p' c h'

theorem keeps_statement (hdepth : depth < nestingLimit)
    (hb : Keeps tokens (depth + 1) (begunStatement calls) (Grammar.statement below)) :
    Keeps tokens depth (Parsing.statement (calls + 1)) (Grammar.statement below) :=
  (hb.entered hdepth).tracked

section Limit

variable {calls : Nat}

theorem keeps_expression_limit :
    Keeps tokens nestingLimit (expression (calls + 1)) Grammar.tooDeep := by
  refine Keeps.tracked fun p c h => follows_enter_limit h fun p' h' => ?_
  exact keeps_missingExpression p' _ h'

theorem keeps_statement_limit :
    Keeps tokens nestingLimit (Parsing.statement (calls + 1)) Level.bottom.statement := by
  refine Keeps.tracked fun p c h => follows_enter_limit h fun p' h' => ?_
  exact (keeps_missingExpression p' _ h').bind fun e p'' c'' h'' => follows_pure _ h''

def bottomOperand : Reader Expression := do
  if (← Reader.kind).unaryPrecedence?.isSome then Grammar.tooDeep
  else Grammar.primary Grammar.tooDeep

theorem bottom_operation_eq (least : Precedence) :
    Level.bottom.operation least = bottomOperand >>= Level.bottom.bottomChain least := by
  rw [bottomOperand, bind_assoc]
  refine bind_congr fun kind => ?_
  split <;> rfl

theorem keeps_operand_limit {least : Precedence}
    (hp : Keeps tokens nestingLimit (primary calls) (Grammar.primary Grammar.tooDeep)) :
    Keeps tokens nestingLimit (operand (calls + 1) least) bottomOperand := by
  refine Keeps.tracked fun p c h => follows_kind h fun p' h' => follows_readKind ?_
  cases hprecedence : c.kind.unaryPrecedence? with
  | none => exact hp p' c h'
  | some precedence =>
    dsimp only
    rw [if_neg (not_level_lt hprecedence least)]
    refine follows_enter_limit h' fun p₂ h₂ => ?_
    exact keeps_missingExpression p₂ _ h₂

theorem follows_operators_limit {least : Precedence} {left : Expression}
    (h : p.Stands tokens nestingLimit c) :
    Follows (operators (calls + 1) least left) p (Level.bottom.bottomChain least left) c
      (Somewhere tokens) := by
  refine follows_get (follows_kind h fun p₁ h₁ => follows_readKind ?_)
  cases hp : Grammar.operatorAbove? least c.kind with
  | none => exact follows_noteRound h₁ (.inr rfl) fun p₂ h₂ => follows_pure left ⟨_, h₂⟩
  | some precedence =>
    refine follows_enter_limit h₁ fun p₂ h₂ => ?_
    exact follows_noteRound h₂ (.inr rfl) fun p₃ h₃ => follows_pure left ⟨_, h₃⟩

end Limit

section Levels

open Filter

/-- With so many calls left the functions follow the readers of the level. -/
structure Serves (tokens : List Lexeme) (depth : Nat) (l : Level) (calls : Nat) : Prop where
  statement : Keeps tokens depth (Parsing.statement calls) l.statement
  expression : Keeps tokens depth (expression calls) l.expression
  operation (least : Precedence) : Keeps tokens depth (operation calls least) (l.operation least)
  chain (least : Precedence) (left : Expression) (p : Parser) (c : Cursor)
    (h : p.Stands tokens depth c) :
    Follows (operators calls least left) p (l.chain least left) c (Somewhere tokens)

theorem eventually_calls {P Q : Nat → Prop} (h : ∀ᶠ calls in atTop, P calls)
    (hcall : ∀ calls, P calls → Q (calls + 1)) : ∀ᶠ calls in atTop, Q calls := by
  rw [← map_add_atTop_eq_nat 1, eventually_map]
  exact h.mono hcall

theorem eventually_arguments
    (he : ∀ᶠ calls in atTop, Keeps tokens depth (expression calls) reader)
    (hs : reader.Shortens) :
    ∀ᶠ calls in atTop, Keeps tokens depth (arguments calls)
      (get >>= fun c => Grammar.argumentsWithin reader c.ahead.length) := by
  obtain ⟨enough, he⟩ := eventually_atTop.mp he
  exact eventually_calls (eventually_ge_atTop _) fun calls => keeps_arguments he hs

theorem eventually_primary
    (he : ∀ᶠ calls in atTop, Keeps tokens depth (expression calls) reader)
    (hs : reader.Shortens) :
    ∀ᶠ calls in atTop, Keeps tokens depth (primary calls) (Grammar.primary reader) := by
  have hparenthesized : ∀ᶠ calls in atTop,
      Keeps tokens depth (parenthesized calls) (Grammar.parenthesized reader) :=
    eventually_calls he fun _ => keeps_parenthesized
  have hcall : ∀ᶠ calls in atTop, Keeps tokens depth (call calls) (Grammar.call reader) :=
    eventually_calls (eventually_arguments he hs) fun _ => keeps_call
  exact eventually_calls (hparenthesized.and hcall) fun _ h => keeps_primary h.1 h.2

variable {below : Level}

theorem eventually_expression (hdepth : depth < nestingLimit)
    (hb : ∀ᶠ calls in atTop, Serves tokens (depth + 1) below calls) :
    ∀ᶠ calls in atTop, Keeps tokens depth (expression calls) (Grammar.expression below) := by
  have hassignment : ∀ᶠ calls in atTop,
      Keeps tokens (depth + 1) (assignment calls) (Grammar.expression below) :=
    eventually_calls hb fun _ h => keeps_assignment h.expression (h.operation .lowest)
  exact eventually_calls hassignment fun _ => keeps_expression hdepth

theorem eventually_chain (hdepth : depth < nestingLimit) (hs : below.Leads)
    (hb : ∀ᶠ calls in atTop, Serves tokens (depth + 1) below calls) :
    ∀ᶠ calls in atTop, ∀ least left p c, p.Stands tokens depth c →
      Follows (operators calls least left) p (Grammar.chain below least left) c
        (Somewhere tokens) :=
  eventually_calls hb fun _ h least _ _ _ => follows_operators hdepth h.operation
    hs.shortens_operation (h.chain least)

theorem eventually_operation (hdepth : depth < nestingLimit) (hs : below.Leads)
    (hb : ∀ᶠ calls in atTop, Serves tokens (depth + 1) below calls) :
    ∀ᶠ calls in atTop, ∀ least,
      Keeps tokens depth (operation calls least) (Grammar.operation below least) := by
  have hprimary := eventually_primary (eventually_expression hdepth hb)
    (Level.leads_above hs).shortens_expression
  have hoperand : ∀ᶠ calls in atTop, ∀ least,
      Keeps tokens depth (operand calls least) (Grammar.operand below) :=
    eventually_calls (hprimary.and hb) fun _ h _ => keeps_operand hdepth h.1 h.2.operation
  exact eventually_calls (hoperand.and (eventually_chain hdepth hs hb)) fun _ h least =>
    keeps_operation (h.1 least) (h.2 least)

theorem eventually_block (hs : below.statement.Shortens)
    (hb : ∀ᶠ calls in atTop, Serves tokens depth below calls) :
    ∀ᶠ calls in atTop, Keeps tokens depth (block calls) (Grammar.block below) := by
  obtain ⟨enough, hstatement⟩ := eventually_atTop.mp (hb.mono fun _ h => h.statement)
  have hstatements : ∀ᶠ calls in atTop, Keeps tokens depth (statements calls)
      (get >>= fun c => Grammar.statementsWithin below.statement c.ahead.length) :=
    eventually_calls (eventually_ge_atTop _) fun _ => keeps_statements hstatement hs
  exact eventually_calls hstatements fun _ => keeps_block

theorem eventually_conditional (hb : ∀ᶠ calls in atTop, Serves tokens depth below calls) :
    ∀ᶠ calls in atTop, Keeps tokens depth (conditional calls) (Grammar.conditional below) := by
  have helse : ∀ᶠ calls in atTop, Keeps tokens depth (elseClause calls) (elseReader below) :=
    eventually_calls hb fun _ h => keeps_elseClause h.statement
  exact eventually_calls (hb.and helse) fun _ h =>
    keeps_conditional h.1.expression h.1.statement h.2

theorem eventually_statement (hdepth : depth < nestingLimit) (hs : below.Leads)
    (hb : ∀ᶠ calls in atTop, Serves tokens (depth + 1) below calls) :
    ∀ᶠ calls in atTop, Keeps tokens depth (Parsing.statement calls) (Grammar.statement below) := by
  have hwhile : ∀ᶠ calls in atTop,
      Keeps tokens (depth + 1) (whileLoop calls) (Grammar.whileLoop below) :=
    eventually_calls hb fun _ h => keeps_whileLoop h.expression h.statement
  have hfor : ∀ᶠ calls in atTop,
      Keeps tokens (depth + 1) (forLoop calls) (Grammar.forLoop below) :=
    eventually_calls hb fun _ h => keeps_forLoop h.expression h.statement
  have hblock := eventually_block hs.shortens_statement hb
  have hbegun : ∀ᶠ calls in atTop,
      Keeps tokens (depth + 1) (begunStatement calls) (Grammar.statement below) := by
    refine eventually_calls (((hb.and hblock).and (eventually_conditional hb)).and
      (hwhile.and hfor)) fun _ ⟨⟨⟨h, hblock⟩, hconditional⟩, hwhile, hfor⟩ => ?_
    exact keeps_begunStatement h.expression hblock hconditional hwhile hfor
  exact eventually_calls hbegun fun _ => keeps_statement hdepth

theorem eventually_serves_above (hdepth : depth < nestingLimit) (hs : below.Leads)
    (hb : ∀ᶠ calls in atTop, Serves tokens (depth + 1) below calls) :
    ∀ᶠ calls in atTop, Serves tokens depth (.above below) calls := by
  filter_upwards [eventually_statement hdepth hs hb, eventually_expression hdepth hb,
    eventually_operation hdepth hs hb, eventually_chain hdepth hs hb]
  intro calls hstatement hexpression hoperation hchain
  exact ⟨hstatement, hexpression, hoperation, hchain⟩

theorem eventually_serves_bottom :
    ∀ᶠ calls in atTop, Serves tokens nestingLimit .bottom calls := by
  have hexpression : ∀ᶠ calls in atTop,
      Keeps tokens nestingLimit (expression calls) Grammar.tooDeep :=
    eventually_calls (eventually_ge_atTop 0) fun _ _ => keeps_expression_limit
  have hstatement : ∀ᶠ calls in atTop,
      Keeps tokens nestingLimit (Parsing.statement calls) Level.bottom.statement :=
    eventually_calls (eventually_ge_atTop 0) fun _ _ => keeps_statement_limit
  have hchain : ∀ᶠ calls in atTop, ∀ least left p c, p.Stands tokens nestingLimit c →
      Follows (operators calls least left) p (Level.bottom.bottomChain least left) c
        (Somewhere tokens) :=
    eventually_calls (eventually_ge_atTop 0) fun _ _ _ _ _ _ => follows_operators_limit
  have hoperand : ∀ᶠ calls in atTop, ∀ least,
      Keeps tokens nestingLimit (operand calls least) bottomOperand :=
    eventually_calls (eventually_primary hexpression
      Level.leads_bottom.shortens_expression) fun _ h _ => keeps_operand_limit h
  have hoperation : ∀ᶠ calls in atTop, ∀ least,
      Keeps tokens nestingLimit (operation calls least) (Level.bottom.operation least) := by
    refine eventually_calls (hoperand.and hchain) fun _ h least => ?_
    rw [bottom_operation_eq]
    exact keeps_operation (h.1 least) (h.2 least)
  filter_upwards [hstatement, hexpression, hoperation, hchain]
  intro calls hstatement hexpression hoperation hchain
  exact ⟨hstatement, hexpression, hoperation, hchain⟩

theorem eventually_serves (n : Nat) :
    ∀ depth, depth + n = nestingLimit →
      ∀ᶠ calls in atTop, Serves tokens depth (.ofDepth n) calls := by
  induction n with
  | zero =>
    rintro depth rfl
    exact eventually_serves_bottom
  | succ n ih =>
    intro depth hdepth
    have hb := ih (depth + 1) (by omega)
    exact eventually_serves_above (by omega) (Level.leads_ofDepth n) hb

theorem eventually_tree : ∀ᶠ calls in atTop, Keeps tokens 0 (tree calls) Grammar.tree :=
  (eventually_serves nestingLimit 0 (Nat.zero_add nestingLimit)).mono fun _ h =>
    (h.statement.bind fun _ => (keeps_expect _).bind fun _ => keeps_pure _).tracked

end Levels

theorem stands_ofTokens {last : Lexeme} (hlast : tokens.getLast? = some last)
    (hend : last.token.kind = .endOfFile) :
    (Parser.ofTokens tokens).Stands tokens 0 ⟨tokens.dropLast, last, false, []⟩ where
  tokens_eq := rfl
  position := Nat.zero_le _
  ahead := rfl
  last := hlast
  ends := hend
  depth_eq := rfl
  limit := Nat.zero_le _
  abandoned := rfl
  diagnostics := rfl
  fine := List.forall_mem_nil _

theorem stands_ofText (text : String) :
    (Parser.ofText text).Stands (Parser.ofText text).tokens 0
      (.ofLexemes (Lexeme.ofText text)) := by
  obtain ⟨ls, position, hlexemes, -⟩ := Lexeme.ofText_eq text
  have htokens : (Parser.ofText text).tokens =
      (ls.filter fun l => !l.isSeparator) ++ [.endOfFile position] := by
    rw [Parser.ofText, hlexemes, List.filter_append]
    rfl
  have hcursor : Cursor.ofLexemes (Lexeme.ofText text) =
      ⟨(Parser.ofText text).tokens.dropLast, .endOfFile position, false, []⟩ := by
    rw [Cursor.ofLexemes, hlexemes, List.dropLast_concat, List.getLast?_concat, htokens,
      List.dropLast_concat]
    rfl
  rw [hcursor]
  exact stands_ofTokens (by rw [htokens, List.getLast?_concat]) rfl

theorem tree_ofText (text : String) :
    ∃ enough, ∀ calls ≥ enough, ∃ p,
      (tree calls).run (.ofText text) = .ok ((Fragment.ofText text).tree, p) ∧
        (Fragment.ofText text).diagnostics =
          Lexeme.diagnostics (Lexeme.ofText text) ++ p.diagnostics := by
  obtain ⟨enough, htree⟩ := Filter.eventually_atTop.mp eventually_tree
  refine ⟨enough, fun calls hcalls => ?_⟩
  obtain ⟨p, hrun, hp⟩ := htree calls hcalls _ _ (stands_ofText text)
  rw [Fragment.ofText_eq]
  exact ⟨p, hrun, by rw [hp.diagnostics]⟩

/-- For any tokens of which the last is the end of the file, reading a tree ends: there are enough
calls for it, and with as many or more of them it gives the tree and the diagnostics of the grammar.
Each token looked at is there, and the position is never behind the end of them. So many levels as
code may be nested deep are open at a time at most, and as many are left as were entered, by each
function and in all. A round of a loop takes the position on, or it is the last. -/
theorem tree_balanced {last : Lexeme} (hlast : tokens.getLast? = some last)
    (hend : last.token.kind = .endOfFile) :
    ∃ enough, ∀ calls ≥ enough, ∃ tree c p,
      Grammar.tree.run ⟨tokens.dropLast, last, false, []⟩ = (tree, c) ∧
        (Parsing.tree calls).run (.ofTokens tokens) = .ok (tree, p) ∧
        p.diagnostics = c.diagnostics ∧ p.depth = 0 ∧ ∀ e ∈ p.events, e.Fine tokens.length := by
  obtain ⟨enough, htree⟩ := Filter.eventually_atTop.mp eventually_tree
  refine ⟨enough, fun calls hcalls => ?_⟩
  obtain ⟨p, hrun, hp⟩ := htree calls hcalls _ _ (stands_ofTokens hlast hend)
  exact ⟨_, _, p, Prod.mk.eta.symm, hrun, hp.diagnostics, hp.depth_eq, hp.fine⟩

/-- Where more is opened than may be nested, reading is given up, and still in balance. -/
theorem tree_balanced_given_up :
    let openParens := (List.range 201).map fun i =>
      (⟨⟨.openParen, ⟨i, 1⟩, "("⟩, none, none⟩ : Lexeme)
    let tokens := openParens ++ [.endOfFile 201]
    tokens.getLast? = some (.endOfFile 201) ∧
      ∃ enough, ∀ calls ≥ enough, ∃ tree p,
        (Parsing.tree calls).run (.ofTokens tokens) = .ok (tree, p) ∧
          p.diagnostics = [⟨⟨199, 1⟩, .nestingTooDeep nestingLimit⟩] ∧ p.depth = 0 ∧
          ∀ e ∈ p.events, e.Fine tokens.length := by
  intro openParens tokens
  have hlast : tokens.getLast? = some (.endOfFile 201) := List.getLast?_concat
  obtain ⟨enough, h⟩ := tree_balanced hlast rfl
  refine ⟨hlast, enough, fun calls hcalls => ?_⟩
  obtain ⟨tree, c, p, htree, hrun, hdiagnostics, hrest⟩ := h calls hcalls
  have hc : c.diagnostics = [⟨⟨199, 1⟩, .nestingTooDeep nestingLimit⟩] := by
    rw [← (Prod.mk.inj htree).2]
    decide +kernel
  exact ⟨tree, p, hrun, hdiagnostics.trans hc, hrest⟩

end Parsing

end ScalarScript
