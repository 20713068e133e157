import Mathlib.Data.List.Basic
import ScalarScript.Proofs.Token.Relining
import ScalarScript.Proofs.Tree.Reading

set_option autoImplicit false

namespace ScalarScript

namespace Cursor

def unplaced (c : Cursor) : Cursor :=
  ⟨c.ahead.map Lexeme.unplaced, c.endOfFile.unplaced, c.abandoned,
    c.diagnostics.map Diagnostic.unplaced⟩

variable (c : Cursor)

theorem peek_unplaced (k : Nat) : c.unplaced.peek k = (c.peek k).unplaced := by
  simp only [peek, unplaced, List.getElem?_map]
  cases c.ahead[k]? <;> rfl

@[simp] theorem current_unplaced : c.unplaced.current = c.current.unplaced := c.peek_unplaced 0

@[simp] theorem kind_unplaced : c.unplaced.kind = c.kind := by
  rw [kind, current_unplaced]
  rfl

@[simp] theorem kind_peek_unplaced (k : Nat) :
    (c.unplaced.peek k).token.kind = (c.peek k).token.kind := by
  rw [peek_unplaced]
  rfl

@[simp] theorem length_ahead_unplaced : c.unplaced.ahead.length = c.ahead.length :=
  List.length_map _

theorem advance_unplaced : c.unplaced.advance = c.advance.unplaced := by
  simp [advance, unplaced]

theorem report_unplaced (d : Diagnostic) :
    c.unplaced.report d.unplaced = (c.report d).unplaced := by
  simp [report, unplaced]

end Cursor

namespace Reader

variable {α β : Type} {erase : α → α} {erase' : β → β}

/-- Without places the one reader does what the other does with them, and gives what the other
gives, erased. -/
def Forgets (erase : α → α) (x y : Reader α) : Prop :=
  ∀ c, y.run c.unplaced = (erase (x.run c).1, (x.run c).2.unplaced)

theorem forgets_pure {a b : α} (h : b = erase a) : Forgets erase (pure a) (pure b) :=
  fun c => congrArg (·, c.unplaced) h

theorem Forgets.bind {x y : Reader α} {f g : α → Reader β} (hx : Forgets erase x y)
    (hf : ∀ a, Forgets erase' (f a) (g (erase a))) : Forgets erase' (x >>= f) (y >>= g) := by
  intro c
  change (g (y.run c.unplaced).1).run (y.run c.unplaced).2 = _
  rw [hx c]
  exact hf _ _

theorem forgets_get {f g : Cursor → Reader α} (h : ∀ c, Forgets erase (f c) (g c.unplaced)) :
    Forgets erase (get >>= f) (get >>= g) :=
  fun c => h c c

theorem forgets_kind {f g : TokenKind → Reader α} (h : ∀ kind, Forgets erase (f kind) (g kind)) :
    Forgets erase (kind >>= f) (kind >>= g) := by
  intro c
  change (g c.unplaced.kind).run c.unplaced = _
  rw [c.kind_unplaced]
  exact h c.kind c

theorem forgets_take : Forgets Lexeme.unplaced take take :=
  fun c => Prod.ext c.current_unplaced c.advance_unplaced

theorem forgets_advance : Forgets id (modify Cursor.advance) (modify Cursor.advance) :=
  fun c => Prod.ext rfl c.advance_unplaced

theorem forgets_expect (kind : TokenKind) :
    Forgets Token.unplaced (expect kind) (expect kind) := by
  intro c
  by_cases hk : c.kind = kind
  · rw [run_expect_of_kind hk, run_expect_of_kind (c.kind_unplaced.trans hk), c.advance_unplaced,
      c.current_unplaced]
    rfl
  · rw [run_expect_of_ne hk, run_expect_of_ne (by rwa [c.kind_unplaced]), c.current_unplaced]
    refine Prod.ext rfl ?_
    change (if c.abandoned then c.unplaced else _) = _
    split
    · rfl
    · exact c.report_unplaced ⟨c.current.token.span, _⟩

theorem forgets_abandon (limit : Nat) : Forgets id (abandon limit) (abandon limit) := by
  intro c
  refine Prod.ext rfl ?_
  change (if c.abandoned then c.unplaced else _) = (if c.abandoned then c else _ : Cursor).unplaced
  split
  · rfl
  · have hreport := c.report_unplaced ⟨c.current.token.span, .nestingTooDeep limit⟩
    rw [c.current_unplaced]
    exact congrArg (fun c : Cursor => { c with ahead := [], abandoned := true }) hreport

theorem forgets_missingExpression :
    Forgets Expression.unplaced missingExpression missingExpression :=
  forgets_get fun c => forgets_pure (by rw [c.current_unplaced]; rfl)

end Reader

open Reader

namespace Grammar

section Expressions

variable {expression : Reader Expression}

theorem forgets_argumentsWithin (he : Forgets Expression.unplaced expression expression)
    (fuel : Nat) : Forgets Expression.unplacedAll (argumentsWithin expression fuel)
      (argumentsWithin expression fuel) := by
  induction fuel with
  | zero => exact forgets_pure rfl
  | succ fuel ih =>
    refine forgets_kind fun kind => ?_
    split
    · exact forgets_pure rfl
    · refine he.bind fun argument => forgets_kind fun kind => ?_
      split
      · exact forgets_pure rfl
      · exact forgets_take.bind fun _ => ih.bind fun rest => forgets_pure rfl

theorem forgets_name :
    Forgets Expression.unplaced (do return .name (← expect .identifier))
      (do return .name (← expect .identifier)) :=
  (forgets_expect _).bind fun _ => forgets_pure rfl

theorem forgets_primary (he : Forgets Expression.unplaced expression expression) :
    Forgets Expression.unplaced (primary expression) (primary expression) := by
  refine forgets_get fun c => ?_
  rw [c.kind_unplaced, c.kind_peek_unplaced]
  split
  · exact (forgets_expect _).bind fun openParen => he.bind fun inner =>
      (forgets_expect _).bind fun closeParen => forgets_pure rfl
  · exact forgets_take.bind fun lexeme => forgets_pure rfl
  · exact forgets_take.bind fun lexeme => forgets_pure rfl
  · exact forgets_take.bind fun lexeme => forgets_pure rfl
  · exact forgets_take.bind fun lexeme => forgets_pure rfl
  · split
    · refine (forgets_expect _).bind fun identifier => (forgets_expect _).bind fun openParen =>
        forgets_get fun c => ?_
      rw [c.length_ahead_unplaced]
      exact (forgets_argumentsWithin he _).bind fun arguments =>
        (forgets_expect _).bind fun closeParen => forgets_pure rfl
    · exact forgets_name
  · exact forgets_name

theorem forgets_tooDeep : Forgets Expression.unplaced tooDeep tooDeep :=
  (forgets_abandon _).bind fun _ => forgets_missingExpression

end Expressions

end Grammar

structure Level.Forgetful (l : Level) : Prop where
  statement : Forgets Statement.unplaced l.statement l.statement
  expression : Forgets Expression.unplaced l.expression l.expression
  operation (least : Precedence) :
    Forgets Expression.unplaced (l.operation least) (l.operation least)
  chain (least : Precedence) (left : Expression) :
    Forgets Expression.unplaced (l.chain least left) (l.chain least left.unplaced)

namespace Grammar

variable {below : Level}

theorem forgets_expression (hb : below.Forgetful) :
    Forgets Expression.unplaced (expression below) (expression below) := by
  refine forgets_get fun c => ?_
  rw [c.kind_unplaced, c.kind_peek_unplaced]
  split
  · exact forgets_take.bind fun identifier => forgets_take.bind fun equals =>
      hb.expression.bind fun source => forgets_pure rfl
  · exact hb.operation _

theorem forgets_operand (hb : below.Forgetful) :
    Forgets Expression.unplaced (operand below) (operand below) := by
  refine forgets_kind fun kind => ?_
  split
  · exact forgets_take.bind fun operator => (hb.operation _).bind fun operand => forgets_pure rfl
  · exact forgets_primary (forgets_expression hb)

theorem forgets_chain (hb : below.Forgetful) (least : Precedence) (left : Expression) :
    Forgets Expression.unplaced (chain below least left) (chain below least left.unplaced) := by
  refine forgets_kind fun kind => ?_
  split
  · exact forgets_pure rfl
  · exact forgets_take.bind fun operator => (hb.operation _).bind fun right => hb.chain least _

theorem forgets_statementsWithin {statement : Reader Statement}
    (hs : Forgets Statement.unplaced statement statement) (fuel : Nat) :
    Forgets Statement.unplacedAll (statementsWithin statement fuel)
      (statementsWithin statement fuel) := by
  induction fuel with
  | zero => exact forgets_pure rfl
  | succ fuel ih =>
    refine forgets_kind fun kind => ?_
    split
    · exact forgets_pure rfl
    · refine forgets_get fun before => hs.bind fun first => forgets_get fun c => ?_
      have hrest : Forgets Statement.unplacedAll
          (do return first :: (← statementsWithin statement fuel))
          (do return first.unplaced :: (← statementsWithin statement fuel)) :=
        ih.bind fun rest => forgets_pure rfl
      rw [c.length_ahead_unplaced, before.length_ahead_unplaced]
      split
      · exact forgets_advance.bind fun _ => hrest
      · exact hrest

theorem forgets_typeClause :
    Forgets (Option.map TypeClause.unplaced) typeClause typeClause := by
  refine forgets_kind fun kind => ?_
  split
  · exact forgets_pure rfl
  · exact (forgets_expect _).bind fun colon => (forgets_expect _).bind fun identifier =>
      forgets_pure rfl

theorem forgets_declaration (hb : below.Forgetful) (keyword : TokenKind) :
    Forgets Statement.unplaced (declaration below keyword) (declaration below keyword) :=
  (forgets_expect _).bind fun _ => (forgets_expect _).bind fun _ =>
    forgets_typeClause.bind fun _ => (forgets_expect _).bind fun _ =>
      hb.expression.bind fun _ => forgets_pure rfl

theorem forgets_conditional (hb : below.Forgetful) :
    Forgets Statement.unplaced (conditional below) (conditional below) := by
  refine (forgets_expect _).bind fun ifKeyword => hb.expression.bind fun condition =>
    hb.statement.bind fun thenStatement => forgets_kind fun kind => ?_
  split
  · exact forgets_pure rfl
  · exact (forgets_expect _).bind fun elseKeyword => hb.statement.bind fun elseStatement =>
      forgets_pure rfl

theorem forgets_statement (hb : below.Forgetful) :
    Forgets Statement.unplaced (statement below) (statement below) := by
  refine forgets_kind fun kind => ?_
  split
  · refine (forgets_expect _).bind fun openBrace => forgets_get fun c => ?_
    rw [c.length_ahead_unplaced]
    exact (forgets_statementsWithin hb.statement _).bind fun statements =>
      (forgets_expect _).bind fun closeBrace => forgets_pure rfl
  · exact forgets_declaration hb _
  · exact forgets_declaration hb _
  · exact forgets_conditional hb
  · exact (forgets_expect _).bind fun whileKeyword => hb.expression.bind fun condition =>
      hb.statement.bind fun body => forgets_pure rfl
  · exact (forgets_expect _).bind fun forKeyword => (forgets_expect _).bind fun identifier =>
      (forgets_expect _).bind fun equals => hb.expression.bind fun lower =>
        (forgets_expect _).bind fun toKeyword => hb.expression.bind fun upper =>
          hb.statement.bind fun body => forgets_pure rfl
  · exact hb.expression.bind fun inner => forgets_pure rfl

end Grammar

namespace Level

open Grammar

theorem forgetful_bottom : bottom.Forgetful := by
  have hchain (least : Precedence) (left : Expression) :
      Forgets Expression.unplaced (bottom.bottomChain least left)
        (bottom.bottomChain least left.unplaced) := by
    refine forgets_kind fun kind => ?_
    dsimp only
    split
    · exact (forgets_abandon _).bind fun _ => forgets_pure rfl
    · exact forgets_pure rfl
  refine ⟨forgets_tooDeep.bind fun _ => forgets_pure rfl, forgets_tooDeep, fun least => ?_, hchain⟩
  refine forgets_kind fun kind => ?_
  dsimp only
  split
  · exact forgets_tooDeep.bind fun left => hchain least left
  · exact (forgets_primary forgets_tooDeep).bind fun left => hchain least left

theorem forgetful_ofDepth (n : Nat) : (ofDepth n).Forgetful := by
  induction n with
  | zero => exact forgetful_bottom
  | succ n ih =>
    refine ⟨forgets_statement ih, forgets_expression ih, fun least => ?_, forgets_chain ih⟩
    exact (forgets_operand ih).bind fun left => forgets_chain ih least left

end Level

theorem Grammar.forgets_tree : Forgets Tree.unplaced tree tree :=
  (Level.forgetful_ofDepth nestingLimit).statement.bind fun _ =>
    (forgets_expect _).bind fun _ => forgets_pure rfl

namespace Lexeme

theorem diagnostics_nonblank (text : String) :
    diagnostics (nonblank text) = diagnostics (ofText text) := by
  rw [diagnostics, diagnostics, nonblank, List.filterMap_filter]
  refine List.filterMap_congr fun l hl => ?_
  cases hgap : l.isGap with
  | true => exact ((isGap_iff hl (isSeparator_of_isGap hgap)).mp hgap).symm
  | false => rfl

theorem diagnostics_map_unplaced (ls : List Lexeme) :
    diagnostics (ls.map unplaced) = (diagnostics ls).map Diagnostic.unplaced := by
  rw [diagnostics, diagnostics, List.filterMap_map, List.map_filterMap]
  rfl

end Lexeme

namespace Cursor

open Lexeme

theorem ofLexemes_map_unplaced (ls : List Lexeme) :
    ofLexemes (ls.map Lexeme.unplaced) = (ofLexemes ls).unplaced := by
  have hlast : (ls.map Lexeme.unplaced).getLast?.getD (Lexeme.endOfFile 0) =
      (ls.getLast?.getD (Lexeme.endOfFile 0)).unplaced := by
    rw [List.getLast?_map]
    cases ls.getLast? <;> rfl
  rw [ofLexemes, hlast, ← List.map_dropLast, List.filter_map]
  rfl

theorem ofLexemes_nonblank (text : String) :
    ofLexemes (nonblank text) = ofLexemes (Lexeme.ofText text) := by
  obtain ⟨ls, position, h, -⟩ := ofText_eq text
  have hnonblank : nonblank text = ls.filter (!·.isGap) ++ [Lexeme.endOfFile position] := by
    rw [nonblank, h, List.filter_append]
    rfl
  rw [hnonblank, h, ofLexemes, ofLexemes]
  simp only [List.dropLast_concat, List.getLast?_concat, List.filter_filter]
  congr 1
  refine List.filter_congr fun l _ => ?_
  cases hgap : l.isGap with
  | true => simp [isSeparator_of_isGap hgap]
  | false => simp

end Cursor

namespace Fragment

/-- Two texts are read alike: they have the same lexemes but for whitespace, the same tree and the
same diagnostics in the same order, in everything but the places. -/
structure ReadAlike (text text' : String) : Prop where
  lexemes : (Lexeme.nonblank text').map Lexeme.unplaced = (Lexeme.nonblank text).map Lexeme.unplaced
  tree : (ofText text').tree.unplaced = (ofText text).tree.unplaced
  diagnostics : (ofText text').diagnostics.map Diagnostic.unplaced =
    (ofText text).diagnostics.map Diagnostic.unplaced

/-- What a text is read as follows, but for places, from its lexemes without whitespace and places. -/
theorem unplaced_ofText (text : String) :
    let ls := (Lexeme.nonblank text).map Lexeme.unplaced
    (ofText text).tree.unplaced = (Grammar.tree.run (.ofLexemes ls)).1 ∧
      (ofText text).diagnostics.map Diagnostic.unplaced =
        Lexeme.diagnostics ls ++ (Grammar.tree.run (.ofLexemes ls)).2.diagnostics := by
  have hstart : Cursor.ofLexemes ((Lexeme.nonblank text).map Lexeme.unplaced) =
      (Cursor.ofLexemes (Lexeme.ofText text)).unplaced := by
    rw [Cursor.ofLexemes_map_unplaced, Cursor.ofLexemes_nonblank]
  have hrun := Grammar.forgets_tree (Cursor.ofLexemes (Lexeme.ofText text))
  dsimp only
  rw [hstart, hrun, Lexeme.diagnostics_map_unplaced, Lexeme.diagnostics_nonblank, ofText_eq]
  generalize Grammar.tree.run (Cursor.ofLexemes (Lexeme.ofText text)) = r
  exact ⟨rfl, List.map_append⟩

theorem readAlike_of_sameWords {text text' : String} (h : Lexeme.SameWords text text') :
    ReadAlike text text' := by
  obtain ⟨htree, hdiagnostics⟩ := unplaced_ofText text
  obtain ⟨htree', hdiagnostics'⟩ := unplaced_ofText text'
  rw [Lexeme.SameWords] at h
  rw [h] at htree' hdiagnostics'
  exact ⟨h, htree'.trans htree.symm, hdiagnostics'.trans hdiagnostics.symm⟩

/-- Layout makes no difference: a text is read like that of its tokens on lines of their own, those
of bad characters included, whether or not there is a line for the end of the file as well. -/
theorem readAlike_lines (text : String) :
    ReadAlike text (Lexeme.lines (Lexeme.nonblank text)) ∧
      ReadAlike text (Lexeme.lines (Lexeme.nonblank text).dropLast) :=
  have h := Lexeme.sameWords_lines text
  ⟨readAlike_of_sameWords h.1, readAlike_of_sameWords h.2⟩

end Fragment

end ScalarScript
