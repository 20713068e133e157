import ScalarScript.Proofs.Tree.Course
import ScalarScript.Proofs.Tree.Nodes

/-!
How operators group. The operators of a chain are taken as long as they are tighter than a bound;
each takes what was read before it as its left operand, and only tighter ones into its right
operand. This also holds where operands are missing and where reading was given up, since then no
operator follows.
-/

set_option autoImplicit false

namespace ScalarScript

namespace Expression

def IsOperand : Expression → Prop
  | .binary _ _ _ | .assignment _ _ _ => False
  | _ => True

def Joins (least : Nat) : Expression → Prop
  | .binary _ operator _ => ∃ p, operator.kind.binaryPrecedence? = some p ∧ least ≤ p.level
  | .assignment _ _ _ => False
  | _ => True

variable {e : Expression} {least : Nat}

theorem IsOperand.joins (h : e.IsOperand) (least : Nat) : e.Joins least := by
  cases e with
  | binary => cases h
  | assignment => cases h
  | _ => trivial

/-- No operator between two operands is tighter than one in front of an operand. -/
theorem Joins.isOperand (h : e.Joins (Precedence.unary.level + 1)) : e.IsOperand := by
  cases e with
  | binary left operator right =>
    obtain ⟨p, hp, hle⟩ := h
    have hlt := (TokenKind.binaryPrecedence?_bounds hp).2
    omega
  | assignment => cases h
  | _ => trivial

end Expression

namespace Node

/-- The operator in front of an operand has an operand alone; the one between two operands joins
them, the left one by operators as tight as itself or tighter, the right one by tighter ones. -/
def Grouped : Node → Prop
  | .expression (.unary _ operand) => operand.IsOperand
  | .expression (.binary left operator right) =>
    ∃ p, operator.kind.binaryPrecedence? = some p ∧ left.Joins p.level ∧
      right.Joins (p.level + 1)
  | _ => True

def wholes : Node → List Expression
  | .expression (.parenthesized _ e _) => [e]
  | .expression (.assignment _ _ e) => [e]
  | .expression (.call _ _ es _) => es
  | .statement (.declaration _ _ _ _ e) => [e]
  | .statement (.ifThen _ e _) => [e]
  | .statement (.ifThenElse _ e _ _ _) => [e]
  | .statement (.whileLoop _ e _) => [e]
  | .statement (.forLoop _ _ _ e _ e' _) => [e, e']
  | .statement (.expression e) => [e]
  | _ => []

variable {n : Node}

theorem Grouped.mem_wholes (h : n.Grouped) {i q : Token} {e : Expression}
    (ha : .expression (.assignment i q e) ∈ n.parts) : .assignment i q e ∈ n.wholes := by
  cases n with
  | token | typeClause | elseClause | tree => simp [parts] at ha
  | statement s => cases s <;> simp_all [parts, wholes]
  | expression e' =>
    cases e' with
    | unary t operand =>
      obtain rfl : .assignment i q e = operand := by simpa [parts] using ha
      exact h.elim
    | binary l t r =>
      obtain ⟨p, -, hl, hr⟩ := h
      obtain rfl | rfl : .assignment i q e = l ∨ .assignment i q e = r := by
        simpa [parts] using ha
      · cases hl
      · cases hr
    | _ => simp_all [parts, wholes]

@[simp] theorem all_grouped_token (t : Token) : (token t).All Grouped := all_token trivial

theorem all_grouped_typeClause (clause : TypeClause) : (typeClause clause).All Grouped :=
  .of_parts trivial (by simp [parts])

theorem all_grouped_elseClause {s : Statement} (h : (statement s).All Grouped) (t : Token) :
    (elseClause t s).All Grouped := .of_parts trivial (by simp [parts, h])

end Node

open Node Grammar

structure Cursor.Ends (c : Cursor) : Prop where
  last : c.endOfFile.token.kind = .endOfFile
  abandoned : c.abandoned = true → c.ahead = []

namespace Cursor.Ends

variable {c c' : Cursor}

theorem giveUp (h : c.Ends) : c.giveUp.Ends ∧ c.giveUp.kind = .endOfFile := by
  rw [Cursor.giveUp]
  split
  · rename_i ha
    refine ⟨h, ?_⟩
    rw [kind, current, peek, h.abandoned ha]
    exact h.last
  · exact ⟨⟨h.last, fun _ => rfl⟩, h.last⟩

theorem step (hc : c.Ends) (h : Step c c') : c'.Ends := by
  cases h with
  | advance => exact ⟨hc.last, fun ha => by rw [Cursor.advance, hc.abandoned ha, List.drop_nil]⟩
  | lacking kind =>
    rw [lacking]
    split
    · exact hc
    · exact ⟨hc.last, hc.abandoned⟩
  | giveUp => exact hc.giveUp.1

theorem steps (hc : c.Ends) (h : Steps c c') : c'.Ends := h.keeps (fun _ _ h hc => hc.step h) hc

theorem advance (hc : c.Ends) : c.advance.Ends := hc.step (.advance c)

theorem ofText (text : String) : (ofLexemes (Lexeme.ofText text)).Ends :=
  ⟨(sound_ofText text).last, nofun⟩

end Cursor.Ends

/-- All is grouped in the expression, which joins operands by operators tighter than `least`, and
behind which no such operator stands. -/
structure Expression.Gathers (least : Precedence) (e : Expression) (c : Cursor) : Prop where
  all : (Node.expression e).All Grouped
  joins : e.Joins (least.level + 1)
  exhausted : operatorAbove? least c.kind = none

/-- How the expression is grouped that the passage reads. An expression that was read before the
operators of a chain must be such that the next of them can join it to what follows. -/
def Passage.Groups (c : Cursor) (e : Expression) (c' : Cursor) : Passage → Prop
  | .expression => (Node.expression e).All Grouped
  | .operation least => e.Gathers least c'
  | .chain least left => (Node.expression left).All Grouped → left.Joins (least.level + 1) →
    (∀ p, operatorAbove? least c.kind = some p → left.Joins p.level) → e.Gathers least c'
  | .operand | .primary => (Node.expression e).All Grouped ∧ e.IsOperand

mutual

theorem Expression.Read.groups {p : Passage} {e : Expression} {c c' : Cursor} :
    e.Read p c c' → c.Ends → p.Groups c e c'
  | .tooDeep c h, _ => by
    have hname : (Node.expression c.nothing).All Grouped :=
      .of_parts trivial (by simp [parts, Cursor.nothing])
    rcases h with rfl | rfl
    · exact hname
    · exact ⟨hname, trivial⟩
  | .assignment _ _ h, hc => by
    have he : (Node.expression _).All Grouped := h.groups hc.advance.advance
    exact .of_parts trivial (by simp [parts, he])
  | .expression h, hc => (h.groups hc).all
  | .operation hleft h, hc => by
    obtain ⟨hall, hoperand⟩ := hleft.groups hc
    exact h.groups (hc.steps hleft.steps) hall (hoperand.joins _) fun p _ => hoperand.joins _
  | .done h, _ => fun hall hjoins _ => ⟨hall, hjoins, h⟩
  | .cut left c, hc => fun hall hjoins _ => ⟨hall, hjoins, by rw [hc.giveUp.2]; rfl⟩
  | .more hp hright h, hc => by
    intro hall _ hnext
    obtain ⟨hbinary, hleast⟩ := operatorAbove?_some hp
    have hr := hright.groups hc.advance
    -- operators of the right operand are tighter, the next one is not
    have hnode : (Node.expression (.binary _ c.current.token _)).All Grouped :=
      .of_parts ⟨_, hbinary, hnext _ hp, hr.joins⟩ (by simp [parts, hall, hr.all])
    exact h.groups (hc.advance.steps hright.steps) hnode ⟨_, hbinary, hleast⟩ fun q hq =>
      ⟨_, hbinary, level_le_of_operatorAbove? hr.exhausted hq⟩
  | .unary hp h, hc => by
    have ho : Expression.Gathers .unary _ _ := unaryPrecedence?_level hp ▸ h.groups hc.advance
    exact ⟨.of_parts ho.joins.isOperand (by simp [parts, ho.all]), trivial⟩
  | .primary h, hc => h.groups hc
  | .parenthesized _ h _, hc => by
    have he : (Node.expression _).All Grouped := h.groups hc.advance
    exact ⟨.of_parts trivial (by simp [parts, he]), trivial⟩
  | .literal _ _, _ => ⟨.of_parts trivial (by simp [parts]), trivial⟩
  | .call _ _ h _, hc => by
    have hes := h.groups hc.advance.advance
    exact ⟨.of_parts trivial (by simpa [parts, or_imp, forall_and] using hes), trivial⟩
  | .name _, _ => ⟨.of_parts trivial (by simp [parts]), trivial⟩

theorem Expression.ReadAll.groups {es : List Expression} {c c' : Cursor} :
    ReadAll c es c' → c.Ends → ∀ e ∈ es, (Node.expression e).All Grouped
  | .nil _, _ => by simp
  | .last h, hc => List.forall_mem_singleton.mpr (h.groups hc)
  | .cons h _ hrest, hc =>
    List.forall_mem_cons.mpr ⟨h.groups hc, hrest.groups (hc.steps h.steps).advance⟩

end

mutual

theorem Statement.Read.groups {s : Statement} {c c' : Cursor} :
    s.Read c c' → c.Ends → (Node.statement s).All Grouped
  | .block _ h _, hc => by
    have hss := h.groups hc.advance
    exact .of_parts trivial (by simpa [parts, or_imp, forall_and] using hss)
  | .declaration _ hidentifier hclause hequals h, hc => by
    have hc₁ := hc.advance.steps hidentifier.steps
    have he : (Node.expression _).All Grouped :=
      h.groups ((hc₁.steps hclause.steps).steps hequals.steps)
    exact .of_parts trivial (by simp [parts, or_imp, forall_and, all_grouped_typeClause, he])
  | .ifThen _ hcondition hthen, hc => by
    have he : (Node.expression _).All Grouped := hcondition.groups hc.advance
    have hs := hthen.groups (hc.advance.steps hcondition.steps)
    exact .of_parts trivial (by simp [parts, he, hs])
  | .ifThenElse _ hcondition hthen _ hother, hc => by
    have hc₁ := hc.advance.steps hcondition.steps
    have he : (Node.expression _).All Grouped := hcondition.groups hc.advance
    have hs := hthen.groups hc₁
    have hs' := hother.groups (hc₁.steps hthen.steps).advance
    exact .of_parts trivial (by simp [parts, he, hs, all_grouped_elseClause hs'])
  | .whileLoop _ hcondition hbody, hc => by
    have he : (Node.expression _).All Grouped := hcondition.groups hc.advance
    have hs := hbody.groups (hc.advance.steps hcondition.steps)
    exact .of_parts trivial (by simp [parts, he, hs])
  | .forLoop _ hidentifier hequals hlower hto hupper hbody, hc => by
    have hc₁ := (hc.advance.steps hidentifier.steps).steps hequals.steps
    have hc₂ := (hc₁.steps hlower.steps).steps hto.steps
    have he : (Node.expression _).All Grouped := hlower.groups hc₁
    have he' : (Node.expression _).All Grouped := hupper.groups hc₂
    have hs := hbody.groups (hc₂.steps hupper.steps)
    exact .of_parts trivial (by simp [parts, he, he', hs])
  | .expression h, hc => by
    have he : (Node.expression _).All Grouped := h.groups hc
    exact .of_parts trivial (by simp [parts, he])

theorem Statement.ReadAll.groups {ss : List Statement} {c c' : Cursor} :
    ReadAll c ss c' → c.Ends → ∀ s ∈ ss, (Node.statement s).All Grouped
  | .nil _, _ => by simp
  | .cons h hrest, hc =>
    List.forall_mem_cons.mpr ⟨h.groups hc, hrest.groups (hc.steps h.steps)⟩
  | .skip h hrest, hc =>
    List.forall_mem_cons.mpr ⟨h.groups hc, hrest.groups (hc.steps h.steps).advance⟩

end

theorem Tree.Read.all_grouped {tree : Tree} {c c' : Cursor} (hc : c.Ends) (h : tree.Read c c') :
    (Node.tree tree).All Grouped := by
  obtain ⟨h, -⟩ := h
  exact .of_parts trivial (by simp [parts, h.groups hc])

namespace Fragment

/-- In the tree of any text, operators group by precedence, and assignments are operands of none:
they are whole expressions of what they are part of. -/
theorem grouped_by_precedence (text : String) {n : Node}
    (h : (Node.tree (ofText text).tree).Contains n) :
    n.Grouped ∧
      ∀ i q e, .expression (.assignment i q e) ∈ n.parts → .assignment i q e ∈ n.wholes := by
  obtain ⟨c, htree, -⟩ := exists_read text
  have hgrouped := htree.all_grouped (.ofText text) n h
  exact ⟨hgrouped, fun i q e => hgrouped.mem_wholes⟩

theorem grouped_by_precedence_unfinished :
    ∃ one two plus asterisk : Token,
      (Node.tree (ofText "1 + 2 *").tree).Contains (.expression (.binary (.literal one (.int 1)) plus
        (.binary (.literal two (.int 2)) asterisk (.name (.missing .identifier 7))))) ∧
      (Node.expression (.binary (.literal one (.int 1)) plus
        (.binary (.literal two (.int 2)) asterisk (.name (.missing .identifier 7))))).Grouped := by
  have hstatement : (ofText "1 + 2 *").tree.statement =
      .expression (.binary (.literal ⟨.number, ⟨0, 1⟩, "1"⟩ (.int 1)) ⟨.plus, ⟨2, 1⟩, "+"⟩
        (.binary (.literal ⟨.number, ⟨4, 1⟩, "2"⟩ (.int 2)) ⟨.asterisk, ⟨6, 1⟩, "*"⟩
          (.name (.missing .identifier 7)))) := by rfl
  have hcontains := Tree.contains_expression hstatement
  exact ⟨_, _, _, _, hcontains, (grouped_by_precedence _ hcontains).1⟩

end Fragment

end ScalarScript
