import ScalarScript.Tree.Grammar

set_option autoImplicit false

namespace ScalarScript

namespace Reader

variable {α β : Type} {P : α → Prop} {Q : β → Prop}

def Gives (P : α → Prop) (x : Reader α) : Prop := ∀ c, P (x.run c).1

theorem gives_pure {a : α} (h : P a) : Gives P (pure a : Reader α) := fun _ => h

theorem Gives.bind {x : Reader α} {f : α → Reader β} (hx : Gives P x)
    (hf : ∀ a, P a → Gives Q (f a)) : Gives Q (x >>= f) :=
  fun c => hf _ (hx c) _

theorem gives_after {x : Reader α} {f : α → Reader β} (hf : ∀ a, Gives Q (f a)) :
    Gives Q (x >>= f) :=
  fun _ => hf _ _

end Reader

open Reader

namespace Grammar

section Expressions

variable {P Q : Expression → Prop} {expression : Reader Expression}

theorem gives_argumentsWithin (he : Gives P expression) (fuel : Nat) :
    Gives (fun es => ∀ e ∈ es, P e) (argumentsWithin expression fuel) := by
  induction fuel with
  | zero => exact gives_pure (by simp)
  | succ fuel ih =>
    refine gives_after fun kind => ?_
    split
    · exact gives_pure (by simp)
    · refine he.bind fun argument hargument => gives_after fun kind => ?_
      split
      · exact gives_pure (by simpa using hargument)
      · refine gives_after fun comma => ih.bind fun rest hrest => gives_pure ?_
        exact List.forall_mem_cons.mpr ⟨hargument, hrest⟩

theorem gives_primary (he : Gives P expression) (hliteral : ∀ t v, Q (.literal t v))
    (hname : ∀ t, Q (.name t)) (hparenthesized : ∀ o e c, P e → Q (.parenthesized o e c))
    (hcall : ∀ i o es c, (∀ e ∈ es, P e) → Q (.call i o es c)) :
    Gives Q (primary expression) := by
  have hnamed : Gives Q (do return .name (← expect .identifier)) :=
    gives_after fun t => gives_pure (hname t)
  refine gives_after fun c => ?_
  split
  · exact gives_after fun o => he.bind fun e h => gives_after fun c =>
      gives_pure (hparenthesized o e c h)
  · exact gives_after fun _ => gives_pure (hliteral _ _)
  · exact gives_after fun _ => gives_pure (hliteral _ _)
  · exact gives_after fun _ => gives_pure (hliteral _ _)
  · exact gives_after fun _ => gives_pure (hliteral _ _)
  · split
    · exact gives_after fun i => gives_after fun o => gives_after fun _ =>
        (gives_argumentsWithin he _).bind fun es h => gives_after fun c =>
          gives_pure (hcall i o es c h)
    · exact hnamed
  · exact hnamed

theorem gives_tooDeep (hname : ∀ t, Q (.name t)) : Gives Q tooDeep :=
  gives_after fun _ => gives_after fun _ => gives_pure (hname _)

variable {below : Level}

theorem gives_expression (he : Gives P below.expression)
    (hassignment : ∀ i t e, P e → Q (.assignment i t e))
    (hoperation : Gives Q (below.operation .lowest)) : Gives Q (Grammar.expression below) := by
  refine gives_after fun c => ?_
  split
  · exact gives_after fun _ => gives_after fun _ => he.bind fun e h =>
      gives_pure (hassignment _ _ e h)
  · exact hoperation

theorem gives_operand (hoperation : ∀ p, Gives P (below.operation p))
    (hunary : ∀ t e, P e → Q (.unary t e)) (hprimary : Gives Q (primary (Grammar.expression below))) :
    Gives Q (operand below) := by
  refine gives_after fun kind => ?_
  split
  · exact gives_after fun _ => (hoperation _).bind fun e h => gives_pure (hunary _ e h)
  · exact hprimary

theorem gives_chain {least : Precedence} {left : Expression} (hleft : Q left)
    (hoperation : ∀ p, Gives P (below.operation p))
    (hbinary : ∀ t right, P right → Gives Q (below.chain least (.binary left t right))) :
    Gives Q (chain below least left) := by
  refine gives_after fun kind => ?_
  split
  · exact gives_pure hleft
  · exact gives_after fun _ => (hoperation _).bind fun right h => hbinary _ right h

end Expressions

section Statements

variable {S T : Statement → Prop} {E : Expression → Prop} {below : Level}

theorem gives_statementsWithin {statement : Reader Statement} (hs : Gives S statement)
    (fuel : Nat) : Gives (fun ss => ∀ s ∈ ss, S s) (statementsWithin statement fuel) := by
  induction fuel with
  | zero => exact gives_pure (by simp)
  | succ fuel ih =>
    refine gives_after fun kind => ?_
    split
    · exact gives_pure (by simp)
    · refine gives_after fun _ => hs.bind fun first hfirst => gives_after fun _ => ?_
      have hall : Gives (fun ss => ∀ s ∈ ss, S s)
          (do return first :: (← statementsWithin statement fuel)) :=
        ih.bind fun rest hrest => gives_pure (List.forall_mem_cons.mpr ⟨hfirst, hrest⟩)
      split
      · exact gives_after fun _ => hall
      · exact hall

/-- Statements made of statements and expressions with properties have one as well. -/
structure Composes (S : Statement → Prop) (E : Expression → Prop) (T : Statement → Prop) :
    Prop where
  block : ∀ o ss c, (∀ s ∈ ss, S s) → T (.block o ss c)
  declaration : ∀ k i clause t e, E e → T (.declaration k i clause t e)
  ifThen : ∀ k e s, E e → S s → T (.ifThen k e s)
  ifThenElse : ∀ k e s l s', E e → S s → S s' → T (.ifThenElse k e s l s')
  whileLoop : ∀ k e s, E e → S s → T (.whileLoop k e s)
  forLoop : ∀ k i t e l e' s, E e → E e' → S s → T (.forLoop k i t e l e' s)
  expression : ∀ e, E e → T (.expression e)

theorem gives_statement (hs : Gives S below.statement) (he : Gives E below.expression)
    (h : Composes S E T) : Gives T (statement below) := by
  have hdeclaration (keyword : TokenKind) : Gives T (declaration below keyword) :=
    gives_after fun _ => gives_after fun _ => gives_after fun _ => gives_after fun _ =>
      he.bind fun e hinitializer => gives_pure (h.declaration _ _ _ _ e hinitializer)
  refine gives_after fun kind => ?_
  split
  · exact gives_after fun _ => gives_after fun _ => (gives_statementsWithin hs _).bind
      fun ss hss => gives_after fun _ => gives_pure (h.block _ ss _ hss)
  · exact hdeclaration _
  · exact hdeclaration _
  · refine gives_after fun _ => he.bind fun e hcondition => hs.bind fun s hthen =>
      gives_after fun kind => ?_
    split
    · exact gives_pure (h.ifThen _ e s hcondition hthen)
    · exact gives_after fun _ => hs.bind fun s' helse =>
        gives_pure (h.ifThenElse _ e s _ s' hcondition hthen helse)
  · exact gives_after fun _ => he.bind fun e hcondition => hs.bind fun s hbody =>
      gives_pure (h.whileLoop _ e s hcondition hbody)
  · exact gives_after fun _ => gives_after fun _ => gives_after fun _ => he.bind fun e hlower =>
      gives_after fun _ => he.bind fun e' hupper => hs.bind fun s hbody =>
        gives_pure (h.forLoop _ _ _ e _ e' s hlower hupper hbody)
  · exact he.bind fun e hinner => gives_pure (h.expression e hinner)

end Statements

end Grammar

end ScalarScript
