import ScalarScript.Proofs.Token.Braceless
import ScalarScript.Proofs.Tree.Spans

set_option autoImplicit false

namespace ScalarScript

open Text (Braceless)

def Node.quoted : Node → List Token
  | .expression (.name t) => [t]
  | .expression (.unary t _) => [t]
  | .expression (.binary _ t _) => [t]
  | .expression (.assignment i _ _) => [i]
  | .expression (.call i _ _ _) => [i]
  | .statement (.declaration _ i _ _ _) => [i]
  | _ => []

def Node.Quotable (n : Node) : Prop := ∀ t ∈ n.quoted, Braceless t.text.toList

namespace Cursor

variable {c c' : Cursor}

/-- Of the tokens still to be read, only those of certain kinds have braces in them. -/
def Braceless (c : Cursor) : Prop :=
  ∀ t ∈ c.words, t.kind.hasBraces = false → Text.Braceless t.text.toList

namespace Braceless

theorem ofText (text : String) : (ofLexemes (Lexeme.ofText text)).Braceless := by
  intro t ht hkind
  rw [← Lexeme.words_eq, Lexeme.words] at ht
  obtain ⟨l, hl, rfl⟩ := List.mem_map.mp ht
  exact Lexeme.braceless_text (List.mem_filter.mp hl).1 hkind

theorem steps (hc : c.Braceless) (h : Steps c c') : c'.Braceless :=
  fun t ht => hc t (h.words_suffix.subset ht)

theorem advance (hc : c.Braceless) : c.advance.Braceless := hc.steps (steps_advance c)

theorem current (hc : c.Braceless) (h : c.kind.hasBraces = false) :
    Text.Braceless c.current.token.text.toList := hc _ c.current_mem_words h

end Braceless

end Cursor

theorem Token.braceless_missing (kind : TokenKind) (position : Nat) :
    Braceless (missing kind position).text.toList := Braceless.nil

theorem Token.Expected.braceless {kind : TokenKind} {t : Token} {c c' : Cursor}
    (hkind : kind.hasBraces = false) (hc : c.Braceless) :
    t.Expected kind c c' → Braceless t.text.toList
  | .found h => hc.current (h ▸ hkind)
  | .missing _ => braceless_missing kind c.start

theorem TokenKind.hasBraces_of_unaryPrecedence? {kind : TokenKind} {p : Precedence}
    (h : kind.unaryPrecedence? = some p) : kind.hasBraces = false := by
  cases kind <;> first | rfl | cases h

theorem Grammar.hasBraces_of_operatorAbove? {kind : TokenKind} {least p : Precedence}
    (h : operatorAbove? least kind = some p) : kind.hasBraces = false := by
  cases kind <;> first | rfl | cases h

namespace Node

theorem quotable_token (t : Token) : (token t).All Quotable := all_token (List.forall_mem_nil _)

theorem quotable_typeClause (clause : TypeClause) : (typeClause clause).All Quotable :=
  .of_parts (List.forall_mem_nil _) (by simp [parts, quotable_token])

theorem quotable_name {t : Token} (h : Braceless t.text.toList) :
    (expression (.name t)).All Quotable :=
  .of_parts (List.forall_mem_singleton.mpr h) (by simp [parts, quotable_token])

end Node

open Node

def Passage.Quotable (e : Expression) : Passage → Prop
  | .chain _ left =>
    (Node.expression left).All Node.Quotable → (Node.expression e).All Node.Quotable
  | _ => (Node.expression e).All Node.Quotable

mutual

theorem Expression.Read.quotable {p : Passage} {e : Expression} {c c' : Cursor} :
    e.Read p c c' → c.Braceless → p.Quotable e
  | .tooDeep c h, _ => by
    have hnothing : (expression c.nothing).All Quotable :=
      quotable_name (Token.braceless_missing _ _)
    rcases h with rfl | rfl <;> exact hnothing
  | .assignment hidentifier hequals h, hc => by
    have hi := hc.current (by rw [hidentifier]; rfl)
    have hs : (expression _).All Quotable := h.quotable hc.advance.advance
    exact All.of_parts (List.forall_mem_singleton.mpr hi) (by simpa [parts, quotable_token] using hs)
  | .expression h, hc => h.quotable hc
  | .operation hleft h, hc => h.quotable (hc.steps hleft.steps) (hleft.quotable hc)
  | .done _, _ => id
  | .cut _ _, _ => id
  | .more hp hright h, hc => fun hl => by
    have ht := hc.current (Grammar.hasBraces_of_operatorAbove? hp)
    have hr := hright.quotable hc.advance
    refine h.quotable (hc.advance.steps hright.steps) ?_
    refine All.of_parts (List.forall_mem_singleton.mpr ht) ?_
    simpa [parts, quotable_token] using ⟨hl, hr⟩
  | .unary hp h, hc => by
    have ht := hc.current (TokenKind.hasBraces_of_unaryPrecedence? hp)
    have ho : (expression _).All Quotable := h.quotable hc.advance
    exact All.of_parts (List.forall_mem_singleton.mpr ht) (by simpa [parts, quotable_token] using ho)
  | .primary h, hc => h.quotable hc
  | .parenthesized hopen h _, hc => by
    have hinner : (expression _).All Quotable := h.quotable hc.advance
    exact All.of_parts (List.forall_mem_nil _) (by simpa [parts, quotable_token] using hinner)
  | .literal _ _, _ => All.of_parts (List.forall_mem_nil _) (by simp [parts, quotable_token])
  | .call hidentifier _ h _, hc => by
    have hi := hc.current (by rw [hidentifier]; rfl)
    have harguments := h.quotable hc.advance.advance
    refine All.of_parts (List.forall_mem_singleton.mpr hi) ?_
    simpa [parts, quotable_token, or_imp, forall_and] using harguments
  | .name h, hc => quotable_name (h.braceless rfl hc)

theorem Expression.ReadAll.quotable {es : List Expression} {c c' : Cursor} :
    ReadAll c es c' → c.Braceless → ∀ e ∈ es, (expression e).All Quotable
  | .nil _, _ => List.forall_mem_nil _
  | .last h, hc => List.forall_mem_singleton.mpr (h.quotable hc)
  | .cons h _ hrest, hc => List.forall_mem_cons.mpr
    ⟨h.quotable hc, hrest.quotable (hc.steps h.steps).advance⟩

end

mutual

theorem Statement.Read.quotable {s : Statement} {c c' : Cursor} :
    s.Read c c' → c.Braceless → (statement s).All Quotable
  | .block _ h _, hc => by
    have hstatements := h.quotable hc.advance
    refine All.of_parts (List.forall_mem_nil _) ?_
    simpa [parts, quotable_token, or_imp, forall_and] using hstatements
  | .declaration _ hidentifier hclause hequals h, hc => by
    have hi := hidentifier.braceless rfl hc.advance
    have he : (Node.expression _).All Quotable := h.quotable
      (((hc.advance.steps hidentifier.steps).steps hclause.steps).steps hequals.steps)
    refine All.of_parts (List.forall_mem_singleton.mpr hi) ?_
    simpa [parts, quotable_token, quotable_typeClause, or_imp, forall_and] using he
  | .ifThen _ hcondition hthen, hc => by
    have he := hcondition.quotable hc.advance
    have hs := hthen.quotable (hc.advance.steps hcondition.steps)
    exact All.of_parts (List.forall_mem_nil _) (by simpa [parts, quotable_token] using ⟨he, hs⟩)
  | .ifThenElse _ hcondition hthen _ hother, hc => by
    have hc₁ := hc.advance.steps hcondition.steps
    have he := hcondition.quotable hc.advance
    have hs := hthen.quotable hc₁
    have hs' := hother.quotable (hc₁.steps hthen.steps).advance
    have hclause (t : Token) : (elseClause t _).All Quotable :=
      All.of_parts (List.forall_mem_nil _) (by simpa [parts, quotable_token] using hs')
    refine All.of_parts (List.forall_mem_nil _) ?_
    simpa [parts, quotable_token] using ⟨he, hs, hclause _⟩
  | .whileLoop _ hcondition hbody, hc => by
    have he := hcondition.quotable hc.advance
    have hs := hbody.quotable (hc.advance.steps hcondition.steps)
    exact All.of_parts (List.forall_mem_nil _) (by simpa [parts, quotable_token] using ⟨he, hs⟩)
  | .forLoop _ hidentifier hequals hlower hto hupper hbody, hc => by
    have hc₂ := (hc.advance.steps hidentifier.steps).steps hequals.steps
    have hc₄ := (hc₂.steps hlower.steps).steps hto.steps
    have he := hlower.quotable hc₂
    have he' := hupper.quotable hc₄
    have hs := hbody.quotable (hc₄.steps hupper.steps)
    refine All.of_parts (List.forall_mem_nil _) ?_
    simpa [parts, quotable_token] using ⟨he, he', hs⟩
  | .expression h, hc => by
    have he : (Node.expression _).All Quotable := h.quotable hc
    exact All.of_parts (List.forall_mem_nil _) (by simpa [parts] using he)

theorem Statement.ReadAll.quotable {ss : List Statement} {c c' : Cursor} :
    ReadAll c ss c' → c.Braceless → ∀ s ∈ ss, (statement s).All Quotable
  | .nil _, _ => List.forall_mem_nil _
  | .cons h hrest, hc => List.forall_mem_cons.mpr
    ⟨h.quotable hc, hrest.quotable (hc.steps h.steps)⟩
  | .skip h hrest, hc => List.forall_mem_cons.mpr
    ⟨h.quotable hc, hrest.quotable (hc.steps h.steps).advance⟩

end

end ScalarScript
