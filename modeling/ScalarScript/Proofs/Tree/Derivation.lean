import Mathlib.Data.List.Chain
import ScalarScript.Token.Precedence
import ScalarScript.Proofs.Tree.Spelling

/-!
The grammar of fragments as a relation between trees and tokens: a tree is a derivation of the
tokens it spells out, and says which production each of them is due to. There are two grammars,
which differ in whether a comma may stand after the last argument of a call. What is derived with
such commas is derived without them just where no comma stands before a closing parenthesis.
-/

set_option autoImplicit false

namespace ScalarScript

inductive Production where
  | expression
  | joined (level : Nat)
  | operand
  | primary

mutual

/-- The expression is a derivation of the tokens by the production. Operators of one level group to
the left, so that those of the right operand are tighter. -/
inductive Expression.Derives (trailing : Bool) : Production → Expression → List Token → Prop where
  | assignment {identifier equals : Token} {source : Expression} {ts : List Token}
    (hidentifier : identifier.kind = .identifier) (hequals : equals.kind = .equals)
    (h : Derives trailing .expression source ts) :
    Derives trailing .expression (.assignment identifier equals source)
      (identifier :: equals :: ts)
  | expression {e : Expression} {ts : List Token}
    (h : Derives trailing (.joined Precedence.lowest.level) e ts) :
    Derives trailing .expression e ts
  | join {least : Nat} {left : Expression} {operator : Token} {right : Expression} {p : Precedence}
    {ts us : List Token} (hoperator : operator.kind.binaryPrecedence? = some p)
    (hleast : least ≤ p.level) (hleft : Derives trailing (.joined p.level) left ts)
    (hright : Derives trailing (.joined (p.level + 1)) right us) :
    Derives trailing (.joined least) (.binary left operator right) (ts ++ operator :: us)
  | operand {least : Nat} {e : Expression} {ts : List Token} (h : Derives trailing .operand e ts) :
    Derives trailing (.joined least) e ts
  | unary {operator : Token} {operand : Expression} {ts : List Token}
    (hoperator : operator.kind.unaryPrecedence?.isSome)
    (h : Derives trailing .operand operand ts) :
    Derives trailing .operand (.unary operator operand) (operator :: ts)
  | primary {e : Expression} {ts : List Token} (h : Derives trailing .primary e ts) :
    Derives trailing .operand e ts
  | parenthesized {openParen : Token} {inner : Expression} {closeParen : Token} {ts : List Token}
    (hopen : openParen.kind = .openParen) (h : Derives trailing .expression inner ts)
    (hclose : closeParen.kind = .closeParen) :
    Derives trailing .primary (.parenthesized openParen inner closeParen)
      (openParen :: ts ++ [closeParen])
  | boolean {token : Token} (hkind : token.kind = .trueKeyword ∨ token.kind = .falseKeyword) :
    Derives trailing .primary (.literal token (.bool (token.kind == .trueKeyword))) [token]
  | literal {token : Token} (hkind : token.kind = .number ∨ token.kind = .string)
    (value : Value) : Derives trailing .primary (.literal token value) [token]
  | call {identifier openParen : Token} {arguments : List Expression} {closeParen : Token}
    {ts : List Token} (hidentifier : identifier.kind = .identifier)
    (hopen : openParen.kind = .openParen) (h : Expression.DeriveAll trailing arguments ts)
    (hclose : closeParen.kind = .closeParen) :
    Derives trailing .primary (.call identifier openParen arguments closeParen)
      (identifier :: openParen :: ts ++ [closeParen])
  | name {identifier : Token} (hkind : identifier.kind = .identifier) :
    Derives trailing .primary (.name identifier) [identifier]

/-- The arguments of a call: none, or expressions with a comma between any two. If `trailing`, there
may be one after the last as well. -/
inductive Expression.DeriveAll (trailing : Bool) : List Expression → List Token → Prop where
  | nil : DeriveAll trailing [] []
  | last {e : Expression} {ts : List Token} (h : Expression.Derives trailing .expression e ts) :
    DeriveAll trailing [e] ts
  | trailing {e : Expression} {comma : Token} {ts : List Token} (htrailing : trailing = true)
    (h : Expression.Derives trailing .expression e ts) (hcomma : comma.kind = .comma) :
    DeriveAll trailing [e] (ts ++ [comma])
  | cons {e next : Expression} {rest : List Expression} {comma : Token} {ts us : List Token}
    (h : Expression.Derives trailing .expression e ts) (hcomma : comma.kind = .comma)
    (hrest : DeriveAll trailing (next :: rest) us) :
    DeriveAll trailing (e :: next :: rest) (ts ++ comma :: us)

end

def TypeClause.Proper (clause : TypeClause) : Prop :=
  clause.colon.kind = .colon ∧ clause.identifier.kind = .identifier

mutual

inductive Statement.Derives (trailing : Bool) : Statement → List Token → Prop where
  | block {openBrace : Token} {statements : List Statement} {closeBrace : Token}
    {ts : List Token} (hopen : openBrace.kind = .openBrace)
    (h : Statement.DeriveAll trailing statements ts) (hclose : closeBrace.kind = .closeBrace) :
    Derives trailing (.block openBrace statements closeBrace) (openBrace :: ts ++ [closeBrace])
  | declaration {keyword identifier : Token} {clause : Option TypeClause} {equals : Token}
    {initializer : Expression} {ts : List Token}
    (hkeyword : keyword.kind = .letKeyword ∨ keyword.kind = .varKeyword)
    (hidentifier : identifier.kind = .identifier) (hclause : ∀ c ∈ clause, c.Proper)
    (hequals : equals.kind = .equals) (h : initializer.Derives trailing .expression ts) :
    Derives trailing (.declaration keyword identifier clause equals initializer)
      (keyword :: identifier :: clause.toList.flatMap TypeClause.tokens ++ equals :: ts)
  | ifThen {ifKeyword : Token} {condition : Expression} {thenStatement : Statement}
    {ts us : List Token} (hif : ifKeyword.kind = .ifKeyword)
    (hcondition : condition.Derives trailing .expression ts)
    (hthen : Derives trailing thenStatement us) :
    Derives trailing (.ifThen ifKeyword condition thenStatement) (ifKeyword :: ts ++ us)
  | ifThenElse {ifKeyword : Token} {condition : Expression} {thenStatement : Statement}
    {elseKeyword : Token} {elseStatement : Statement} {ts us vs : List Token}
    (hif : ifKeyword.kind = .ifKeyword) (hcondition : condition.Derives trailing .expression ts)
    (hthen : Derives trailing thenStatement us) (helse : elseKeyword.kind = .elseKeyword)
    (hotherwise : Derives trailing elseStatement vs) :
    Derives trailing (.ifThenElse ifKeyword condition thenStatement elseKeyword elseStatement)
      (ifKeyword :: ts ++ us ++ elseKeyword :: vs)
  | whileLoop {whileKeyword : Token} {condition : Expression} {body : Statement}
    {ts us : List Token} (hwhile : whileKeyword.kind = .whileKeyword)
    (hcondition : condition.Derives trailing .expression ts) (hbody : Derives trailing body us) :
    Derives trailing (.whileLoop whileKeyword condition body) (whileKeyword :: ts ++ us)
  | forLoop {forKeyword identifier equals : Token} {lower : Expression} {toKeyword : Token}
    {upper : Expression} {body : Statement} {ts us vs : List Token}
    (hfor : forKeyword.kind = .forKeyword) (hidentifier : identifier.kind = .identifier)
    (hequals : equals.kind = .equals) (hlower : lower.Derives trailing .expression ts)
    (hto : toKeyword.kind = .toKeyword) (hupper : upper.Derives trailing .expression us)
    (hbody : Derives trailing body vs) :
    Derives trailing (.forLoop forKeyword identifier equals lower toKeyword upper body)
      (forKeyword :: identifier :: equals :: ts ++ toKeyword :: us ++ vs)
  | expression {inner : Expression} {ts : List Token} (h : inner.Derives trailing .expression ts) :
    Derives trailing (.expression inner) ts

inductive Statement.DeriveAll (trailing : Bool) : List Statement → List Token → Prop where
  | nil : DeriveAll trailing [] []
  | cons {s : Statement} {rest : List Statement} {ts us : List Token}
    (h : Statement.Derives trailing s ts) (hrest : DeriveAll trailing rest us) :
    DeriveAll trailing (s :: rest) (ts ++ us)

end

inductive Tree.Derives (trailing : Bool) : Tree → List Token → Prop where
  | whole {statement : Statement} {endOfFile : Token} {ts : List Token}
    (h : statement.Derives trailing ts) (hend : endOfFile.kind = .endOfFile) :
    Derives trailing ⟨statement, endOfFile⟩ (ts ++ [endOfFile])

variable {trailing : Bool}

mutual

theorem Expression.Derives.spelled {production : Production} {e : Expression} {ts : List Token} :
    e.Derives trailing production ts → e.Spelled ts
  | .assignment _ _ h => .assignment h.spelled
  | .expression h => h.spelled
  | .join _ _ hleft hright => .binary hleft.spelled hright.spelled
  | .operand h => h.spelled
  | .unary _ h => .unary h.spelled
  | .primary h => h.spelled
  | .parenthesized _ h _ => .parenthesized h.spelled
  | .boolean _ => .literal _ _
  | .literal _ _ => .literal _ _
  | .call _ _ h _ => .call h.spelled
  | .name _ => .name _

theorem Expression.DeriveAll.spelled {es : List Expression} {ts : List Token} :
    Expression.DeriveAll trailing es ts → Expression.SpelledAll es ts
  | .nil => .nil
  | .last h => .single h.spelled
  | .trailing _ h hcomma => .cons h.spelled hcomma .nil
  | .cons h hcomma hrest => .cons h.spelled hcomma hrest.spelled

end

mutual

theorem Statement.Derives.spelled {s : Statement} {ts : List Token} :
    s.Derives trailing ts → s.Spelled ts
  | .block _ h _ => .block h.spelled
  | .declaration _ _ _ _ h => .declaration h.spelled
  | .ifThen _ hcondition hthen => .ifThen hcondition.spelled hthen.spelled
  | .ifThenElse _ hcondition hthen _ hotherwise =>
    .ifThenElse hcondition.spelled hthen.spelled hotherwise.spelled
  | .whileLoop _ hcondition hbody => .whileLoop hcondition.spelled hbody.spelled
  | .forLoop _ _ _ hlower _ hupper hbody => .forLoop hlower.spelled hupper.spelled hbody.spelled
  | .expression h => .expression h.spelled

theorem Statement.DeriveAll.spelled {ss : List Statement} {ts : List Token} :
    Statement.DeriveAll trailing ss ts → Statement.SpelledAll ss ts
  | .nil => .nil
  | .cons h hrest => .cons h.spelled hrest.spelled

end

namespace Expression.Derives

variable {e : Expression} {ts : List Token} {least : Nat}

theorem joined_mono {more : Nat} (hle : least ≤ more) (h : e.Derives trailing (.joined more) ts) :
    e.Derives trailing (.joined least) ts := by
  cases h with
  | join hoperator hmore hleft hright => exact .join hoperator (hle.trans hmore) hleft hright
  | operand h => exact .operand h

theorem operand_of_joined (hleast : Precedence.unary.level ≤ least)
    (h : e.Derives trailing (.joined least) ts) : e.Derives trailing .operand ts := by
  cases h with
  | join hoperator hp _ _ =>
    exact absurd (TokenKind.binaryPrecedence?_bounds hoperator).2 (by omega)
  | operand h => exact h

end Expression.Derives

/-- The token is a comma and the next one closes a parenthesis. -/
def Token.Dangles (t next : Token) : Prop := t.kind = .comma ∧ next.kind = .closeParen

instance (t next : Token) : Decidable (t.Dangles next) :=
  inferInstanceAs (Decidable (_ ∧ _))

def Undangling (ts : List Token) : Prop := ts.IsChain fun t next => ¬t.Dangles next

instance (ts : List Token) : Decidable (Undangling ts) :=
  inferInstanceAs (Decidable (ts.IsChain _))

namespace Undangling

variable {t : Token} {ts us : List Token}

theorem tail (h : Undangling (t :: ts)) : Undangling ts := List.IsChain.tail h

theorem left (h : Undangling (ts ++ us)) : Undangling ts := List.IsChain.left_of_append h

theorem right (h : Undangling (ts ++ us)) : Undangling us := List.IsChain.right_of_append h

end Undangling

mutual

/-- Where no comma stands before a closing parenthesis, none was derived after a last argument. -/
theorem Expression.Derives.strict {production : Production} {e : Expression} {ts : List Token} :
    e.Derives trailing production ts → Undangling ts → e.Derives false production ts
  | .assignment hidentifier hequals h, hts =>
    .assignment hidentifier hequals (h.strict hts.tail.tail)
  | .expression h, hts => .expression (h.strict hts)
  | .join hoperator hleast hleft hright, hts =>
    .join hoperator hleast (hleft.strict hts.left) (hright.strict hts.right.tail)
  | .operand h, hts => .operand (h.strict hts)
  | .unary hoperator h, hts => .unary hoperator (h.strict hts.tail)
  | .primary h, hts => .primary (h.strict hts)
  | .parenthesized hopen h hclose, hts => .parenthesized hopen (h.strict hts.left.tail) hclose
  | .boolean hkind, _ => .boolean hkind
  | .literal hkind value, _ => .literal hkind value
  | .call hidentifier hopen h hclose, hts =>
    .call hidentifier hopen (h.strict hclose hts.tail.tail) hclose
  | .name hkind, _ => .name hkind

theorem Expression.DeriveAll.strict {es : List Expression} {closeParen : Token} {ts : List Token}
    (hclose : closeParen.kind = .closeParen) : Expression.DeriveAll trailing es ts →
      Undangling (ts ++ [closeParen]) → Expression.DeriveAll false es ts
  | .nil, _ => .nil
  | .last h, hts => .last (h.strict hts.left)
  | .trailing _ h hcomma, hts => by
    rw [List.append_assoc] at hts
    exact absurd ⟨hcomma, hclose⟩ (List.isChain_pair.mp hts.right)
  | .cons h hcomma hrest, hts => by
    rw [List.append_assoc, List.cons_append] at hts
    exact .cons (h.strict hts.left) hcomma (hrest.strict hclose hts.right.tail)

end

mutual

theorem Statement.Derives.strict {s : Statement} {ts : List Token} :
    s.Derives trailing ts → Undangling ts → s.Derives false ts
  | .block hopen h hclose, hts => .block hopen (h.strict hts.left.tail) hclose
  | .declaration hkeyword hidentifier hclause hequals h, hts =>
    .declaration hkeyword hidentifier hclause hequals (h.strict hts.right.tail)
  | .ifThen hif hcondition hthen, hts =>
    .ifThen hif (hcondition.strict hts.left.tail) (hthen.strict hts.right)
  | .ifThenElse hif hcondition hthen helse hotherwise, hts =>
    .ifThenElse hif (hcondition.strict hts.left.left.tail) (hthen.strict hts.left.right) helse
      (hotherwise.strict hts.right.tail)
  | .whileLoop hwhile hcondition hbody, hts =>
    .whileLoop hwhile (hcondition.strict hts.left.tail) (hbody.strict hts.right)
  | .forLoop hfor hidentifier hequals hlower hto hupper hbody, hts =>
    .forLoop hfor hidentifier hequals (hlower.strict hts.left.left.tail.tail.tail) hto
      (hupper.strict hts.left.right.tail) (hbody.strict hts.right)
  | .expression h, hts => .expression (h.strict hts)

theorem Statement.DeriveAll.strict {ss : List Statement} {ts : List Token} :
    Statement.DeriveAll trailing ss ts → Undangling ts → Statement.DeriveAll false ss ts
  | .nil, _ => .nil
  | .cons h hrest, hts => .cons (h.strict hts.left) (hrest.strict hts.right)

end

def Token.Neutral (t : Token) : Prop := t.kind ≠ .closeParen ∧ t.kind ≠ .comma

/-- No comma stands before a closing parenthesis, nor does one if more such tokens are put before or
behind these. -/
structure Settled (ts : List Token) : Prop where
  head : ∀ t ∈ ts.head?, t.kind ≠ .closeParen
  last : ∀ t ∈ ts.getLast?, t.kind ≠ .comma
  undangling : Undangling ts

namespace Settled

variable {t : Token} {ts us : List Token}

theorem nil : Settled [] := ⟨nofun, nofun, .nil⟩

theorem single (h : t.Neutral) : Settled [t] :=
  ⟨by simpa using h.1, by simpa using h.2, .singleton t⟩

theorem append (h : Settled ts) (h' : Settled us) : Settled (ts ++ us) where
  head t ht := by
    rw [List.head?_append] at ht
    cases hts : ts.head? with
    | none => exact h'.head t (by simpa [hts] using ht)
    | some u => exact h.head t (by simpa [hts] using ht)
  last t ht := by
    rw [List.getLast?_append] at ht
    cases hus : us.getLast? with
    | none => exact h.last t (by simpa [hus] using ht)
    | some u => exact h'.last t (by simpa [hus] using ht)
  undangling := h.undangling.append h'.undangling fun t ht _ _ hdangles => h.last t ht hdangles.1

theorem cons (ht : t.Neutral) (h : Settled ts) : Settled (t :: ts) := (single ht).append h

theorem concat (h : Settled (t :: ts)) {close : Token} (hclose : close.kind ≠ .comma) :
    Settled (t :: ts ++ [close]) where
  head u hu := h.head u hu
  last u hu := by
    rw [List.getLast?_concat, Option.mem_some_iff] at hu
    exact hu ▸ hclose
  undangling := h.undangling.append (.singleton close) fun u hu _ _ hdangles =>
    h.last u hu hdangles.1

theorem comma {comma : Token} (hcomma : comma.kind = .comma) (hts : ts ≠ []) (h : Settled ts) :
    Settled (comma :: ts) where
  head u hu := by
    cases hu
    simp [hcomma]
  last u hu := h.last u (by rwa [List.getLast?_cons_of_ne_nil hts] at hu)
  undangling := h.undangling.cons fun u hu hdangles => h.head u hu hdangles.2

end Settled

namespace Token.Neutral

variable {t : Token}

theorem of_kind {kind : TokenKind} (ht : t.kind = kind)
    (h : kind ≠ .closeParen ∧ kind ≠ .comma) : t.Neutral := by
  rwa [Token.Neutral, ht]

theorem of_binary {p : Precedence} (h : t.kind.binaryPrecedence? = some p) : t.Neutral := by
  constructor <;> intro hk <;> simp [hk, TokenKind.binaryPrecedence?] at h

theorem of_unary (h : t.kind.unaryPrecedence?.isSome) : t.Neutral := by
  constructor <;> intro hk <;> simp [hk, TokenKind.unaryPrecedence?] at h

end Token.Neutral

open Token.Neutral

theorem Expression.DeriveAll.comma {e : Expression} {es : List Expression} {comma : Token}
    {ts us : List Token} (h : e.Derives true .expression ts) (hcomma : comma.kind = .comma)
    (hrest : Expression.DeriveAll true es us) :
    Expression.DeriveAll true (e :: es) (ts ++ comma :: us) := by
  cases es with
  | nil =>
    cases hrest
    exact .trailing rfl h hcomma
  | cons next rest => exact .cons h hcomma hrest

theorem Expression.DeriveAll.ne_nil {e : Expression} {es : List Expression} {ts : List Token}
    (h : Expression.DeriveAll trailing (e :: es) ts) : ts ≠ [] := by
  cases h with
  | last h => exact h.spelled.ne_nil
  | trailing _ _ _ => simp
  | cons _ _ _ => simp

mutual

/-- The grammar without commas after last arguments derives none before a closing parenthesis. -/
theorem Expression.Derives.settled {production : Production} {e : Expression} {ts : List Token} :
    e.Derives false production ts → Settled ts
  | .assignment hidentifier hequals h =>
    .cons (of_kind hidentifier (by decide)) (.cons (of_kind hequals (by decide)) h.settled)
  | .expression h => h.settled
  | .join hoperator _ hleft hright =>
    hleft.settled.append (.cons (of_binary hoperator) hright.settled)
  | .operand h => h.settled
  | .unary hoperator h => .cons (of_unary hoperator) h.settled
  | .primary h => h.settled
  | .parenthesized hopen h hclose =>
    .concat (.cons (of_kind hopen (by decide)) h.settled) (by simp [hclose])
  | .boolean hkind => .single (hkind.elim (of_kind · (by decide)) (of_kind · (by decide)))
  | .literal hkind _ => .single (hkind.elim (of_kind · (by decide)) (of_kind · (by decide)))
  | .call hidentifier hopen h hclose =>
    .concat (.cons (of_kind hidentifier (by decide)) (.cons (of_kind hopen (by decide)) h.settled))
      (by simp [hclose])
  | .name hkind => .single (of_kind hkind (by decide))

theorem Expression.DeriveAll.settled {es : List Expression} {ts : List Token} :
    Expression.DeriveAll false es ts → Settled ts
  | .nil => .nil
  | .last h => h.settled
  | .trailing htrailing _ _ => nomatch htrailing
  | .cons h hcomma hrest => h.settled.append (.comma hcomma hrest.ne_nil hrest.settled)

end

theorem TypeClause.settled {clause : Option TypeClause} (h : ∀ c ∈ clause, c.Proper) :
    Settled (clause.toList.flatMap TypeClause.tokens) := by
  cases clause with
  | none => exact .nil
  | some clause =>
    obtain ⟨hcolon, hidentifier⟩ := h clause rfl
    exact .cons (of_kind hcolon (by decide)) (.single (of_kind hidentifier (by decide)))

mutual

theorem Statement.Derives.settled {s : Statement} {ts : List Token} :
    s.Derives false ts → Settled ts
  | .block hopen h hclose =>
    .append (.cons (of_kind hopen (by decide)) h.settled) (.single (of_kind hclose (by decide)))
  | .declaration hkeyword hidentifier hclause hequals h =>
    have hhead := hkeyword.elim (of_kind · (by decide)) (of_kind · (by decide))
    have hname := Settled.cons (of_kind hidentifier (by decide)) (TypeClause.settled hclause)
    (hname.cons hhead).append (.cons (of_kind hequals (by decide)) h.settled)
  | .ifThen hif hcondition hthen =>
    .append (.cons (of_kind hif (by decide)) hcondition.settled) hthen.settled
  | .ifThenElse hif hcondition hthen helse hotherwise =>
    have hfirst := Settled.cons (of_kind hif (by decide)) hcondition.settled
    (hfirst.append hthen.settled).append (.cons (of_kind helse (by decide)) hotherwise.settled)
  | .whileLoop hwhile hcondition hbody =>
    .append (.cons (of_kind hwhile (by decide)) hcondition.settled) hbody.settled
  | .forLoop hfor hidentifier hequals hlower hto hupper hbody =>
    have hequation := Settled.cons (of_kind hidentifier (by decide))
      (.cons (of_kind hequals (by decide)) hlower.settled)
    have hbounds := (hequation.cons (of_kind hfor (by decide))).append
      (.cons (of_kind hto (by decide)) hupper.settled)
    hbounds.append hbody.settled
  | .expression h => h.settled

theorem Statement.DeriveAll.settled {ss : List Statement} {ts : List Token} :
    Statement.DeriveAll false ss ts → Settled ts
  | .nil => .nil
  | .cons h hrest => h.settled.append hrest.settled

end

namespace Tree.Derives

variable {tree : Tree} {ts : List Token}

theorem of_statement (h : tree.statement.Derives trailing ts)
    (hend : tree.endOfFile.kind = .endOfFile) : tree.Derives trailing (ts ++ [tree.endOfFile]) :=
  .whole h hend

theorem settled : tree.Derives false ts → Settled ts
  | .whole h hend => h.settled.append (.single (of_kind hend (by decide)))

/-- What is derived with commas after last arguments is derived without them just where no comma
stands before a closing parenthesis. -/
theorem strict_iff (h : tree.Derives trailing ts) : tree.Derives false ts ↔ Undangling ts := by
  refine ⟨fun h => h.settled.undangling, fun hts => ?_⟩
  obtain ⟨h, hend⟩ := h
  exact .whole (h.strict hts.left) hend

end Tree.Derives

end ScalarScript
