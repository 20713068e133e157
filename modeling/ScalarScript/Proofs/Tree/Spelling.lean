import ScalarScript.Proofs.Tree.Tokens

set_option autoImplicit false

namespace ScalarScript

mutual

inductive Expression.Spelled : Expression → List Token → Prop where
  | literal (token : Token) (value : Value) : Spelled (.literal token value) [token]
  | name (identifier : Token) : Spelled (.name identifier) [identifier]
  | unary {operator : Token} {operand : Expression} {ts : List Token} (h : Spelled operand ts) :
    Spelled (.unary operator operand) (operator :: ts)
  | binary {left : Expression} {operator : Token} {right : Expression} {ts us : List Token}
    (hleft : Spelled left ts) (hright : Spelled right us) :
    Spelled (.binary left operator right) (ts ++ operator :: us)
  | parenthesized {openParen : Token} {inner : Expression} {closeParen : Token} {ts : List Token}
    (h : Spelled inner ts) :
    Spelled (.parenthesized openParen inner closeParen) (openParen :: ts ++ [closeParen])
  | assignment {identifier equals : Token} {source : Expression} {ts : List Token}
    (h : Spelled source ts) : Spelled (.assignment identifier equals source)
      (identifier :: equals :: ts)
  | call {identifier openParen : Token} {arguments : List Expression} {closeParen : Token}
    {ts : List Token} (h : Expression.SpelledAll arguments ts) :
    Spelled (.call identifier openParen arguments closeParen)
      (identifier :: openParen :: ts ++ [closeParen])

inductive Expression.SpelledAll : List Expression → List Token → Prop where
  | nil : SpelledAll [] []
  | single {e : Expression} {ts : List Token} (h : Expression.Spelled e ts) : SpelledAll [e] ts
  | cons {e : Expression} {rest : List Expression} {comma : Token} {ts us : List Token}
    (h : Expression.Spelled e ts) (hcomma : comma.kind = .comma) (hrest : SpelledAll rest us) :
    SpelledAll (e :: rest) (ts ++ comma :: us)

end

mutual

inductive Statement.Spelled : Statement → List Token → Prop where
  | block {openBrace : Token} {statements : List Statement} {closeBrace : Token}
    {ts : List Token} (h : Statement.SpelledAll statements ts) :
    Spelled (.block openBrace statements closeBrace) (openBrace :: ts ++ [closeBrace])
  | declaration {keyword identifier : Token} {clause : Option TypeClause} {equals : Token}
    {initializer : Expression} {ts : List Token} (h : initializer.Spelled ts) :
    Spelled (.declaration keyword identifier clause equals initializer)
      (keyword :: identifier :: clause.toList.flatMap TypeClause.tokens ++ equals :: ts)
  | ifThen {ifKeyword : Token} {condition : Expression} {thenStatement : Statement}
    {ts us : List Token} (hcondition : condition.Spelled ts) (hthen : Spelled thenStatement us) :
    Spelled (.ifThen ifKeyword condition thenStatement) (ifKeyword :: ts ++ us)
  | ifThenElse {ifKeyword : Token} {condition : Expression} {thenStatement : Statement}
    {elseKeyword : Token} {elseStatement : Statement} {ts us vs : List Token}
    (hcondition : condition.Spelled ts) (hthen : Spelled thenStatement us)
    (helse : Spelled elseStatement vs) :
    Spelled (.ifThenElse ifKeyword condition thenStatement elseKeyword elseStatement)
      (ifKeyword :: ts ++ us ++ elseKeyword :: vs)
  | whileLoop {whileKeyword : Token} {condition : Expression} {body : Statement}
    {ts us : List Token} (hcondition : condition.Spelled ts) (hbody : Spelled body us) :
    Spelled (.whileLoop whileKeyword condition body) (whileKeyword :: ts ++ us)
  | forLoop {forKeyword identifier equals : Token} {lower : Expression} {toKeyword : Token}
    {upper : Expression} {body : Statement} {ts us vs : List Token}
    (hlower : lower.Spelled ts) (hupper : upper.Spelled us) (hbody : Spelled body vs) :
    Spelled (.forLoop forKeyword identifier equals lower toKeyword upper body)
      (forKeyword :: identifier :: equals :: ts ++ toKeyword :: us ++ vs)
  | expression {inner : Expression} {ts : List Token} (h : inner.Spelled ts) :
    Spelled (.expression inner) ts

inductive Statement.SpelledAll : List Statement → List Token → Prop where
  | nil : SpelledAll [] []
  | cons {s : Statement} {rest : List Statement} {ts us : List Token}
    (h : Statement.Spelled s ts) (hrest : SpelledAll rest us) : SpelledAll (s :: rest) (ts ++ us)

end

theorem Expression.Spelled.ne_nil {e : Expression} {ts : List Token} (h : e.Spelled ts) :
    ts ≠ [] := by
  cases h <;> simp

theorem Statement.Spelled.ne_nil {s : Statement} {ts : List Token} (h : s.Spelled ts) :
    ts ≠ [] := by
  cases h with
  | expression h => exact h.ne_nil
  | _ => simp

mutual

theorem Expression.Spelled.sublist {e : Expression} {ts : List Token} :
    e.Spelled ts → e.tokens.Sublist ts
  | .literal token _ => .refl [token]
  | .name identifier => .refl [identifier]
  | .unary h => h.sublist.cons_cons _
  | .binary hleft hright => hleft.sublist.append (hright.sublist.cons_cons _)
  | .parenthesized h => (h.sublist.append_right _).cons_cons _
  | .assignment h => (h.sublist.cons_cons _).cons_cons _
  | .call h => ((h.sublist.append_right _).cons_cons _).cons_cons _

theorem Expression.SpelledAll.sublist {es : List Expression} {ts : List Token} :
    Expression.SpelledAll es ts → (Expression.tokensAll es).Sublist ts
  | .nil => .slnil
  | .single h => by simpa [Expression.tokensAll] using h.sublist
  | .cons h _ hrest => h.sublist.append (hrest.sublist.cons _)

end

mutual

theorem Statement.Spelled.sublist {s : Statement} {ts : List Token} :
    s.Spelled ts → s.tokens.Sublist ts
  | .block h => (h.sublist.append_right _).cons_cons _
  | .declaration h => (((h.sublist.cons_cons _).append_left _).cons_cons _).cons_cons _
  | .ifThen hcondition hthen => (hcondition.sublist.append hthen.sublist).cons_cons _
  | .ifThenElse hcondition hthen helse =>
    ((hcondition.sublist.append hthen.sublist).append (helse.sublist.cons_cons _)).cons_cons _
  | .whileLoop hcondition hbody => (hcondition.sublist.append hbody.sublist).cons_cons _
  | .forLoop hlower hupper hbody =>
    (((((hlower.sublist.append (hupper.sublist.cons_cons _)).append
      hbody.sublist).cons_cons _).cons_cons _).cons_cons _)
  | .expression h => h.sublist

theorem Statement.SpelledAll.sublist {ss : List Statement} {ts : List Token} :
    Statement.SpelledAll ss ts → (Statement.tokensAll ss).Sublist ts
  | .nil => .slnil
  | .cons h hrest => h.sublist.append hrest.sublist

end

end ScalarScript
