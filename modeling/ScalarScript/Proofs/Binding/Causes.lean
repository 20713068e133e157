import ScalarScript.Proofs.Tree.Spans
import ScalarScript.Proofs.Typing.Binding

set_option autoImplicit false

namespace ScalarScript

open Binder

def Expression.isNothing : Expression → Bool
  | .name identifier => identifier.isMissing
  | _ => false

/-- The faults that a node can be the cause of, where functions are as `F` says. -/
inductive Node.Causes (F : Function → Prop) : Node → Diagnostic → Prop where
  | undefinedName {t : Token} (h : t.isMissing = false) :
    Causes F (.expression (.name t)) ⟨t.span, .undefinedName t.text⟩
  | undefinedTarget (i q : Token) (e : Expression) :
    Causes F (.expression (.assignment i q e)) ⟨i.span, .undefinedName i.text⟩
  | cannotAssign (i q : Token) (e : Expression) :
    Causes F (.expression (.assignment i q e)) ⟨q.span, .cannotAssign i.text⟩
  | unaryOperator (t : Token) (e : Expression) (type : Ty) :
    Causes F (.expression (.unary t e)) ⟨t.span, .undefinedUnaryOperator t.text type.name⟩
  | binaryOperator (l : Expression) (t : Token) (r : Expression) (left right : Ty) :
    Causes F (.expression (.binary l t r))
      ⟨t.span, .undefinedBinaryOperator t.text left.name right.name⟩
  | undefinedFunction (i o : Token) (es : List Expression) (c : Token) :
    Causes F (.expression (.call i o es c)) ⟨i.span, .undefinedFunction i.text⟩
  | argumentCount (i o : Token) (es : List Expression) (c : Token) (expected actual : Nat) :
    Causes F (.expression (.call i o es c))
      ⟨(Expression.call i o es c).span, .wrongArgumentCount i.text expected actual⟩
  | valueMissing {e : Expression} (h : e.isNothing = false) :
    Causes F (.expression e) ⟨e.span, .expressionMustHaveValue⟩
  | type {e : Expression} (h : e.isNothing = false) (actual target : Ty) :
    Causes F (.expression e) ⟨e.span, .cannotConvert actual.name target.name⟩
  | argumentType {e : Expression} {f : Function} {p : Parameter} (h : e.isNothing = false)
    (hf : F f) (hp : p ∈ f.parameters) (actual : Ty) :
    Causes F (.expression e) ⟨e.span, .wrongArgumentType p.name p.type.name actual.name⟩
  | alreadyDeclared {k i q : Token} {clause : Option TypeClause} {e : Expression}
    (h : i.isMissing = false) :
    Causes F (.statement (.declaration k i clause q e)) ⟨i.span, .variableAlreadyDeclared i.text⟩

def Caused (F : Function → Prop) (n : Node) (ds : List Diagnostic) : Prop :=
  ∀ d ∈ ds, ∃ m, n.Contains m ∧ m.Causes F d

namespace Caused

variable {F : Function → Prop} {n m : Node} {ds ds' : List Diagnostic} {d : Diagnostic} {p : Prop}
  [Decidable p]

@[simp] theorem nil : Caused F n [] := by simp [Caused]

@[simp] theorem append : Caused F n (ds ++ ds') ↔ Caused F n ds ∧ Caused F n ds' :=
  List.forall_mem_append

theorem below (hm : n.Contains m) (h : Caused F m ds) : Caused F n ds := fun d hd =>
  have ⟨m', hm', hcause⟩ := h d hd
  ⟨m', hm.trans hm', hcause⟩

theorem part (hm : m ∈ n.parts) (h : Caused F m ds) : Caused F n ds := h.below (.part hm (.self m))

theorem single (h : n.Causes F d) : Caused F n [d] := by
  intro d' hd
  obtain rfl := List.mem_singleton.mp hd
  exact ⟨n, .self n, h⟩

theorem ite (h : p → n.Causes F d) : Caused F n (if p then [d] else []) := by
  split
  · exact single (h ‹_›)
  · exact nil

end Caused

def ScopeChain.Offers (F : Function → Prop) (chain : ScopeChain) : Prop :=
  ∀ name f, chain.functionNamed? name = some f → F f

section Offers

variable {F : Function → Prop} {scopes : ScopeChain}

theorem ScopeChain.Offers.push (h : scopes.Offers F) : scopes.push.Offers F := h

theorem ScopeChain.Offers.entered (h : scopes.Offers F) (vs : List Variable) (n : Nat) :
    ((scopes.enterAll vs).advance n).Offers F := by
  intro name f hf
  rw [functionNamed?_advance, functionNamed?_enterAll] at hf
  exact h name f hf

theorem Statement.offers_scopesAfter (h : scopes.Offers F) (s : Statement) :
    (s.bind.scopesAfter scopes).Offers F := by
  rw [s.scopesAfter_bind]
  exact h.entered _ _

theorem Statement.offers_loopScopes (h : scopes.Offers F) (identifier : Token) :
    (loopScopes scopes identifier).Offers F := h.push.entered [_] 1

end Offers

namespace Binder

variable {F : Function → Prop} (scopes : ScopeChain) {l r e source : Expression} {left term : Term}
  {i o q c t k : Token} {clause : Option TypeClause} {target : Ty} {es : List Expression}

theorem caused_name : Caused F (.expression (.name t)) ((name t).found scopes) := by
  rw [(yields_name t).found_eq]
  cases hm : t.isMissing with
  | true => exact .nil
  | false =>
    cases scopes.variableNamed? t.text with
    | none => exact .single (.undefinedName hm)
    | some v => exact .nil

theorem caused_assignment (hs : term.type ≠ .error → source.isNothing = false) :
    Caused F (.expression (.assignment i q source))
      ((assignment i q source.span term).found scopes) := by
  have hsource : .expression source ∈ (Node.expression (.assignment i q source)).parts := by
    simp [Node.parts]
  rw [(yields_assignment _ _ _ _).found_eq]
  cases scopes.variableNamed? i.text with
  | none => exact .single (.undefinedTarget i q source)
  | some v =>
    refine Caused.append.mpr ⟨.ite fun _ => .cannotAssign i q source, .part hsource ?_⟩
    exact .ite fun hclash => .type (hs hclash.2.1) _ _

theorem caused_unary : Caused F (.expression (.unary t e)) ((unary t term).found scopes) := by
  rw [(yields_unary _ _).found_eq]
  split
  · exact .nil
  · cases UnaryOperator.find? t.kind term.type with
    | none => exact .single (.unaryOperator t e _)
    | some op => exact .nil

theorem caused_binary :
    Caused F (.expression (.binary l t r)) ((binary left t term).found scopes) := by
  rw [(yields_binary _ _ _).found_eq]
  split
  · exact .nil
  · cases BinaryOperator.find? t.kind left.type term.type with
    | none => exact .single (.binaryOperator l t r _ _)
    | some op => exact .nil

theorem caused_conversion (h : term.type ≠ .error → e.isNothing = false) :
    Caused F (.expression e) ((conversion e.span term target).found scopes) := by
  rw [(yields_conversion _ _ _).found_eq]
  split
  · exact .nil
  · cases Conversion.classify term.type target with
    | none => exact .single (.type (h ‹_›) _ _)
    | explicit | identity => exact .nil

/-- The arguments of a call with their spans: those of the expressions, of which none that is known
to have a type stands for a missing name. -/
def ArgumentsOf (es : List Expression) (arguments : List (Span × Term)) : Prop :=
  List.Forall₂ (fun e a => a.1 = e.span ∧ (a.2.type ≠ .error → e.isNothing = false)) es arguments

variable {arguments : List (Span × Term)}

theorem caused_argumentFaults {n : Node} {f : Function} (hf : F f) {parameters : List Parameter}
    (hp : ∀ p ∈ parameters, p ∈ f.parameters) (ha : ArgumentsOf es arguments)
    (hes : ∀ e ∈ es, .expression e ∈ n.parts) :
    Caused F n (argumentFaults parameters arguments) := by
  induction ha generalizing parameters with
  | nil => cases parameters <;> exact .nil
  | @cons e a es arguments ha hrest ih =>
    cases parameters with
    | nil => exact .nil
    | cons p parameters =>
      obtain ⟨span, argument⟩ := a
      obtain ⟨rfl, hpresent⟩ := ha
      rw [List.forall_mem_cons] at hp hes
      refine Caused.append.mpr ⟨.part hes.1 ?_, ih hp.2 hes.2⟩
      exact .ite fun hne => .argumentType (hpresent hne.2) hf hp.1 _

theorem caused_call (hscopes : scopes.Offers F) (ha : ArgumentsOf es arguments) :
    Caused F (.expression (.call i o es c))
      ((call (Expression.call i o es c).span i arguments).found scopes) := by
  rw [(yields_call _ _ _).found_eq]
  cases hf : scopes.functionNamed? i.text with
  | none => exact .single (.undefinedFunction i o es c)
  | some f =>
    have hname : f.name = i.text := ScopeChain.name_of_functionNamed? hf
    dsimp only
    split
    · rw [hname]
      exact .single (.argumentCount i o es c _ _)
    · exact caused_argumentFaults (hscopes _ f hf) (fun _ => id) ha
        fun e he => by simp [Node.parts, he]

theorem caused_callOrConversion (hscopes : scopes.Offers F) (ha : ArgumentsOf es arguments) :
    Caused F (.expression (.call i o es c))
      ((callOrConversion (Expression.call i o es c).span i arguments).found scopes) := by
  unfold callOrConversion
  split
  · obtain ⟨e, rfl⟩ : ∃ e, es = [e] := List.length_eq_one_iff.mp ha.length_eq
    obtain ⟨⟨rfl, hpresent⟩, -⟩ := List.forall₂_cons.mp ha
    exact .part (by simp [Node.parts]) (caused_conversion scopes hpresent)
  · exact caused_call scopes hscopes ha

theorem caused_declarationFaults (declared : Except Variable Variable) :
    Caused F (.statement (.declaration k i clause q e)) (declarationFaults i declared) := by
  cases declared with
  | ok v => exact .nil
  | error v =>
    rw [declarationFaults]
    cases hm : i.isMissing with
    | true => exact .nil
    | false => exact .single (.alreadyDeclared hm)

end Binder

open Node

section Expressions

variable {F : Function → Prop} {scopes : ScopeChain} {e : Expression}

theorem Expression.isNothing_of_type (h : (e.bind.result scopes).type ≠ .error) :
    e.isNothing = false := by
  cases e with
  | name t =>
    rw [Expression.isNothing]
    cases hm : t.isMissing with
    | false => rfl
    | true => simp [Expression.bind, (yields_name t).result_eq, hm, Term.type] at h
  | _ => rfl

theorem Expression.isNothing_of_type_bindValue (h : (e.bindValue.result scopes).type ≠ .error) :
    e.isNothing = false := by
  have hne : (e.bind.result scopes).type ≠ .error := by
    intro herror
    rw [result_bindValue] at h
    simp [herror] at h
  exact isNothing_of_type hne

theorem Expression.caused_bindValue_of (h : Caused F (.expression e) (e.bind.found scopes)) :
    Caused F (.expression e) (e.bindValue.found scopes) := by
  rw [found_bindValue]
  refine Caused.append.mpr ⟨h, .ite fun hv => .valueMissing ?_⟩
  have hne : (e.bind.result scopes).type ≠ .error := by simp [hv]
  exact isNothing_of_type hne

mutual

theorem Expression.caused_bind (hscopes : scopes.Offers F) : (e : Expression) →
    Caused F (.expression e) (e.bind.found scopes)
  | .literal _ _ => by simp [Expression.bind]
  | .name t => caused_name scopes
  | .unary operator operand => by
    have ho := operand.caused_bindValue hscopes
    rw [Expression.bind_unary, found_bind]
    exact Caused.append.mpr ⟨ho.part (by simp [parts]), caused_unary _⟩
  | .binary left operator right => by
    have hl := left.caused_bindValue hscopes
    have hr := right.caused_bindValue hscopes
    simp only [Expression.bind_binary, found_bind, scopesAfter_still]
    exact Caused.append.mpr ⟨hl.part (by simp [parts]),
      Caused.append.mpr ⟨hr.part (by simp [parts]), caused_binary _⟩⟩
  | .parenthesized _ inner _ => (inner.caused_bind hscopes).part (by simp [parts])
  | .assignment identifier equals source => by
    have hs := source.caused_bindValue hscopes
    rw [Expression.bind_assignment, found_bind]
    exact Caused.append.mpr
      ⟨hs.part (by simp [parts]), caused_assignment _ isNothing_of_type_bindValue⟩
  | .call identifier openParen arguments closeParen => by
    obtain ⟨hfound, hvalues⟩ := Expression.caused_bindAll hscopes arguments
      (n := .expression (.call identifier openParen arguments closeParen))
      fun e he => by simp [parts, he]
    rw [Expression.bind_call, found_bind, scopesAfter_still]
    exact Caused.append.mpr ⟨hfound, caused_callOrConversion _ hscopes hvalues⟩

theorem Expression.caused_bindValue (hscopes : scopes.Offers F) (e : Expression) :
    Caused F (.expression e) (e.bindValue.found scopes) :=
  caused_bindValue_of (e.caused_bind hscopes)

theorem Expression.caused_bindAll {n : Node} (hscopes : scopes.Offers F) :
    (es : List Expression) → (∀ e ∈ es, .expression e ∈ n.parts) →
    Caused F n ((Expression.bindAll es).found scopes) ∧
      ArgumentsOf es ((Expression.bindAll es).result scopes)
  | [], _ => by simp [Expression.bindAll, ArgumentsOf]
  | e :: rest, h => by
    rw [List.forall_mem_cons] at h
    obtain ⟨hfound, hvalues⟩ := Expression.caused_bindAll hscopes rest h.2
    have hfirst := (e.caused_bindValue hscopes).part h.1
    simp only [Expression.bindAll_cons, found_bind, result_bind, scopesAfter_still, found_pure,
      result_pure, List.append_nil]
    refine ⟨Caused.append.mpr ⟨hfirst, hfound⟩, .cons ⟨rfl, ?_⟩ hvalues⟩
    exact isNothing_of_type_bindValue

end

theorem Expression.caused_bindTyped (hscopes : scopes.Offers F) (target : Ty) :
    Caused F (.expression e) ((e.bindTyped target).found scopes) := by
  rw [found_bindTyped]
  refine Caused.append.mpr ⟨e.caused_bindValue hscopes, .ite fun hc => ?_⟩
  exact .type (isNothing_of_type_bindValue hc.2.1) _ _

end Expressions

variable {F : Function → Prop}

mutual

theorem Statement.caused_bind {scopes : ScopeChain} (hscopes : scopes.Offers F) :
    (s : Statement) → Caused F (.statement s) (s.bind.found scopes)
  | .block openBrace statements closeBrace => by
    have hss := Statement.caused_bindAll hscopes.push statements
      (n := .statement (.block openBrace statements closeBrace)) fun s hs => by simp [parts, hs]
    simpa [Statement.bind] using hss
  | .declaration keyword identifier clause equals initializer => by
    have he := initializer.caused_bindValue hscopes
    rw [Statement.found_declaration]
    exact Caused.append.mpr ⟨he.part (by simp [parts]), caused_declarationFaults _⟩
  | .ifThen keyword condition thenStatement => by
    have he := condition.caused_bindTyped hscopes .bool
    have hs := thenStatement.caused_bind hscopes
    simpa [Statement.bind] using ⟨he.part (by simp [parts]), hs.part (by simp [parts])⟩
  | .ifThenElse keyword condition thenStatement elseKeyword elseStatement => by
    have hclause : .elseClause elseKeyword elseStatement ∈ (Node.statement (.ifThenElse keyword
      condition thenStatement elseKeyword elseStatement)).parts := by simp [parts]
    have he := condition.caused_bindTyped hscopes .bool
    have hs := thenStatement.caused_bind hscopes
    have hs' := elseStatement.caused_bind (thenStatement.offers_scopesAfter hscopes)
    simpa [Statement.bind] using ⟨he.part (by simp [parts]), hs.part (by simp [parts]),
      (hs'.part (by simp [parts])).part hclause⟩
  | .whileLoop keyword condition body => by
    have he := condition.caused_bindTyped hscopes .bool
    have hs := body.caused_bind hscopes
    simpa [Statement.bind] using ⟨he.part (by simp [parts]), hs.part (by simp [parts])⟩
  | .forLoop keyword identifier equals lower toKeyword upper body => by
    have he := lower.caused_bindTyped hscopes .int
    have he' := upper.caused_bindTyped hscopes .int
    have hs := body.caused_bind (Statement.offers_loopScopes hscopes identifier)
    rw [Statement.found_forLoop]
    exact Caused.append.mpr ⟨Caused.append.mpr ⟨he.part (by simp [parts]),
      he'.part (by simp [parts])⟩, hs.part (by simp [parts])⟩
  | .expression inner => by
    have he := inner.caused_bind hscopes
    simpa [Statement.bind] using he.part (by simp [parts])

theorem Statement.caused_bindAll {scopes : ScopeChain} {n : Node} (hscopes : scopes.Offers F) :
    (ss : List Statement) → (∀ s ∈ ss, .statement s ∈ n.parts) →
    Caused F n ((Statement.bindAll ss).found scopes)
  | [], _ => by simp [Statement.bindAll]
  | s :: rest, h => by
    rw [List.forall_mem_cons] at h
    have hs := s.caused_bind hscopes
    have hrest := Statement.caused_bindAll (s.offers_scopesAfter hscopes) rest h.2
    simpa [Statement.bindAll] using ⟨hs.part h.1, hrest⟩

end

section Marks

variable {S : Span → Prop}

def Node.Marks (S : Span → Prop) : Node → Prop
  | .expression e => (∀ t ∈ e.heads, S t.span) ∧ (e.isNothing = false → S e.span)
  | .statement (.declaration _ identifier _ _ _) => identifier.isMissing = false → S identifier.span
  | _ => True

def Marked (S : Span → Prop) (ds : List Diagnostic) : Prop :=
  ∀ d ∈ ds, S d.span ∧ d.fault.kind.isSyntactic = false

theorem Node.Causes.isSyntactic_eq_false {n : Node} {d : Diagnostic} (h : n.Causes F d) :
    d.fault.kind.isSyntactic = false := by
  cases h <;> rfl

theorem Node.Causes.at_mark {n : Node} {d : Diagnostic} (h : n.Causes F d) (hn : n.Marks S) :
    S d.span := by
  cases h with
  | undefinedName h => exact hn.2 h
  | undefinedTarget | cannotAssign | unaryOperator | binaryOperator | undefinedFunction =>
    exact hn.1 _ (by simp [Expression.heads])
  | argumentCount => exact hn.2 rfl
  | valueMissing h | type h | argumentType h => exact hn.2 h
  | alreadyDeclared h => exact hn h

theorem Statement.marked_bind (scopes : ScopeChain) (s : Statement)
    (h : (Node.statement s).All (Marks S)) : Marked S (s.bind.found scopes) := by
  intro d hd
  have hscopes : scopes.Offers fun _ => True := fun _ _ _ => trivial
  obtain ⟨m, hm, hcause⟩ := s.caused_bind hscopes d hd
  exact ⟨hcause.at_mark (h m hm), hcause.isSyntactic_eq_false⟩

end Marks

end ScalarScript
