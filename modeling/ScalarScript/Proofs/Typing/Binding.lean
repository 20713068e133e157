import ScalarScript.Proofs.Typing.Typed
import ScalarScript.Proofs.Binding.Scoping
import ScalarScript.Proofs.Scope.Alike
import ScalarScript.Proofs.Tree.Tokens

set_option autoImplicit false

namespace ScalarScript

open Binder

structure Excused (P : Prop) (ts : List Token) (faults : List Diagnostic) : Prop where
  missing : ¬Present ts → P
  faulty : faults ≠ [] → P

theorem Excused.part {P : Prop} {ts us : List Token} {faults some : List Diagnostic}
    (h : Excused P ts faults) (ht : us ⊆ ts) (hf : some ⊆ faults) : Excused P us some where
  missing hus := h.missing fun hts => hus fun t hmem => hts t (ht hmem)
  faulty hne := h.faulty fun he => hne (List.eq_nil_of_subset_nil (he ▸ hf))

/-- What a stack of scopes has to be for the terms bound in it to be well typed. Variables that are
hidden by others do not matter. -/
structure ScopeChain.Typed (P : Prop) (chain : ScopeChain) : Prop where
  visible : ∀ name v, chain.variableNamed? name = some v → v.Typed P
  native : chain.Native

variable {P : Prop} {scopes : ScopeChain}

namespace ScopeChain.Typed

theorem push (h : scopes.Typed P) : scopes.push.Typed P := ⟨h.visible, h.native.push⟩

theorem enterAll (h : scopes.Typed P) {vs : List Variable} (hv : ∀ v ∈ vs, v.Typed P) (n : Nat) :
    ((scopes.enterAll vs).advance n).Typed P where
  visible name v hfound := by
    rw [variableNamed?_advance, variableNamed?_enterAll] at hfound
    split at hfound
    · exact h.visible name v hfound
    · rcases Option.or_eq_some_iff.mp hfound with hfound | ⟨-, hfound⟩
      · exact hv v (List.mem_of_find?_eq_some hfound)
      · exact h.visible name v hfound
  native := (h.native.enterAll vs).advance n

end ScopeChain.Typed

theorem typed_name (h : scopes.Typed P) (t : Token)
    (he : Excused P [t] ((name t).found scopes)) : ((name t).result scopes).Typed P := by
  rw [(yields_name t).found_eq] at he
  rw [(yields_name t).result_eq]
  cases hm : t.isMissing with
  | true => exact .error (he.missing (by simp [hm]))
  | false =>
    cases hv : scopes.variableNamed? t.text with
    | none => exact .error (he.faulty (by simp [hm, hv]))
    | some v => exact .variable (h.visible _ v hv)

theorem typed_assignment (h : scopes.Typed P) (identifier equals : Token) (span : Span)
    {source : Term} (hs : source.Typed P) (value : source.type ≠ .void) :
    ((assignment identifier equals span source).result scopes).Typed P := by
  rw [(yields_assignment _ _ _ _).result_eq]
  cases hv : scopes.variableNamed? identifier.text with
  | none => exact hs
  | some v =>
    have hvt := h.visible _ v hv
    dsimp only
    split
    · exact hs
    · rename_i hc
      have excused := not_clash_iff.mp hc
      refine .assignment hvt hs value (fun hne => ?_) excused
      rcases excused with heq | hse | hve
      · exact absurd heq hne
      · exact hs.excuse hse
      · exact hvt.2 hve

theorem typed_unary (operator : Token) {operand : Term} (ho : operand.Typed P)
    (he : (unary operator operand).found scopes ≠ [] → P) :
    ((unary operator operand).result scopes).Typed P := by
  rw [(yields_unary _ _).found_eq] at he
  rw [(yields_unary _ _).result_eq]
  by_cases ht : operand.type = .error
  · rw [if_pos ht]
    exact .error (ho.excuse ht)
  · rw [if_neg ht] at he ⊢
    cases hop : UnaryOperator.find? operator.kind operand.type with
    | none => exact .error (he (by simp [hop]))
    | some op => exact .unary ho hop

theorem typed_binary (operator : Token) {left right : Term} (hl : left.Typed P)
    (hr : right.Typed P) (he : (binary left operator right).found scopes ≠ [] → P) :
    ((binary left operator right).result scopes).Typed P := by
  rw [(yields_binary _ _ _).found_eq] at he
  rw [(yields_binary _ _ _).result_eq]
  by_cases ht : left.type = .error ∨ right.type = .error
  · rw [if_pos ht]
    rcases ht with ht | ht
    · exact .error (hl.excuse ht)
    · exact .error (hr.excuse ht)
  · rw [if_neg ht] at he ⊢
    cases hop : BinaryOperator.find? operator.kind left.type right.type with
    | none => exact .error (he (by simp [hop]))
    | some op => exact .binary hl hr hop

theorem typed_conversion (span : Span) {source : Term} (target : Ty) (hs : source.Typed P)
    (he : (conversion span source target).found scopes ≠ [] → P) :
    ((conversion span source target).result scopes).Typed P := by
  rw [(yields_conversion _ _ _).found_eq] at he
  rw [(yields_conversion _ _ _).result_eq]
  by_cases ht : source.type = .error
  · rw [if_pos ht]
    exact .error (hs.excuse ht)
  · rw [if_neg ht] at he ⊢
    cases hc : Conversion.classify source.type target with
    | none => exact .error (he (by simp [hc]))
    | identity => exact hs
    | explicit => exact .conversion hs hc

theorem types_of_argumentFaults {parameters : List Parameter} {arguments : List (Span × Term)}
    (hn : arguments.length = parameters.length)
    (ht : ∀ a ∈ arguments, a.2.type ≠ .error) (hf : argumentFaults parameters arguments = []) :
    (arguments.map Prod.snd).map Term.type = parameters.map Parameter.type := by
  induction parameters generalizing arguments with
  | nil => simp [List.length_eq_zero_iff.mp hn]
  | cons p parameters ih =>
    match arguments with
    | [] => cases hn
    | (span, argument) :: arguments =>
      simp only [argumentFaults, List.append_eq_nil_iff] at hf
      simp only [List.mem_cons, forall_eq_or_imp] at ht
      have hp : argument.type = p.type := by
        have hf := hf.1
        split at hf
        · cases hf
        · rename_i hc
          exact Decidable.byContradiction fun hne => hc ⟨hne, ht.1⟩
      have hrest := ih (by simpa using hn) ht.2 hf.2
      simp only [List.map_cons, hp, hrest]

theorem typed_call (h : scopes.Typed P) (span : Span) (identifier : Token)
    {arguments : List (Span × Term)} (ha : ∀ a ∈ arguments, a.2.Typed P)
    (he : (call span identifier arguments).found scopes ≠ [] → P) :
    ((call span identifier arguments).result scopes).Typed P := by
  rw [(yields_call _ _ _).found_eq] at he
  rw [(yields_call _ _ _).result_eq]
  cases hf : scopes.functionNamed? identifier.text with
  | none => exact .error (he (by simp [hf]))
  | some f =>
    simp only [hf] at he
    dsimp only
    split
    · rename_i agree
      refine .call (h.native.mem_builtins hf) (fun a hmem => ?_) agree
      obtain ⟨argument, hargument, rfl⟩ := List.mem_map.mp hmem
      exact ha argument hargument
    · rename_i disagree
      refine .error (Classical.byContradiction fun hP => ?_)
      split at he
      · exact hP (he (by simp))
      · rename_i hn
        refine disagree (types_of_argumentFaults (Decidable.not_not.mp hn)
          (fun a hmem ht => hP ((ha a hmem).excuse ht)) ?_)
        exact Decidable.byContradiction fun hne => hP (he hne)

theorem typed_callOrConversion (h : scopes.Typed P) (span : Span) (identifier : Token)
    {arguments : List (Span × Term)} (ha : ∀ a ∈ arguments, a.2.Typed P)
    (he : (callOrConversion span identifier arguments).found scopes ≠ [] → P) :
    ((callOrConversion span identifier arguments).result scopes).Typed P := by
  unfold callOrConversion at he ⊢
  split at he
  · exact typed_conversion _ _ (ha _ (List.mem_singleton_self _)) he
  · exact typed_call h _ _ ha he

theorem Expression.result_bindValue (e : Expression) :
    e.bindValue.result scopes =
      if (e.bind.result scopes).type = .void then .error else e.bind.result scopes := by
  simp [bindValue, (yields_requireValue _ _).result_eq]

theorem Expression.found_bindValue (e : Expression) :
    e.bindValue.found scopes = e.bind.found scopes ++
      if (e.bind.result scopes).type = .void then [⟨e.span, .expressionMustHaveValue⟩] else [] := by
  simp [bindValue, (yields_requireValue _ _).found_eq]

theorem Expression.type_bindValue (e : Expression) :
    (e.bindValue.result scopes).type ≠ .void := by
  rw [result_bindValue]
  split
  · simp [Term.type]
  · assumption

theorem Expression.typed_bindValue_of {e : Expression} (he : (e.bind.result scopes).Typed P)
    (hf : e.bindValue.found scopes ≠ [] → P) : (e.bindValue.result scopes).Typed P := by
  rw [found_bindValue] at hf
  rw [result_bindValue]
  split
  · rename_i hv
    exact .error (hf (by simp [hv]))
  · exact he

mutual

theorem Expression.typed_bind (h : scopes.Typed P) : (e : Expression) →
    Excused P e.tokens (e.bind.found scopes) → (e.bind.result scopes).Typed P
  | .literal _ value, _ => .literal value
  | .name identifier, he => typed_name h identifier he
  | .unary operator operand, he => by
    rw [Expression.bind_unary] at he ⊢
    rw [found_bind, scopesAfter_still] at he
    have ho := operand.typed_bindValue h (he.part (by simp [Expression.tokens]) (by simp))
    rw [result_bind, scopesAfter_still]
    exact typed_unary operator ho (fun hne => he.faulty (by simp [hne]))
  | .binary left operator right, he => by
    rw [Expression.bind_binary] at he ⊢
    simp only [found_bind, scopesAfter_still] at he
    have hl := left.typed_bindValue h (he.part (by simp [Expression.tokens]) (by simp))
    have hr := right.typed_bindValue h (he.part (by simp [Expression.tokens]) (by simp))
    simp only [result_bind, scopesAfter_still]
    exact typed_binary operator hl hr (fun hne => he.faulty (by simp [hne]))
  | .parenthesized _ inner _, he => by
    rw [Expression.bind] at he ⊢
    exact inner.typed_bind h (he.part (by simp [Expression.tokens]) (List.Subset.refl _))
  | .assignment identifier equals source, he => by
    rw [Expression.bind_assignment] at he ⊢
    rw [found_bind, scopesAfter_still] at he
    have hs := source.typed_bindValue h (he.part (by simp [Expression.tokens]) (by simp))
    rw [result_bind, scopesAfter_still]
    exact typed_assignment h identifier equals source.span hs source.type_bindValue
  | .call identifier openParen arguments closeParen, he => by
    rw [Expression.bind_call] at he ⊢
    rw [found_bind, scopesAfter_still] at he
    have ha := Expression.typed_bindAll h arguments
      (he.part (fun t ht => by simp [Expression.tokens, ht]) (by simp))
    rw [result_bind, scopesAfter_still]
    exact typed_callOrConversion h _ _ ha (fun hne => he.faulty (by simp [hne]))

theorem Expression.typed_bindValue (h : scopes.Typed P) (e : Expression)
    (he : Excused P e.tokens (e.bindValue.found scopes)) : (e.bindValue.result scopes).Typed P :=
  have hb := e.typed_bind h
    (he.part (List.Subset.refl _) (by rw [Expression.found_bindValue]; simp))
  Expression.typed_bindValue_of hb he.faulty

theorem Expression.typed_bindAll (h : scopes.Typed P) : (es : List Expression) →
    Excused P (Expression.tokensAll es) ((Expression.bindAll es).found scopes) →
    ∀ a ∈ (Expression.bindAll es).result scopes, a.2.Typed P
  | [], _ => by simp [Expression.bindAll]
  | e :: rest, he => by
    rw [Expression.bindAll_cons] at he ⊢
    simp only [found_bind, scopesAfter_still] at he
    have hv := e.typed_bindValue h (he.part (by simp [Expression.tokensAll]) (by simp))
    have hr := Expression.typed_bindAll h rest
      (he.part (by simp [Expression.tokensAll]) (by simp))
    simp only [result_bind, scopesAfter_still, result_pure, List.mem_cons, forall_eq_or_imp]
    exact ⟨hv, hr⟩

end

theorem Expression.typed_bindTyped (h : scopes.Typed P) (e : Expression) (target : Ty)
    (ht : target ≠ .error) (he : Excused P e.tokens ((e.bindTyped target).found scopes)) :
    (e.bindValue.result scopes).Typed P ∧ ((e.bindValue.result scopes).type ≠ target → P) := by
  rw [Expression.found_bindTyped] at he
  have hv := e.typed_bindValue h (he.part (List.Subset.refl _) (by simp))
  refine ⟨hv, fun hne => ?_⟩
  by_cases hc : Clash (e.bindValue.result scopes).type target
  · exact he.faulty (by simp [hc])
  · rcases not_clash_iff.mp hc with hc | hc | hc
    · exact absurd hc hne
    · exact hv.excuse hc
    · exact absurd hc ht

theorem ScopeChain.Typed.loopScopes (h : scopes.Typed P) (identifier : Token) :
    (Statement.loopScopes scopes identifier).Typed P := by
  rw [loopScopes_eq]
  exact h.push.enterAll (by simp [Variable.Typed, ScopeChain.fresh]) 1

theorem ScopeChain.Typed.scopesAfter_bind (h : scopes.Typed P) {s : Statement}
    (hs : (s.bind.result scopes).Typed P) : (s.bind.scopesAfter scopes).Typed P := by
  rw [s.scopesAfter_bind]
  exact h.enterAll (fun v hv => hs.declared v ((Action.leaked_sublist_declared _).subset hv)) _

mutual

theorem Statement.typed_bind {scopes : ScopeChain} (h : scopes.Typed P) : (s : Statement) →
    Excused P s.tokens (s.bind.found scopes) → (s.bind.result scopes).Typed P
  | .block openBrace statements closeBrace, he => by
    have found_eq : (Statement.block openBrace statements closeBrace).bind.found scopes =
        (Statement.bindAll statements).found scopes.push := by simp [Statement.bind]
    rw [found_eq] at he
    have ha := Statement.typed_bindAll h.push statements
      (he.part (fun t ht => by simp [Statement.tokens, ht]) (List.Subset.refl _))
    simp only [Statement.bind, result_bind, result_inNewScope, result_pure]
    exact .block ha
  | .declaration keyword identifier clause equals initializer, he => by
    rw [Statement.found_declaration] at he
    have hi := initializer.typed_bindValue h
      (he.part (fun t ht => by simp [Statement.tokens, ht]) (by simp))
    rw [Statement.result_declaration]
    exact .declaration hi initializer.type_bindValue rfl
  | .ifThen _ condition thenStatement, he => by
    simp only [Statement.bind, found_bind, scopesAfter_still, found_pure, List.append_nil] at he
    obtain ⟨hc, hb⟩ := condition.typed_bindTyped h .bool (by decide)
      (he.part (fun t ht => by simp [Statement.tokens, ht]) (List.subset_append_left _ _))
    have ht := thenStatement.typed_bind h
      (he.part (fun t ht => by simp [Statement.tokens, ht]) (List.subset_append_right _ _))
    simp only [Statement.bind, result_bind, scopesAfter_still, result_pure,
      Expression.result_bindTyped]
    exact .ifThen hc condition.type_bindValue hb ht
  | .ifThenElse _ condition thenStatement _ elseStatement, he => by
    simp only [Statement.bind, found_bind, scopesAfter_still, found_pure, List.append_nil] at he
    obtain ⟨hc, hb⟩ := condition.typed_bindTyped h .bool (by decide)
      (he.part (fun t ht => by simp [Statement.tokens, ht]) (by simp))
    have ht := thenStatement.typed_bind h
      (he.part (fun t ht => by simp [Statement.tokens, ht]) (by simp))
    have hel := elseStatement.typed_bind (h.scopesAfter_bind ht)
      (he.part (fun t ht => by simp [Statement.tokens, ht]) (by simp))
    simp only [Statement.bind, result_bind, scopesAfter_still, result_pure,
      Expression.result_bindTyped]
    exact .ifThenElse hc condition.type_bindValue hb ht hel
  | .whileLoop _ condition body, he => by
    simp only [Statement.bind, found_bind, scopesAfter_still, found_pure, List.append_nil] at he
    obtain ⟨hc, hb⟩ := condition.typed_bindTyped h .bool (by decide)
      (he.part (fun t ht => by simp [Statement.tokens, ht]) (List.subset_append_left _ _))
    have ht := body.typed_bind h
      (he.part (fun t ht => by simp [Statement.tokens, ht]) (List.subset_append_right _ _))
    simp only [Statement.bind, result_bind, scopesAfter_still, result_pure,
      Expression.result_bindTyped]
    exact .whileLoop hc condition.type_bindValue hb ht
  | .forLoop _ identifier _ lower _ upper body, he => by
    rw [Statement.found_forLoop] at he
    obtain ⟨hl, hli⟩ := lower.typed_bindTyped h .int (by decide)
      (he.part (fun t ht => by simp [Statement.tokens, ht]) (by simp))
    obtain ⟨hu, hui⟩ := upper.typed_bindTyped h .int (by decide)
      (he.part (fun t ht => by simp [Statement.tokens, ht]) (by simp))
    have hb := body.typed_bind (h.loopScopes identifier)
      (he.part (fun t ht => by simp [Statement.tokens, ht]) (by simp))
    rw [Statement.result_forLoop]
    exact .forLoop rfl hl lower.type_bindValue hli hu upper.type_bindValue hui hb
  | .expression inner, he => by
    simp only [Statement.bind, found_bind, found_pure, List.append_nil] at he
    simp only [Statement.bind, result_bind, result_pure]
    exact .expression (inner.typed_bind h he)

theorem Statement.typed_bindAll {scopes : ScopeChain} (h : scopes.Typed P) :
    (ss : List Statement) →
    Excused P (Statement.tokensAll ss) ((Statement.bindAll ss).found scopes) →
    ∀ a ∈ (Statement.bindAll ss).result scopes, a.Typed P
  | [], _ => by simp [Statement.bindAll]
  | s :: rest, he => by
    simp only [Statement.bindAll, found_bind, found_pure, List.append_nil] at he
    have hs := s.typed_bind h (he.part (by simp [Statement.tokensAll]) (by simp))
    have hr := Statement.typed_bindAll (h.scopesAfter_bind hs) rest
      (he.part (by simp [Statement.tokensAll]) (by simp))
    simp only [Statement.bindAll, result_bind, result_pure, List.mem_cons, forall_eq_or_imp]
    exact ⟨hs, hr⟩

end

end ScalarScript
