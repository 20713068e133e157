import ScalarScript.Proofs.Binding.Scoping
import ScalarScript.Proofs.Scope.Alike
import ScalarScript.Proofs.Typing.Binding

set_option autoImplicit false

namespace ScalarScript

open Binder

def Ty.Blurs (t u : Ty) : Prop := u = t ∨ u = .error

@[simp] theorem Ty.Blurs.refl (t : Ty) : t.Blurs t := .inl rfl

@[simp] theorem Ty.blurs_error (t : Ty) : t.Blurs .error := .inr rfl

def Term.Blurs (t u : Term) : Prop := t.type.Blurs u.type

structure Variable.Blurs (v w : Variable) : Prop where
  name : w.name = v.name
  isReadOnly : w.isReadOnly = v.isReadOnly
  type : v.type.Blurs w.type

theorem Variable.Blurs.refl (v : Variable) : v.Blurs v := ⟨rfl, rfl, .refl _⟩

theorem not_clash_of_blurs {t u target target' : Ty} (h : ¬Clash t target) (ht : t.Blurs u)
    (htarget : target.Blurs target') : ¬Clash u target' := by
  rw [not_clash_iff] at h ⊢
  rcases ht with rfl | rfl
  · rcases htarget with rfl | rfl
    · exact h
    · exact .inr (.inr rfl)
  · exact .inr (.inl rfl)

namespace Binder

variable {α β γ δ : Type} {r : α → β → Prop} {q : γ → δ → Prop} {ds es : List Diagnostic}
  {x : Binder α} {y : Binder β} {f : α → Binder γ} {g : β → Binder δ} {S S' : ScopeChain}

/-- If the first binder finds nothing wrong, the second finds just these faults, and what the two
give is related. -/
def Follows (r : α → β → Prop) (ds : List Diagnostic) (x : Binder α) (S : ScopeChain)
    (y : Binder β) (S' : ScopeChain) : Prop :=
  x.found S = [] → y.found S' = ds ∧ r (x.result S) (y.result S')

theorem follows_pure {a : α} {b : β} (h : r a b) : Follows r [] (pure a) S (pure b) S' :=
  fun _ => ⟨rfl, h⟩

theorem Follows.bind [Additive x] [Additive y] [∀ a, Additive (f a)] [∀ b, Additive (g b)]
    (hx : Follows r ds x S y S')
    (hf : x.found S = [] → r (x.result S) (y.result S') →
      Follows q es (f (x.result S)) (x.scopesAfter S) (g (y.result S')) (y.scopesAfter S')) :
    Follows q (ds ++ es) (x >>= f) S (y >>= g) S' := by
  intro h
  rw [found_bind] at h
  obtain ⟨hxf, hff⟩ := List.append_eq_nil_iff.mp h
  obtain ⟨hyf, hr⟩ := hx hxf
  obtain ⟨hgf, hq⟩ := hf hxf hr hff
  rw [found_bind, hyf, hgf, result_bind, result_bind]
  exact ⟨rfl, hq⟩

theorem Follows.bind_reads [Reads x] [Reads y] [∀ a, Additive (f a)] [∀ b, Additive (g b)]
    (hx : Follows r ds x S y S') (hf : ∀ a b, r a b → Follows q es (f a) S (g b) S') :
    Follows q (ds ++ es) (x >>= f) S (y >>= g) S' :=
  hx.bind fun _ hr => by
    rw [scopesAfter_still, scopesAfter_still]
    exact hf _ _ hr

theorem Yields.follows {gives : ScopeChain → α} {finds : ScopeChain → List Diagnostic}
    {gives' : ScopeChain → β} {finds' : ScopeChain → List Diagnostic} (hx : Yields x gives finds)
    (hy : Yields y gives' finds')
    (h : finds S = [] → finds' S' = ds ∧ r (gives S) (gives' S')) : Follows r ds x S y S' := by
  intro hf
  rw [hx.found_eq] at hf
  rw [hy.found_eq, hx.result_eq, hy.result_eq]
  exact h hf

section Parts

variable {t u left left' right right' : Term} {span span' : Span}

theorem follows_requireValue (h : t.Blurs u) :
    Follows Term.Blurs [] (requireValue span t) S (requireValue span' u) S' := by
  refine (yields_requireValue _ _).follows (yields_requireValue _ _) fun hf => ?_
  have ht : t.type ≠ .void := by
    intro hvoid
    simp [hvoid] at hf
  have hu : u.type ≠ .void := by
    rcases h with h | h
    · rwa [h]
    · simp [h]
  rw [if_neg ht, if_neg hu, if_neg hu]
  exact ⟨rfl, h⟩

theorem follows_requireType (h : t.Blurs u) (target : Ty) :
    Follows (fun _ _ => True) [] (requireType span t.type target) S
      (requireType span' u.type target) S' := by
  refine (yields_requireType _ _ _).follows (yields_requireType _ _ _) fun hf => ?_
  have hc : ¬Clash t.type target := by
    intro hc
    simp [hc] at hf
  rw [if_neg (not_clash_of_blurs hc h (.refl target))]
  exact ⟨rfl, trivial⟩

theorem follows_name {D : String → Prop} (h : ScopeChain.Alike Variable.Blurs D S S')
    (identifier : Token) : Follows Term.Blurs [] (name identifier) S (name identifier) S' := by
  refine (yields_name _).follows (yields_name _) fun hf => ?_
  have hvisible := h.visible identifier.text
  cases hm : identifier.isMissing with
  | true => exact ⟨rfl, .refl _⟩
  | false =>
    cases hv : S.variableNamed? identifier.text with
    | none => simp [hm, hv] at hf
    | some v =>
      rw [hv] at hvisible
      cases hw : S'.variableNamed? identifier.text with
      | none =>
        rw [hw] at hvisible
        cases hvisible
      | some w =>
        rw [hw] at hvisible
        cases hvisible with
        | some hblur => exact ⟨rfl, hblur.type⟩

theorem follows_assignment {D : String → Prop} (h : ScopeChain.Alike Variable.Blurs D S S')
    (identifier equals : Token) (ht : t.Blurs u) :
    Follows Term.Blurs [] (assignment identifier equals span t) S
      (assignment identifier equals span' u) S' := by
  refine (yields_assignment _ _ _ _).follows (yields_assignment _ _ _ _) fun hf => ?_
  have hvisible := h.visible identifier.text
  cases hv : S.variableNamed? identifier.text with
  | none => simp [hv] at hf
  | some v =>
    rw [hv] at hvisible
    cases hw : S'.variableNamed? identifier.text with
    | none =>
      rw [hw] at hvisible
      cases hvisible
    | some w =>
      rw [hw] at hvisible
      cases hvisible with
      | some hblur =>
        simp only [hv, List.append_eq_nil_iff] at hf
        obtain ⟨hro, hc⟩ := hf
        have hro' : v.isReadOnly = false := by
          cases hr : v.isReadOnly <;> simp [hr] at hro ⊢
        have hc' : ¬Clash t.type v.type := by
          intro hc'
          simp [hc'] at hc
        have hcu := not_clash_of_blurs hc' ht hblur.type
        simp only [hblur.isReadOnly, hro', if_neg hc', if_neg hcu]
        exact ⟨rfl, hblur.type⟩

theorem follows_unary (operator : Token) (h : t.Blurs u) :
    Follows Term.Blurs [] (unary operator t) S (unary operator u) S' := by
  refine (yields_unary _ _).follows (yields_unary _ _) fun hf => ?_
  by_cases hu : u.type = .error
  · rw [if_pos hu, if_pos hu]
    exact ⟨rfl, .inr rfl⟩
  · have htype : u.type = t.type := h.resolve_right hu
    rw [htype] at hu ⊢
    rw [if_neg hu] at hf ⊢
    cases hop : UnaryOperator.find? operator.kind t.type with
    | none => simp [hop] at hf
    | some op =>
      rw [if_neg hu, if_neg hu]
      exact ⟨rfl, .inl rfl⟩

theorem follows_binary (operator : Token) (hl : left.Blurs left') (hr : right.Blurs right') :
    Follows Term.Blurs [] (binary left operator right) S (binary left' operator right') S' := by
  refine (yields_binary _ _ _).follows (yields_binary _ _ _) fun hf => ?_
  by_cases he : left'.type = .error ∨ right'.type = .error
  · rw [if_pos he, if_pos he]
    exact ⟨rfl, .inr rfl⟩
  · have hle : left'.type = left.type := hl.resolve_right fun h => he (.inl h)
    have hre : right'.type = right.type := hr.resolve_right fun h => he (.inr h)
    rw [hle, hre] at he ⊢
    rw [if_neg he] at hf ⊢
    cases hop : BinaryOperator.find? operator.kind left.type right.type with
    | none => simp [hop] at hf
    | some op =>
      rw [if_neg he, if_neg he]
      exact ⟨rfl, .inl rfl⟩

theorem follows_conversion (target : Ty) (h : t.Blurs u) :
    Follows Term.Blurs [] (conversion span t target) S (conversion span' u target) S' := by
  refine (yields_conversion _ _ _).follows (yields_conversion _ _ _) fun hf => ?_
  by_cases hu : u.type = .error
  · rw [if_pos hu, if_pos hu]
    exact ⟨rfl, .inr rfl⟩
  · have htype : u.type = t.type := h.resolve_right hu
    rw [htype] at hu ⊢
    rw [if_neg hu] at hf ⊢
    rw [if_neg hu, if_neg hu]
    cases hc : Conversion.classify t.type target with
    | none => simp [hc] at hf
    | identity => exact ⟨rfl, .inl htype⟩
    | explicit => exact ⟨rfl, .inl rfl⟩

end Parts

def ArgumentsBlur (arguments arguments' : List (Span × Term)) : Prop :=
  List.Forall₂ (fun a b => a.2.Blurs b.2) arguments arguments'

theorem argumentFaults_blur {parameters : List Parameter} {arguments arguments' : List (Span × Term)}
    (h : ArgumentsBlur arguments arguments')
    (hf : argumentFaults parameters arguments = []) :
    argumentFaults parameters arguments' = [] := by
  induction h generalizing parameters with
  | nil => exact hf
  | @cons a b arguments arguments' hab hrest ih =>
    match parameters with
    | [] => rfl
    | p :: parameters =>
      simp only [argumentFaults, List.append_eq_nil_iff] at hf ⊢
      refine ⟨if_neg ?_, ih hf.2⟩
      rintro ⟨hne, hnerr⟩
      rw [hab.resolve_right hnerr] at hne hnerr
      simp [hne, hnerr] at hf

/-- Arguments that the parameters take after some types became errors were taken before. -/
theorem types_of_blur {parameters : List Parameter} {arguments arguments' : List (Span × Term)}
    (h : ArgumentsBlur arguments arguments') (hf : argumentFaults parameters arguments = [])
    (ht : (arguments'.map Prod.snd).map Term.type = parameters.map Parameter.type) :
    (arguments.map Prod.snd).map Term.type = parameters.map Parameter.type := by
  induction h generalizing parameters with
  | nil => exact ht
  | @cons a b arguments arguments' hab hrest ih =>
    match parameters with
    | [] => cases ht
    | p :: parameters =>
      simp only [argumentFaults, List.append_eq_nil_iff] at hf
      obtain ⟨hp, hps⟩ := List.cons.inj ht
      have ha : a.2.type = p.type := by
        rcases hab with hab | hab
        · exact hab.symm.trans hp
        · refine Decidable.byContradiction fun hne => ?_
          rw [← hp, hab] at hne
          simp [← hp, hab, hne] at hf
      simp only [List.map_cons, ha, ih hf.2 hps]

theorem follows_call {D : String → Prop} (h : ScopeChain.Alike Variable.Blurs D S S')
    {span span' : Span} (identifier : Token) {arguments arguments' : List (Span × Term)}
    (ha : ArgumentsBlur arguments arguments') :
    Follows Term.Blurs [] (call span identifier arguments) S
      (call span' identifier arguments') S' := by
  refine (yields_call _ _ _).follows (yields_call _ _ _) fun hf => ?_
  rw [h.functions]
  cases hfun : S.functionNamed? identifier.text with
  | none => simp [hfun] at hf
  | some f =>
    simp only [hfun] at hf
    split at hf
    · cases hf
    · rename_i hn
      have hn' : ¬arguments'.length ≠ f.parameters.length := by rwa [← ha.length_eq]
      refine ⟨(if_neg hn').trans (argumentFaults_blur ha hf), ?_⟩
      dsimp only
      by_cases agree' : (arguments'.map Prod.snd).map Term.type = f.parameters.map Parameter.type
      · rw [if_pos (types_of_blur ha hf agree'), if_pos agree']
        exact .inl rfl
      · rw [if_neg agree']
        exact .inr rfl

theorem follows_callOrConversion {D : String → Prop} (h : ScopeChain.Alike Variable.Blurs D S S')
    {span span' : Span} (identifier : Token) {arguments arguments' : List (Span × Term)}
    (ha : ArgumentsBlur arguments arguments') :
    Follows Term.Blurs [] (callOrConversion span identifier arguments) S
      (callOrConversion span' identifier arguments') S' := by
  unfold callOrConversion
  cases Ty.ofName? identifier.text with
  | none => exact follows_call h identifier ha
  | some target =>
    cases ha with
    | nil => exact follows_call h identifier .nil
    | @cons a b rest rest' hab hrest =>
      cases hrest with
      | nil => exact follows_conversion target hab
      | cons hcd hrest => exact follows_call h identifier (.cons hab (.cons hcd hrest))

end Binder

variable {D : String → Prop} {S S' : ScopeChain} {ds es : List Diagnostic}

section Parts

variable {e e' left left' right right' operand operand' source source' : Expression}
  {arguments arguments' : List Expression}

theorem Expression.follows_bindValue_of (h : Follows Term.Blurs ds e.bind S e'.bind S') :
    Follows Term.Blurs ds e.bindValue S e'.bindValue S' := by
  have hv : Follows Term.Blurs (ds ++ []) e.bindValue S e'.bindValue S' :=
    h.bind_reads fun t u htu => follows_requireValue htu
  rwa [List.append_nil] at hv

theorem Expression.follows_bindTyped_of (target : Ty)
    (h : Follows Term.Blurs ds e.bind S e'.bind S') :
    Follows Term.Blurs ds (e.bindTyped target) S (e'.bindTyped target) S' := by
  have ht : Follows Term.Blurs (ds ++ ([] ++ [])) (e.bindTyped target) S (e'.bindTyped target) S' :=
    (Expression.follows_bindValue_of h).bind_reads fun t u htu =>
      (follows_requireType htu target).bind_reads fun _ _ _ => follows_pure htu
  simpa using ht

theorem Expression.follows_unary_of (operator : Token)
    (h : Follows Term.Blurs ds operand.bind S operand'.bind S') :
    Follows Term.Blurs ds (unary operator operand).bind S (unary operator operand').bind S' := by
  rw [Expression.bind_unary, Expression.bind_unary, ← List.append_nil ds]
  exact (Expression.follows_bindValue_of h).bind_reads fun t u htu => follows_unary operator htu

theorem Expression.follows_binary_of (operator : Token)
    (hl : Follows Term.Blurs ds left.bind S left'.bind S')
    (hr : Follows Term.Blurs es right.bind S right'.bind S') :
    Follows Term.Blurs (ds ++ es) (binary left operator right).bind S
      (binary left' operator right').bind S' := by
  rw [Expression.bind_binary, Expression.bind_binary, ← List.append_nil es]
  exact (Expression.follows_bindValue_of hl).bind_reads fun l l' hll =>
    (Expression.follows_bindValue_of hr).bind_reads fun r r' hrr => follows_binary operator hll hrr

theorem Expression.follows_assignment_of (h : ScopeChain.Alike Variable.Blurs D S S')
    (identifier equals : Token) (hs : Follows Term.Blurs ds source.bind S source'.bind S') :
    Follows Term.Blurs ds (assignment identifier equals source).bind S
      (assignment identifier equals source').bind S' := by
  rw [Expression.bind_assignment, Expression.bind_assignment, ← List.append_nil ds]
  exact (Expression.follows_bindValue_of hs).bind_reads fun t u htu =>
    follows_assignment h identifier equals htu

theorem Expression.follows_call_of (h : ScopeChain.Alike Variable.Blurs D S S')
    (identifier openParen closeParen : Token)
    (ha : Follows ArgumentsBlur ds (bindAll arguments) S (bindAll arguments') S') :
    Follows Term.Blurs ds (call identifier openParen arguments closeParen).bind S
      (call identifier openParen arguments' closeParen).bind S' := by
  rw [Expression.bind_call, Expression.bind_call, ← List.append_nil ds]
  exact ha.bind_reads fun _ _ hab => follows_callOrConversion h identifier hab

theorem Expression.follows_cons_of (he : Follows Term.Blurs ds e.bind S e'.bind S')
    (ha : Follows ArgumentsBlur es (bindAll arguments) S (bindAll arguments') S') :
    Follows ArgumentsBlur (ds ++ es) (bindAll (e :: arguments)) S
      (bindAll (e' :: arguments')) S' := by
  rw [Expression.bindAll_cons, Expression.bindAll_cons, ← List.append_nil es]
  exact (Expression.follows_bindValue_of he).bind_reads fun t u htu =>
    ha.bind_reads fun _ _ hab => follows_pure (.cons htu hab)

end Parts

mutual

/-- An expression without faults has none where some types have become errors. -/
theorem Expression.follows_bind (h : ScopeChain.Alike Variable.Blurs D S S') : (e : Expression) →
    Follows Term.Blurs [] e.bind S e.bind S'
  | .literal _ value => by
    rw [Expression.bind]
    exact follows_pure (.refl _)
  | .name identifier => by
    rw [Expression.bind]
    exact follows_name h identifier
  | .unary operator operand => Expression.follows_unary_of operator (operand.follows_bind h)
  | .binary left operator right =>
    Expression.follows_binary_of operator (left.follows_bind h) (right.follows_bind h)
  | .parenthesized _ inner _ => by
    rw [Expression.bind]
    exact inner.follows_bind h
  | .assignment identifier equals source =>
    Expression.follows_assignment_of h identifier equals (source.follows_bind h)
  | .call identifier openParen arguments closeParen =>
    Expression.follows_call_of h identifier openParen closeParen
      (Expression.follows_bindAll h arguments)

theorem Expression.follows_bindAll (h : ScopeChain.Alike Variable.Blurs D S S') :
    (es : List Expression) →
    Follows ArgumentsBlur [] (Expression.bindAll es) S (Expression.bindAll es) S'
  | [] => by
    rw [Expression.bindAll]
    exact follows_pure .nil
  | e :: rest => Expression.follows_cons_of (e.follows_bind h) (Expression.follows_bindAll h rest)

end

end ScalarScript
