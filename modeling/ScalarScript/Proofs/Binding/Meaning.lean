import ScalarScript.Proofs.Binding.Effect

set_option autoImplicit false

namespace ScalarScript

namespace Binder

theorem yields_requireValue (span : Span) (term : Term) :
    Yields (requireValue span term) (fun _ => if term.type = .void then .error else term)
      (fun _ => if term.type = .void then [⟨span, .expressionMustHaveValue⟩] else []) where
  run_eq b := by
    unfold requireValue
    split
    · rfl
    · simp; rfl

def Clash (actual target : Ty) : Prop := actual ≠ target ∧ actual ≠ .error ∧ target ≠ .error

instance (actual target : Ty) : Decidable (Clash actual target) :=
  inferInstanceAs (Decidable (_ ∧ _))

theorem yields_requireType (span : Span) (actual target : Ty) :
    Yields (requireType span actual target) (fun _ => ()) (fun _ =>
      if Clash actual target then [⟨span, .cannotConvert actual.name target.name⟩] else []) where
  run_eq b := by
    have clash_iff : Clash actual target ↔
        actual ≠ target ∧ actual ≠ .error ∧ target ≠ .error := Iff.rfl
    unfold requireType
    by_cases h : Clash actual target
    · rw [if_pos (clash_iff.mp h), if_pos h]; rfl
    · rw [if_neg (mt clash_iff.mpr h), if_neg h, List.append_nil]; rfl

theorem yields_name (t : Token) :
    Yields (name t)
      (fun s => if t.isMissing then .error else
        match s.variableNamed? t.text with
        | some v => .variable v
        | none => .error)
      (fun s => if t.isMissing then [] else
        match s.variableNamed? t.text with
        | some _ => []
        | none => [⟨t.span, .undefinedName t.text⟩]) where
  run_eq b := by
    unfold name
    cases hm : t.isMissing with
    | true => simp; rfl
    | false => cases h : b.scopes.variableNamed? t.text <;> simp [h, report] <;> rfl

theorem not_clash_iff {actual target : Ty} :
    ¬Clash actual target ↔ actual = target ∨ actual = .error ∨ target = .error := by
  unfold Clash
  grind

theorem yields_assignment (identifier equals : Token) (span : Span) (source : Term) :
    Yields (assignment identifier equals span source)
      (fun s =>
        match s.variableNamed? identifier.text with
        | none => source
        | some v => if Clash source.type v.type then source else .assignment v source)
      (fun s =>
        match s.variableNamed? identifier.text with
        | none => [⟨identifier.span, .undefinedName identifier.text⟩]
        | some v =>
          (if v.isReadOnly then [⟨equals.span, .cannotAssign identifier.text⟩] else []) ++
            if Clash source.type v.type then
              [⟨span, .cannotConvert source.type.name v.type.name⟩]
            else []) where
  run_eq b := by
    unfold assignment
    cases h : b.scopes.variableNamed? identifier.text with
    | none => simp [h, report]; rfl
    | some v =>
      cases hr : v.isReadOnly <;> by_cases hc : Clash source.type v.type <;>
        simp [h, hr, hc, report, (yields_requireType _ _ _).run_eq, ← not_clash_iff] <;> rfl

theorem yields_unary (operator : Token) (operand : Term) :
    Yields (unary operator operand)
      (fun _ => if operand.type = .error then .error else
        match UnaryOperator.find? operator.kind operand.type with
        | some op => .unary op operand
        | none => .error)
      (fun _ => if operand.type = .error then [] else
        match UnaryOperator.find? operator.kind operand.type with
        | some _ => []
        | none =>
          [⟨operator.span, .undefinedUnaryOperator operator.text operand.type.name⟩]) where
  run_eq b := by
    unfold unary
    by_cases ht : operand.type = .error
    · simp [ht]; rfl
    · cases h : UnaryOperator.find? operator.kind operand.type <;> simp [ht, report] <;> rfl

theorem yields_binary (left : Term) (operator : Token) (right : Term) :
    Yields (binary left operator right)
      (fun _ => if left.type = .error ∨ right.type = .error then .error else
        match BinaryOperator.find? operator.kind left.type right.type with
        | some op => .binary left op right
        | none => .error)
      (fun _ => if left.type = .error ∨ right.type = .error then [] else
        match BinaryOperator.find? operator.kind left.type right.type with
        | some _ => []
        | none => [⟨operator.span,
            .undefinedBinaryOperator operator.text left.type.name right.type.name⟩]) where
  run_eq b := by
    unfold binary
    by_cases ht : left.type = .error ∨ right.type = .error
    · simp [ht]; rfl
    · cases h : BinaryOperator.find? operator.kind left.type right.type <;>
        simp [ht, report] <;> rfl

theorem yields_conversion (span : Span) (source : Term) (target : Ty) :
    Yields (conversion span source target)
      (fun _ => if source.type = .error then .error else
        match Conversion.classify source.type target with
        | .explicit => .conversion target source
        | .identity => source
        | .none => .error)
      (fun _ => if source.type = .error then [] else
        match Conversion.classify source.type target with
        | .explicit | .identity => []
        | .none => [⟨span, .cannotConvert source.type.name target.name⟩]) where
  run_eq b := by
    unfold conversion
    by_cases ht : source.type = .error
    · simp [ht]; rfl
    · cases h : Conversion.classify source.type target <;> simp [ht, report] <;> rfl

def argumentFaults : List Parameter → List (Span × Term) → List Diagnostic
  | p :: parameters, (span, argument) :: arguments =>
    (if argument.type ≠ p.type ∧ argument.type ≠ .error then
      [⟨span, .wrongArgumentType p.name p.type.name argument.type.name⟩]
    else []) ++ argumentFaults parameters arguments
  | _, _ => []

theorem yields_checkArguments (parameters : List Parameter) (arguments : List (Span × Term)) :
    Yields (checkArguments parameters arguments) (fun _ => ())
      (fun _ => argumentFaults parameters arguments) where
  run_eq b := by
    induction parameters generalizing arguments b with
    | nil => simp [checkArguments, argumentFaults]; rfl
    | cons p parameters ih =>
      match arguments with
      | [] => simp [checkArguments, argumentFaults]; rfl
      | (span, argument) :: arguments =>
        unfold checkArguments argumentFaults
        by_cases h : argument.type ≠ p.type ∧ argument.type ≠ .error
        · simp only [h, and_self, not_false_eq_true, ne_eq, if_true]
          exact (ih arguments _).trans (by simp)
        · simp only [h, if_false]
          exact ih arguments b

theorem yields_call (span : Span) (identifier : Token) (arguments : List (Span × Term)) :
    Yields (call span identifier arguments)
      (fun s =>
        match s.functionNamed? identifier.text with
        | none => .error
        | some f =>
          if (arguments.map Prod.snd).map Term.type = f.parameters.map Parameter.type then
            .call f (arguments.map Prod.snd)
          else .error)
      (fun s =>
        match s.functionNamed? identifier.text with
        | none => [⟨identifier.span, .undefinedFunction identifier.text⟩]
        | some f =>
          if arguments.length ≠ f.parameters.length then
            [⟨span, .wrongArgumentCount f.name f.parameters.length arguments.length⟩]
          else argumentFaults f.parameters arguments) where
  run_eq b := by
    unfold call
    cases h : b.scopes.functionNamed? identifier.text with
    | none => simp [h, report]; rfl
    | some f =>
      by_cases hn : arguments.length = f.parameters.length
      · simp [h, hn, (yields_checkArguments _ _).run_eq]
        split <;> rfl
      · have ht : (arguments.map Prod.snd).map Term.type ≠ f.parameters.map Parameter.type :=
          fun he => hn (by simpa using congrArg List.length he)
        rw [List.map_map] at ht
        simp [h, hn, ht, report]
        rfl

instance (span : Span) (term : Term) : Reads (requireValue span term) :=
  (yields_requireValue span term).reads

instance (span : Span) (actual target : Ty) : Reads (requireType span actual target) :=
  (yields_requireType span actual target).reads

instance (t : Token) : Reads (name t) := (yields_name t).reads

instance (identifier equals : Token) (span : Span) (source : Term) :
    Reads (assignment identifier equals span source) :=
  (yields_assignment identifier equals span source).reads

instance (operator : Token) (operand : Term) : Reads (unary operator operand) :=
  (yields_unary operator operand).reads

instance (left : Term) (operator : Token) (right : Term) : Reads (binary left operator right) :=
  (yields_binary left operator right).reads

/-- A call with its arguments: one of a type's name with a single argument is a conversion. -/
def callOrConversion (span : Span) (identifier : Token) (arguments : List (Span × Term)) :
    Binder Term :=
  match Ty.ofName? identifier.text, arguments with
  | some target, [(span, source)] => conversion span source target
  | _, _ => call span identifier arguments

instance (span : Span) (identifier : Token) (arguments : List (Span × Term)) :
    Reads (callOrConversion span identifier arguments) := by
  unfold callOrConversion
  split
  · exact (yields_conversion _ _ _).reads
  · exact (yields_call _ _ _).reads

section Results

variable (scopes : ScopeChain)

theorem result_name (t : Token) :
    (name t).result scopes = .error ∨
      ∃ v, scopes.variableNamed? t.text = some v ∧ (name t).result scopes = .variable v := by
  rw [(yields_name _).result_eq]
  cases t.isMissing with
  | true => exact .inl rfl
  | false =>
    cases scopes.variableNamed? t.text with
    | none => exact .inl rfl
    | some v => exact .inr ⟨v, rfl, rfl⟩

theorem result_requireValue (span : Span) (term : Term) :
    (requireValue span term).result scopes = .error ∨
      (requireValue span term).result scopes = term := by
  rw [(yields_requireValue _ _).result_eq]
  by_cases h : term.type = .void
  · exact .inl (if_pos h)
  · exact .inr (if_neg h)

theorem result_assignment (identifier equals : Token) (span : Span) (source : Term) :
    (assignment identifier equals span source).result scopes = source ∨
      ∃ v, scopes.variableNamed? identifier.text = some v ∧
        (assignment identifier equals span source).result scopes = .assignment v source := by
  rw [(yields_assignment _ _ _ _).result_eq]
  cases scopes.variableNamed? identifier.text with
  | none => exact .inl rfl
  | some v =>
    by_cases h : Clash source.type v.type
    · exact .inl (if_pos h)
    · exact .inr ⟨v, rfl, if_neg h⟩

theorem result_unary (operator : Token) (operand : Term) :
    (unary operator operand).result scopes = .error ∨
      ∃ op, (unary operator operand).result scopes = .unary op operand := by
  rw [(yields_unary _ _).result_eq]
  split
  · exact .inl rfl
  · cases UnaryOperator.find? operator.kind operand.type with
    | none => exact .inl rfl
    | some op => exact .inr ⟨op, rfl⟩

theorem result_binary (left : Term) (operator : Token) (right : Term) :
    (binary left operator right).result scopes = .error ∨
      ∃ op, (binary left operator right).result scopes = .binary left op right := by
  rw [(yields_binary _ _ _).result_eq]
  split
  · exact .inl rfl
  · cases BinaryOperator.find? operator.kind left.type right.type with
    | none => exact .inl rfl
    | some op => exact .inr ⟨op, rfl⟩

theorem result_callOrConversion (span : Span) (identifier : Token)
    (arguments : List (Span × Term)) :
    (callOrConversion span identifier arguments).result scopes = .error ∨
      (∃ source, arguments.map Prod.snd = [source] ∧
        ((callOrConversion span identifier arguments).result scopes = source ∨
          ∃ target, (callOrConversion span identifier arguments).result scopes =
            .conversion target source)) ∨
      ∃ f, scopes.functionNamed? identifier.text = some f ∧
        (callOrConversion span identifier arguments).result scopes =
          .call f (arguments.map Prod.snd) := by
  unfold callOrConversion
  split
  · rename_i target argumentSpan source _
    rw [(yields_conversion _ _ _).result_eq]
    split
    · exact .inl rfl
    · cases Conversion.classify source.type target with
      | explicit => exact .inr (.inl ⟨source, rfl, .inr ⟨target, rfl⟩⟩)
      | identity => exact .inr (.inl ⟨source, rfl, .inl rfl⟩)
      | none => exact .inl rfl
  · rw [(yields_call _ _ _).result_eq]
    cases scopes.functionNamed? identifier.text with
    | none => exact .inl rfl
    | some f =>
      dsimp only
      split
      · exact .inr (.inr ⟨f, rfl, rfl⟩)
      · exact .inl rfl

end Results

end Binder

open Binder

namespace Expression

theorem bind_unary (operator : Token) (operand : Expression) :
    (unary operator operand).bind = operand.bindValue >>= Binder.unary operator := by
  simp [bind, bindValue]

theorem bind_binary (left : Expression) (operator : Token) (right : Expression) :
    (binary left operator right).bind = (do
      let l ← left.bindValue
      let r ← right.bindValue
      Binder.binary l operator r) := by
  simp [bind, bindValue]

theorem bind_assignment (identifier equals : Token) (source : Expression) :
    (assignment identifier equals source).bind =
      source.bindValue >>= Binder.assignment identifier equals source.span := by
  simp [bind, bindValue]

theorem bind_call (identifier openParen : Token) (arguments : List Expression)
    (closeParen : Token) :
    (call identifier openParen arguments closeParen).bind =
      bindAll arguments >>=
        callOrConversion (identifier.span.union closeParen.span) identifier := by
  simp only [bind]
  rfl

theorem bindAll_cons (e : Expression) (rest : List Expression) :
    bindAll (e :: rest) = (do
      let term ← e.bindValue
      return (e.span, term) :: (← bindAll rest)) := by
  simp [bindAll, bindValue]

instance (e : Expression) [Reads e.bind] : Reads e.bindValue :=
  inferInstanceAs (Reads (e.bind >>= requireValue e.span))

end Expression

mutual

theorem Expression.reads_bind : (e : Expression) → Reads e.bind
  | .literal _ value => by
    rw [Expression.bind]
    infer_instance
  | .name identifier => by
    rw [Expression.bind]
    infer_instance
  | .unary operator operand => by
    have := operand.reads_bind
    rw [Expression.bind_unary]
    infer_instance
  | .binary left operator right => by
    have := left.reads_bind
    have := right.reads_bind
    rw [Expression.bind_binary]
    infer_instance
  | .parenthesized _ inner _ => by
    rw [Expression.bind]
    exact inner.reads_bind
  | .assignment identifier equals source => by
    have := source.reads_bind
    rw [Expression.bind_assignment]
    infer_instance
  | .call identifier openParen arguments closeParen => by
    have := Expression.reads_bindAll arguments
    rw [Expression.bind_call]
    infer_instance

theorem Expression.reads_bindAll : (es : List Expression) → Reads (Expression.bindAll es)
  | [] => by
    rw [Expression.bindAll]
    infer_instance
  | e :: rest => by
    have := e.reads_bind
    have := Expression.reads_bindAll rest
    rw [Expression.bindAll_cons]
    infer_instance

end

end ScalarScript
