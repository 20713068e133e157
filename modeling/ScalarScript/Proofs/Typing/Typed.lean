import ScalarScript.Proofs.Binding.Scoping

/-!
Well typed terms and actions. Errors among them need an excuse, a proposition `P`: with `P` false
there is no error at all, with `P` true the rules say what holds even of wrong programs.
-/

set_option autoImplicit false

namespace ScalarScript

def Variable.Typed (P : Prop) (v : Variable) : Prop := v.type ≠ .void ∧ (v.type = .error → P)

/-- The rules of typing for terms. Only a call can be without value, and none of the parts of a term
is. -/
inductive Term.Typed (P : Prop) : Term → Prop where
  | literal (value : Value) : Typed P (.literal value)
  | variable {v : Variable} (hv : v.Typed P) : Typed P (.variable v)
  | assignment {v : Variable} {source : Term} (hv : v.Typed P) (hs : source.Typed P)
      (value : source.type ≠ .void) (agree : source.type ≠ v.type → P)
      (excused : source.type = v.type ∨ source.type = .error ∨ v.type = .error) :
      Typed P (.assignment v source)
  | unary {token : TokenKind} {op : UnaryOperator} {operand : Term} (ho : operand.Typed P)
      (found : UnaryOperator.find? token operand.type = some op) : Typed P (.unary op operand)
  | binary {token : TokenKind} {op : BinaryOperator} {left right : Term} (hl : left.Typed P)
      (hr : right.Typed P)
      (found : BinaryOperator.find? token left.type right.type = some op) :
      Typed P (.binary left op right)
  | call {f : Function} {arguments : List Term} (hf : f ∈ Function.builtins)
      (ha : ∀ a ∈ arguments, a.Typed P)
      (agree : arguments.map Term.type = f.parameters.map Parameter.type) :
      Typed P (.call f arguments)
  | conversion {target : Ty} {source : Term} (hs : source.Typed P)
      (found : Conversion.classify source.type target = .explicit) :
      Typed P (.conversion target source)
  | error (excuse : P) : Typed P .error

inductive Action.Typed (P : Prop) : Action → Prop where
  | block {actions : List Action} (ha : ∀ a ∈ actions, a.Typed P) : Typed P (.block actions)
  | declaration {v : Variable} {initializer : Term} (hi : initializer.Typed P)
      (value : initializer.type ≠ .void) (agree : initializer.type = v.type) :
      Typed P (.declaration v initializer)
  | ifThen {condition : Term} {thenAction : Action} (hc : condition.Typed P)
      (value : condition.type ≠ .void) (bool : condition.type ≠ .bool → P)
      (ht : thenAction.Typed P) : Typed P (.ifThen condition thenAction)
  | ifThenElse {condition : Term} {thenAction elseAction : Action} (hc : condition.Typed P)
      (value : condition.type ≠ .void) (bool : condition.type ≠ .bool → P)
      (ht : thenAction.Typed P) (he : elseAction.Typed P) :
      Typed P (.ifThenElse condition thenAction elseAction)
  | whileLoop {condition : Term} {body : Action} (hc : condition.Typed P)
      (value : condition.type ≠ .void) (bool : condition.type ≠ .bool → P)
      (hb : body.Typed P) : Typed P (.whileLoop condition body)
  | forLoop {v : Variable} {lower upper : Term} {body : Action} (hv : v.type = .int)
      (hl : lower.Typed P) (lowerValue : lower.type ≠ .void) (lowerInt : lower.type ≠ .int → P)
      (hu : upper.Typed P) (upperValue : upper.type ≠ .void) (upperInt : upper.type ≠ .int → P)
      (hb : body.Typed P) : Typed P (.forLoop v lower upper body)
  | expression {term : Term} (ht : term.Typed P) : Typed P (.expression term)

theorem UnaryOperator.find?_eq_some {token : TokenKind} {operand : Ty} {op : UnaryOperator}
    (h : find? token operand = some op) :
    op.token = token ∧ op.operand = operand ∧ (operand = .int ∨ operand = .bool) := by
  unfold find? at h
  split at h <;> cases h <;> simp

theorem BinaryOperator.find?_eq_some {token : TokenKind} {left right : Ty} {op : BinaryOperator}
    (h : find? token left right = some op) :
    op.token = token ∧ op.left = left ∧ op.right = right ∧
      meaning? token left right = some (op.operation, op.result) := by
  simp only [find?, Option.map_eq_some_iff] at h
  obtain ⟨m, hm, rfl⟩ := h
  exact ⟨rfl, rfl, rfl, hm⟩

theorem BinaryOperator.types_of_meaning? {token : TokenKind} {left right result : Ty}
    {operation : BinaryOperation} (h : meaning? token left right = some (operation, result)) :
    left = right ∧ left ≠ .void ∧ result ≠ .error ∧ result ≠ .void := by
  unfold meaning? at h
  split at h <;> cases h <;> simp

theorem Conversion.classify_explicit {source target : Ty} (h : classify source target = .explicit) :
    source ≠ .error ∧ source ≠ .void ∧ target ≠ .error ∧ target ≠ .void := by
  cases source <;> cases target <;> simp [classify] at h ⊢

namespace Term.Typed

variable {P : Prop} {t : Term}

theorem excuse (h : t.Typed P) (he : t.type = .error) : P := by
  cases h with
  | literal value => cases value <;> cases he
  | «variable» hv => exact hv.2 he
  | assignment hv hs value agree excused => exact hv.2 he
  | unary ho found =>
    obtain ⟨-, hop, ht⟩ := UnaryOperator.find?_eq_some found
    have hte := hop.symm.trans he
    rcases ht with ht | ht <;> cases ht.symm.trans hte
  | binary hl hr found =>
    have hm := (BinaryOperator.find?_eq_some found).2.2.2
    exact absurd he (BinaryOperator.types_of_meaning? hm).2.2.1
  | call hf ha agree =>
    simp only [Function.builtins, List.mem_cons, List.not_mem_nil, or_false] at hf
    rcases hf with rfl | rfl | rfl <;> cases he
  | conversion hs found => exact absurd he (Conversion.classify_explicit found).2.2.1
  | error excuse => exact excuse

end Term.Typed

theorem Action.mem_declaredAll {v : Variable} {actions : List Action} :
    v ∈ Action.declaredAll actions ↔ ∃ a ∈ actions, v ∈ a.declared := by
  induction actions with
  | nil => simp [Action.declaredAll]
  | cons a rest ih => simp [Action.declaredAll, ih]

theorem Action.Typed.declared {P : Prop} {a : Action} (h : a.Typed P) :
    ∀ v ∈ a.declared, v.Typed P := by
  induction h with
  | block ha ih =>
    intro v hv
    obtain ⟨a, hmem, hva⟩ := Action.mem_declaredAll.mp hv
    exact ih a hmem v hva
  | declaration hi value agree =>
    intro v hv
    rw [List.mem_singleton.mp hv]
    exact ⟨agree ▸ value, fun he => hi.excuse (agree.trans he)⟩
  | ifThen hc value bool ht ih => exact ih
  | ifThenElse hc value bool ht he iht ihe =>
    intro v hv
    rcases List.mem_append.mp hv with hv | hv
    · exact iht v hv
    · exact ihe v hv
  | whileLoop hc value bool hb ih => exact ih
  | forLoop hv hl lowerValue lowerInt hu upperValue upperInt hb ih =>
    intro w hw
    rcases List.mem_cons.mp hw with rfl | hw
    · simp [Variable.Typed, hv]
    · exact ih w hw
  | expression ht => simp [Action.declared]

end ScalarScript
