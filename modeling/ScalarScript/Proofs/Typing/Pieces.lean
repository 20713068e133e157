import ScalarScript.Program.Outline
import ScalarScript.Proofs.Session.Gate
import ScalarScript.Proofs.Typing.Sessions

set_option autoImplicit false

namespace ScalarScript

namespace Term

/-- The term is what the tables of operators, functions and conversions have for the types of its
parts. -/
def Founded : Term → Prop
  | .unary op operand => UnaryOperator.find? op.token operand.type = some op
  | .binary left op right => BinaryOperator.find? op.token left.type right.type = some op
  | .call f arguments =>
    f ∈ Function.builtins ∧ arguments.map Term.type = f.parameters.map Parameter.type
  | .conversion target source => Conversion.classify source.type target = .explicit
  | .assignment v source => source.type = v.type ∨ source.type = .error ∨ v.type = .error
  | .literal _ | .variable _ | .error => True

def parts : Term → List Term
  | .unary _ operand => [operand]
  | .binary left _ right => [left, right]
  | .call _ arguments => arguments
  | .conversion _ source | .assignment _ source => [source]
  | .literal _ | .variable _ | .error => []

def names : Term → List Variable
  | .variable v | .assignment v _ => [v]
  | .literal _ | .unary _ _ | .binary _ _ _ | .call _ _ | .conversion _ _ | .error => []

end Term

namespace Action

/-- The terms of an action that must have a value. The term that is a statement of its own is not
one of them. -/
def operands : Action → List Term
  | .declaration _ initializer => [initializer]
  | .ifThen condition _ | .ifThenElse condition _ _ | .whileLoop condition _ => [condition]
  | .forLoop _ lower upper _ => [lower, upper]
  | .block _ | .expression _ => []

def names : Action → List Variable
  | .declaration v _ | .forLoop v _ _ _ => [v]
  | .block _ | .ifThen _ _ | .ifThenElse _ _ _ | .whileLoop _ _ | .expression _ => []

/-- The terms of an action that stand where a certain type is needed: a condition decides, a bound
is counted to. -/
def places : Action → List (Term × Ty)
  | .ifThen condition _ | .ifThenElse condition _ _ | .whileLoop condition _ => [(condition, .bool)]
  | .forLoop _ lower upper _ => [(lower, .int), (upper, .int)]
  | .block _ | .declaration _ _ | .expression _ => []

theorem names_subset_declared (a : Action) : a.names ⊆ a.declared := by
  cases a <;> simp [names, declared]

end Action

namespace Piece

def Founded : Piece → Prop
  | .term t => t.Founded ∧ (∀ u ∈ t.parts, u.type ≠ .void) ∧ ∀ v ∈ t.names, v.type ≠ .void
  | .action a => (∀ t ∈ a.operands, t.type ≠ .void) ∧ ∀ v ∈ a.names, v.type ≠ .void

/-- What holds besides of every piece of a program without faults. -/
def Sound : Piece → Prop
  | .term t => t.type ≠ .error ∧ ∀ v ∈ t.names, v.type ≠ .error
  | .action a => (∀ p ∈ a.places, p.1.type = p.2) ∧ ∀ v ∈ a.names, v.type ≠ .error

def Typed (P : Prop) : Piece → Prop
  | .term t => t.Typed P
  | .action a => a.Typed P

end Piece

theorem Function.parameters_of_builtins {f : Function} (hf : f ∈ builtins) :
    ∀ p ∈ f.parameters, p.type ≠ .void := by
  simp only [builtins, List.mem_cons, List.not_mem_nil, or_false] at hf
  rcases hf with rfl | rfl | rfl <;> decide

variable {P : Prop}

namespace Term.Typed

variable {t : Term}

theorem founded (h : t.Typed P) : t.Founded := by
  cases h with
  | literal value => trivial
  | «variable» hv => trivial
  | assignment hv hs value agree excused => exact excused
  | unary ho found =>
    obtain ⟨rfl, -⟩ := UnaryOperator.find?_eq_some found
    exact found
  | binary hl hr found =>
    obtain ⟨rfl, -⟩ := BinaryOperator.find?_eq_some found
    exact found
  | call hf ha agree => exact ⟨hf, agree⟩
  | conversion hs found => exact found
  | error excuse => trivial

theorem parts_type (h : t.Typed P) : ∀ u ∈ t.parts, u.type ≠ .void := by
  cases h with
  | literal value => nofun
  | «variable» hv => nofun
  | assignment hv hs value agree excused => simpa [parts] using value
  | unary ho found =>
    obtain ⟨-, -, hint | hbool⟩ := UnaryOperator.find?_eq_some found
    · simp [parts, hint]
    · simp [parts, hbool]
  | binary hl hr found =>
    have hm := (BinaryOperator.find?_eq_some found).2.2.2
    obtain ⟨heq, hleft, -⟩ := BinaryOperator.types_of_meaning? hm
    simpa [parts, hleft] using heq ▸ hleft
  | call hf ha agree =>
    intro u hu
    obtain ⟨p, hp, heq⟩ := List.mem_map.mp (agree ▸ List.mem_map_of_mem hu)
    rw [← heq]
    exact Function.parameters_of_builtins hf p hp
  | conversion hs found => simpa [parts] using (Conversion.classify_explicit found).2.1
  | error excuse => nofun

theorem names_typed (h : t.Typed P) : ∀ v ∈ t.names, v.Typed P := by
  cases h with
  | «variable» hv => simpa [names] using hv
  | assignment hv hs value agree excused => simpa [names] using hv
  | _ => nofun

end Term.Typed

namespace Action.Typed

variable {a : Action}

theorem operands_type (h : a.Typed P) : ∀ t ∈ a.operands, t.type ≠ .void := by
  cases h with
  | block ha => nofun
  | declaration hi value agree => simpa [operands] using value
  | ifThen hc value bool ht => simpa [operands] using value
  | ifThenElse hc value bool ht he => simpa [operands] using value
  | whileLoop hc value bool hb => simpa [operands] using value
  | forLoop hv hl lowerValue lowerInt hu upperValue upperInt hb =>
    simpa [operands] using ⟨lowerValue, upperValue⟩
  | expression ht => nofun

theorem places_type (h : a.Typed P) : ∀ p ∈ a.places, p.1.type ≠ p.2 → P := by
  cases h with
  | block ha => nofun
  | declaration hi value agree => nofun
  | ifThen hc value bool ht => simpa [places] using bool
  | ifThenElse hc value bool ht he => simpa [places] using bool
  | whileLoop hc value bool hb => simpa [places] using bool
  | forLoop hv hl lowerValue lowerInt hu upperValue upperInt hb =>
    simpa [places] using ⟨lowerInt, upperInt⟩
  | expression ht => nofun

theorem names_typed (h : a.Typed P) : ∀ v ∈ a.names, v.Typed P :=
  fun v hv => h.declared v (a.names_subset_declared hv)

end Action.Typed

namespace Piece.Typed

variable {p : Piece}

theorem founded (h : p.Typed P) : p.Founded := by
  cases p with
  | term t => exact ⟨h.founded, h.parts_type, fun v hv => (h.names_typed v hv).1⟩
  | action a => exact ⟨h.operands_type, fun v hv => (h.names_typed v hv).1⟩

theorem sound (h : p.Typed False) : p.Sound := by
  cases p with
  | term t => exact ⟨h.excuse, fun v hv => (h.names_typed v hv).2⟩
  | action a =>
    exact ⟨fun q hq => Decidable.byContradiction (h.places_type q hq),
      fun v hv => (h.names_typed v hv).2⟩

end Piece.Typed

theorem Term.mem_outlines {row : ProgramRow} {depth : Nat} {ts : List Term} :
    row ∈ Term.outlines depth ts ↔ ∃ t ∈ ts, row ∈ t.outline depth := by
  induction ts with
  | nil => simp [outlines]
  | cons t rest ih => simp [outlines, ih]

theorem Action.mem_outlines {row : ProgramRow} {depth : Nat} {actions : List Action} :
    row ∈ Action.outlines depth actions ↔ ∃ a ∈ actions, row ∈ a.outline depth := by
  induction actions with
  | nil => simp [outlines]
  | cons a rest ih => simp [outlines, ih]

theorem Term.Typed.outline {t : Term} (h : t.Typed P) :
    ∀ depth, ∀ row ∈ t.outline depth, row.piece.Typed P := by
  induction h with
  | literal value =>
    exact fun depth => List.forall_mem_singleton.mpr (Term.Typed.literal value)
  | «variable» hv =>
    exact fun depth => List.forall_mem_singleton.mpr (Term.Typed.variable hv)
  | assignment hv hs value agree excused ih =>
    intro depth
    rw [Term.outline, List.forall_mem_cons]
    exact ⟨.assignment hv hs value agree excused, ih (depth + 1)⟩
  | unary ho found ih =>
    intro depth
    rw [Term.outline, List.forall_mem_cons]
    exact ⟨.unary ho found, ih (depth + 1)⟩
  | binary hl hr found ihl ihr =>
    intro depth
    rw [Term.outline, List.cons_append, List.forall_mem_cons, List.forall_mem_append]
    exact ⟨.binary hl hr found, ihl (depth + 1), ihr (depth + 1)⟩
  | call hf ha agree ih =>
    intro depth
    rw [Term.outline, List.forall_mem_cons]
    refine ⟨.call hf ha agree, fun row hrow => ?_⟩
    obtain ⟨a, hmem, hrow⟩ := mem_outlines.mp hrow
    exact ih a hmem (depth + 1) row hrow
  | conversion hs found ih =>
    intro depth
    rw [Term.outline, List.forall_mem_cons]
    exact ⟨.conversion hs found, ih (depth + 1)⟩
  | error excuse =>
    exact fun depth => List.forall_mem_singleton.mpr (Term.Typed.error excuse)

theorem Action.Typed.outline {a : Action} (h : a.Typed P) :
    ∀ depth, ∀ row ∈ a.outline depth, row.piece.Typed P := by
  induction h with
  | block ha ih =>
    intro depth
    rw [Action.outline, List.forall_mem_cons]
    refine ⟨.block ha, fun row hrow => ?_⟩
    obtain ⟨a, hmem, hrow⟩ := mem_outlines.mp hrow
    exact ih a hmem (depth + 1) row hrow
  | declaration hi value agree =>
    intro depth
    rw [Action.outline, List.forall_mem_cons]
    exact ⟨.declaration hi value agree, hi.outline (depth + 1)⟩
  | ifThen hc value bool ht ih =>
    intro depth
    rw [Action.outline, List.cons_append, List.forall_mem_cons, List.forall_mem_append]
    exact ⟨.ifThen hc value bool ht, hc.outline (depth + 1), ih (depth + 1)⟩
  | ifThenElse hc value bool ht he iht ihe =>
    intro depth
    simp only [Action.outline, List.cons_append, List.forall_mem_cons, List.forall_mem_append]
    exact ⟨.ifThenElse hc value bool ht he, ⟨hc.outline (depth + 1), iht (depth + 1)⟩,
      ihe (depth + 1)⟩
  | whileLoop hc value bool hb ih =>
    intro depth
    rw [Action.outline, List.cons_append, List.forall_mem_cons, List.forall_mem_append]
    exact ⟨.whileLoop hc value bool hb, hc.outline (depth + 1), ih (depth + 1)⟩
  | forLoop hv hl lowerValue lowerInt hu upperValue upperInt hb ih =>
    intro depth
    simp only [Action.outline, List.cons_append, List.forall_mem_cons, List.forall_mem_append]
    exact ⟨.forLoop hv hl lowerValue lowerInt hu upperValue upperInt hb,
      ⟨hl.outline (depth + 1), hu.outline (depth + 1)⟩, ih (depth + 1)⟩
  | expression ht =>
    intro depth
    rw [Action.outline, List.forall_mem_cons]
    exact ⟨.expression ht, ht.outline (depth + 1)⟩

namespace Compilation

/-- No fragment of a chain exports a variable without value, whatever is wrong with it. -/
theorem exported_chainOf (fragments : List Fragment) :
    ∀ s ∈ (chainOf fragments).map snapshot, ∀ v ∈ s.exported, v.Typed True := by
  induction fragments using List.reverseRecOn with
  | nil => simp [chainOf]
  | append_singleton fragments fragment ih =>
    rw [chainOf_concat, List.map_cons, List.forall_mem_cons]
    refine ⟨fun v hv => ?_, ih⟩
    have haction := Statement.typed_bind (Snapshot.typed_surroundings ih) fragment.tree.statement
      ⟨fun _ => trivial, fun _ => trivial⟩
    exact haction.declared v (Snapshot.mem_exported_bind _ _ hv)

def SeesNoError (earlier : List Compilation) : Prop :=
  ∀ name v, (Snapshot.scopesAfter (earlier.map snapshot)).variableNamed? name = some v →
    v.type ≠ .error

/-- The latest compilation of a chain found nothing wrong with the meaning of its own fragment. -/
def Silent (c : Compilation) (earlier : List Compilation) : Prop :=
  c.snapshot.diagnostics = (earlier.head?.map fun d => d.snapshot.diagnostics).getD []

structure WellTyped (c : Compilation) (earlier : List Compilation) : Prop where
  founded : ∀ row ∈ c.snapshot.action.outline 0, row.piece.Founded
  sound : Present c.fragment.tree.statement.tokens → SeesNoError earlier → c.Silent earlier →
    ∀ row ∈ c.snapshot.action.outline 0, row.piece.Sound

/-- The meaning of a fragment is well typed, also where it is wrong. Where it is not, there are no
errors in it either. -/
theorem wellTyped_after (fragments : List Fragment) (fragment : Fragment) :
    (after (chainOf fragments) fragment).WellTyped (chainOf fragments) := by
  have hsurroundings := Snapshot.typed_surroundings (exported_chainOf fragments)
  constructor
  · have haction := Statement.typed_bind hsurroundings fragment.tree.statement
      ⟨fun _ => trivial, fun _ => trivial⟩
    exact fun row hrow => (haction.outline 0 row hrow).founded
  · intro present hsees hsilent
    have hfound : (after (chainOf fragments) fragment).faultsAfter (chainOf fragments) = [] := by
      rwa [Silent, diagnostics_snapshot_after, List.append_right_eq_self] at hsilent
    have hscopes : (Snapshot.surroundings ((chainOf fragments).map snapshot)).Typed False :=
      ⟨fun name v hv => ⟨(hsurroundings.visible name v hv).1, hsees name v hv⟩,
        hsurroundings.native⟩
    have haction := Statement.typed_bind hscopes fragment.tree.statement
      ⟨fun hn => hn present, fun hne => hne hfound⟩
    exact fun row hrow => (haction.outline 0 row hrow).sound

/-- The first `x` has no known type, but the second hides it, so that nothing is wrong with its use.
A call of `write` has no value to be added to. -/
theorem wellTyped_after_hidden :
    let chain := chainOf (["var x = y", "var x = 1"].map Fragment.ofText)
    let use := after chain (.ofText "x + 1")
    let misuse := after chain (.ofText "x = 1 + write(\"\")")
    Present use.fragment.tree.statement.tokens ∧ SeesNoError chain ∧ use.Silent chain ∧
      (∀ row ∈ use.snapshot.action.outline 0, row.piece.Sound) ∧
      ∀ row ∈ misuse.snapshot.action.outline 0, row.piece.Founded := by
  intro chain use misuse
  have hpresent : Present use.fragment.tree.statement.tokens := by decide +kernel
  have hscopes : Snapshot.scopesAfter (chain.map snapshot) =
      ⟨[⟨[⟨⟨1, 0⟩, "x", false, .int⟩], []⟩, ⟨[⟨⟨0, 0⟩, "x", false, .error⟩], []⟩],
        .builtins, 2, 0⟩ := by decide +kernel
  have hsees : SeesNoError chain := by
    intro name v hv
    simp only [hscopes, ScopeChain.variableNamed?, ScopeChain.scopes, Scope.variableNamed?,
      Scope.builtins, List.cons_append, List.nil_append, List.findSome?_cons, List.find?_cons,
      List.find?_nil, List.findSome?_nil] at hv
    cases hname : "x" == name with
    | true =>
      simp only [hname] at hv
      cases hv
      decide
    | false => simp [hname] at hv
  have hsilent : use.Silent chain := by
    unfold Silent
    decide +kernel
  have huse := wellTyped_after (["var x = y", "var x = 1"].map Fragment.ofText) (.ofText "x + 1")
  have hmisuse := wellTyped_after (["var x = y", "var x = 1"].map Fragment.ofText)
    (.ofText "x = 1 + write(\"\")")
  exact ⟨hpresent, hsees, hsilent, huse.sound hpresent hsees hsilent, hmisuse.founded⟩

end Compilation

end ScalarScript
