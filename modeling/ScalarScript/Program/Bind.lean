import ScalarScript.Program.Basic
import ScalarScript.Typing.Conversion
import ScalarScript.Scope.Chain
import ScalarScript.Tree.Basic
import ScalarScript.Diagnostic

/-!
Giving a tree its meaning. Names are looked up in the scopes that are open where they stand, and
operators are chosen by the types of their operands. What is wrong is noted once: a term of type
`error` is not complained of again where it is used, and nothing is said about missing tokens.
-/

set_option autoImplicit false

namespace ScalarScript

structure Binding where
  scopes : ScopeChain
  diagnostics : List Diagnostic
  deriving DecidableEq, Repr

abbrev Binder (α : Type) := StateM Binding α

namespace Binder

def report (span : Span) (fault : Fault) : Binder Unit :=
  modify fun b => { b with diagnostics := b.diagnostics ++ [⟨span, fault⟩] }

def inScopes (f : ScopeChain → ScopeChain) : Binder Unit :=
  modify fun b => { b with scopes := f b.scopes }

def inNewScope {α : Type} (inside : Binder α) : Binder α := do
  inScopes ScopeChain.push
  let result ← inside
  inScopes ScopeChain.pop
  return result

def declare (name : String) (isReadOnly : Bool) (type : Ty) : Binder (Except Variable Variable) :=
  modifyGet fun b =>
    let (declared, scopes) := b.scopes.declare name isReadOnly type
    (declared, { b with scopes })

def requireValue (span : Span) (term : Term) : Binder Term := do
  if term.type = .void then
    report span .expressionMustHaveValue
    return .error
  return term

def requireType (span : Span) (actual target : Ty) : Binder Unit := do
  if actual ≠ target ∧ actual ≠ .error ∧ target ≠ .error then
    report span (.cannotConvert actual.name target.name)

def name (identifier : Token) : Binder Term := do
  if identifier.isMissing then return .error
  match (← get).scopes.variableNamed? identifier.text with
  | some v => return .variable v
  | none =>
    report identifier.span (.undefinedName identifier.text)
    return .error

/-- An assignment of a term to the variable that a name stands for. Without a variable that takes
it, the term alone remains. -/
def assignment (identifier equals : Token) (sourceSpan : Span) (source : Term) : Binder Term := do
  match (← get).scopes.variableNamed? identifier.text with
  | none =>
    report identifier.span (.undefinedName identifier.text)
    return source
  | some v =>
    if v.isReadOnly then report equals.span (.cannotAssign identifier.text)
    requireType sourceSpan source.type v.type
    if source.type = v.type ∨ source.type = .error ∨ v.type = .error then
      return .assignment v source
    return source

def unary (operator : Token) (operand : Term) : Binder Term := do
  if operand.type = .error then return .error
  match UnaryOperator.find? operator.kind operand.type with
  | some op => return .unary op operand
  | none =>
    report operator.span (.undefinedUnaryOperator operator.text operand.type.name)
    return .error

def binary (left : Term) (operator : Token) (right : Term) : Binder Term := do
  if left.type = .error ∨ right.type = .error then return .error
  match BinaryOperator.find? operator.kind left.type right.type with
  | some op => return .binary left op right
  | none =>
    report operator.span
      (.undefinedBinaryOperator operator.text left.type.name right.type.name)
    return .error

/-- A conversion to a type. A term that is of the type already stays as it is. -/
def conversion (span : Span) (source : Term) (target : Ty) : Binder Term := do
  if source.type = .error then return .error
  match Conversion.classify source.type target with
  | .explicit => return .conversion target source
  | .identity => return source
  | .none =>
    report span (.cannotConvert source.type.name target.name)
    return .error

def checkArguments : List Parameter → List (Span × Term) → Binder Unit
  | p :: parameters, (span, argument) :: arguments => do
    if argument.type ≠ p.type ∧ argument.type ≠ .error then
      report span (.wrongArgumentType p.name p.type.name argument.type.name)
    checkArguments parameters arguments
  | _, _ => return

def call (span : Span) (identifier : Token) (arguments : List (Span × Term)) : Binder Term := do
  match (← get).scopes.functionNamed? identifier.text with
  | none =>
    report identifier.span (.undefinedFunction identifier.text)
    return .error
  | some f =>
    if arguments.length ≠ f.parameters.length then
      report span (.wrongArgumentCount f.name f.parameters.length arguments.length)
      return .error
    checkArguments f.parameters arguments
    let terms := arguments.map Prod.snd
    if terms.map Term.type = f.parameters.map Parameter.type then return .call f terms
    return .error

end Binder

mutual

def Expression.bind : Expression → Binder Term
  | .literal _ value => return .literal value
  | .name identifier => Binder.name identifier
  | .unary operator operand => do
    let term ← operand.bind
    Binder.unary operator (← Binder.requireValue operand.span term)
  | .binary left operator right => do
    let leftTerm ← left.bind
    let leftTerm ← Binder.requireValue left.span leftTerm
    let rightTerm ← right.bind
    Binder.binary leftTerm operator (← Binder.requireValue right.span rightTerm)
  | .parenthesized _ inner _ => inner.bind
  | .assignment identifier equals source => do
    let term ← source.bind
    Binder.assignment identifier equals source.span (← Binder.requireValue source.span term)
  | .call identifier openParen arguments closeParen => do
    let terms ← Expression.bindAll arguments
    match Ty.ofName? identifier.text, terms with
    | some target, [(span, source)] => Binder.conversion span source target
    | _, _ =>
      Binder.call (Expression.call identifier openParen arguments closeParen).span identifier terms

def Expression.bindAll : List Expression → Binder (List (Span × Term))
  | [] => return []
  | e :: rest => do
    let term ← e.bind
    let term ← Binder.requireValue e.span term
    return (e.span, term) :: (← Expression.bindAll rest)

end

def Expression.bindValue (e : Expression) : Binder Term := do
  Binder.requireValue e.span (← e.bind)

def Expression.bindTyped (e : Expression) (target : Ty) : Binder Term := do
  let term ← e.bindValue
  Binder.requireType e.span term.type target
  return term

mutual

/-- The meaning of a statement. A block and a loop over a range have scopes of their own. A name is
declared after its initial value, or the bounds of its range, have got their meaning; one that is
declared already is noted, and stands for the earlier variable from there on. -/
def Statement.bind : Statement → Binder Action
  | .block _ statements _ => return .block (← Binder.inNewScope (Statement.bindAll statements))
  | .declaration keyword identifier _ _ initializer => do
    let term ← initializer.bindValue
    match ← Binder.declare identifier.text (keyword.kind == .letKeyword) term.type with
    | .ok v => return .declaration v term
    | .error v =>
      if !identifier.isMissing then
        Binder.report identifier.span (.variableAlreadyDeclared identifier.text)
      return .declaration v term
  | .ifThen _ condition thenStatement => do
    let condition ← condition.bindTyped .bool
    return .ifThen condition (← thenStatement.bind)
  | .ifThenElse _ condition thenStatement _ elseStatement => do
    let condition ← condition.bindTyped .bool
    let thenAction ← thenStatement.bind
    return .ifThenElse condition thenAction (← elseStatement.bind)
  | .whileLoop _ condition body => do
    let condition ← condition.bindTyped .bool
    return .whileLoop condition (← body.bind)
  | .forLoop _ identifier _ lower _ upper body => do
    let lower ← lower.bindTyped .int
    let upper ← upper.bindTyped .int
    Binder.inNewScope do
      let v ← match ← Binder.declare identifier.text true .int with
        | .ok v => pure v
        | .error v => pure v
      return .forLoop v lower upper (← body.bind)
  | .expression inner => return .expression (← inner.bind)

def Statement.bindAll : List Statement → Binder (List Action)
  | [] => return []
  | s :: rest => do
    let action ← s.bind
    return action :: (← Statement.bindAll rest)

end

end ScalarScript
