import ScalarScript.Program.Basic
import ScalarScript.Text.Lines
import ScalarScript.Text.Quoted

set_option autoImplicit false

namespace ScalarScript

inductive Piece where
  | action (a : Action)
  | term (t : Term)

structure ProgramRow where
  depth : Nat
  piece : Piece

mutual

def Term.outline (depth : Nat) : Term → List ProgramRow
  | t@(.assignment _ source) => ⟨depth, .term t⟩ :: source.outline (depth + 1)
  | t@(.unary _ operand) => ⟨depth, .term t⟩ :: operand.outline (depth + 1)
  | t@(.binary left _ right) =>
    ⟨depth, .term t⟩ :: left.outline (depth + 1) ++ right.outline (depth + 1)
  | t@(.call _ arguments) => ⟨depth, .term t⟩ :: Term.outlines (depth + 1) arguments
  | t@(.conversion _ source) => ⟨depth, .term t⟩ :: source.outline (depth + 1)
  | t => [⟨depth, .term t⟩]

def Term.outlines (depth : Nat) : List Term → List ProgramRow
  | [] => []
  | t :: rest => t.outline depth ++ Term.outlines depth rest

end

mutual

def Action.outline (depth : Nat) : Action → List ProgramRow
  | a@(.block actions) => ⟨depth, .action a⟩ :: Action.outlines (depth + 1) actions
  | a@(.declaration _ initializer) => ⟨depth, .action a⟩ :: initializer.outline (depth + 1)
  | a@(.ifThen condition thenAction) =>
    ⟨depth, .action a⟩ :: condition.outline (depth + 1) ++ thenAction.outline (depth + 1)
  | a@(.ifThenElse condition thenAction elseAction) =>
    ⟨depth, .action a⟩ :: condition.outline (depth + 1) ++ thenAction.outline (depth + 1) ++
      elseAction.outline (depth + 1)
  | a@(.whileLoop condition body) =>
    ⟨depth, .action a⟩ :: condition.outline (depth + 1) ++ body.outline (depth + 1)
  | a@(.forLoop _ lower upper body) =>
    ⟨depth, .action a⟩ :: lower.outline (depth + 1) ++ upper.outline (depth + 1) ++
      body.outline (depth + 1)
  | a@(.expression term) => ⟨depth, .action a⟩ :: term.outline (depth + 1)

def Action.outlines (depth : Nat) : List Action → List ProgramRow
  | [] => []
  | a :: rest => a.outline depth ++ Action.outlines depth rest

end

def Value.dump : Value → String
  | .string s => Text.quoted s
  | value => value.text

def Action.label : Action → String
  | .block _ => "Block"
  | .declaration v _ => s!"VariableDeclaration {v.keyword} {v.text}"
  | .ifThen _ _ | .ifThenElse _ _ _ => "If"
  | .whileLoop _ _ => "While"
  | .forLoop v _ _ _ => s!"For {v.text}"
  | .expression _ => "ExpressionStatement"

def Term.label (t : Term) : String :=
  match t with
  | .literal value => s!"Literal {value.dump}: {t.type.name}"
  | .variable v => s!"Variable {v.text}"
  | .assignment v _ => s!"Assignment {v.text}"
  | .unary operator _ => s!"Unary {operator.operation.name}: {t.type.name}"
  | .binary _ operator _ => s!"Binary {operator.operation.name}: {t.type.name}"
  | .call function _ => s!"Call {function.text}"
  | .conversion _ _ => s!"Conversion: {t.type.name}"
  | .error => s!"Error: {t.type.name}"

def Piece.label : Piece → String
  | .action a => a.label
  | .term t => t.label

def Action.text (a : Action) : String :=
  String.join ((a.outline 0).map fun row => Text.indentedLine row.depth row.piece.label)

end ScalarScript
