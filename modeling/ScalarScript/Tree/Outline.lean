import ScalarScript.Tree.Grammar
import ScalarScript.Text.Lines

set_option autoImplicit false

namespace ScalarScript

inductive Part where
  | node (kind : NodeKind) (span : Span) (value : Option Value)
  | token (token : Token)
  deriving DecidableEq, Repr

structure Row where
  depth : Nat
  part : Part
  deriving DecidableEq, Repr

namespace Row

def node (depth : Nat) (kind : NodeKind) (span : Span) : Row := ⟨depth, .node kind span none⟩

def token (depth : Nat) (t : Token) : Row := ⟨depth, .token t⟩

def token? (row : Row) : Option Token :=
  match row.part with
  | .token t => some t
  | .node _ _ _ => none

/-- Clauses are rows beside the parts they consist of, not above them. -/
def isClause (row : Row) : Bool :=
  match row.part with
  | .node .typeClause _ _ | .node .elseClause _ _ => true
  | _ => false

end Row

mutual

def Expression.outline (depth : Nat) : Expression → List Row
  | e@(.literal token value) =>
    [⟨depth, .node e.kind e.span (some value)⟩, .token (depth + 1) token]
  | e@(.name identifier) => [.node depth e.kind e.span, .token (depth + 1) identifier]
  | e@(.unary operator operand) =>
    .node depth e.kind e.span :: .token (depth + 1) operator :: operand.outline (depth + 1)
  | e@(.binary left operator right) =>
    .node depth e.kind e.span :: left.outline (depth + 1) ++
      .token (depth + 1) operator :: right.outline (depth + 1)
  | e@(.parenthesized openParen inner closeParen) =>
    .node depth e.kind e.span :: .token (depth + 1) openParen :: inner.outline (depth + 1) ++
      [.token (depth + 1) closeParen]
  | e@(.assignment identifier equals source) =>
    .node depth e.kind e.span :: .token (depth + 1) identifier :: .token (depth + 1) equals ::
      source.outline (depth + 1)
  | e@(.call identifier openParen arguments closeParen) =>
    .node depth e.kind e.span :: .token (depth + 1) identifier :: .token (depth + 1) openParen ::
      Expression.outlines (depth + 1) arguments ++ [.token (depth + 1) closeParen]

def Expression.outlines (depth : Nat) : List Expression → List Row
  | [] => []
  | e :: rest => e.outline depth ++ Expression.outlines depth rest

end

def TypeClause.clauseRows (depth : Nat) (clause : Option TypeClause) : List Row :=
  clause.toList.map fun c => .node depth .typeClause c.span

def TypeClause.tokenRows (depth : Nat) (clause : Option TypeClause) : List Row :=
  clause.toList.flatMap fun c => [.token depth c.colon, .token depth c.identifier]

mutual

def Statement.outline (depth : Nat) : Statement → List Row
  | s@(.block openBrace statements closeBrace) =>
    .node depth s.kind s.span :: .token (depth + 1) openBrace ::
      Statement.outlines (depth + 1) statements ++ [.token (depth + 1) closeBrace]
  | s@(.declaration keyword identifier typeClause equals initializer) =>
    .node depth s.kind s.span :: TypeClause.clauseRows (depth + 1) typeClause ++
      .token (depth + 1) keyword :: .token (depth + 1) identifier ::
      TypeClause.tokenRows (depth + 1) typeClause ++
      .token (depth + 1) equals :: initializer.outline (depth + 1)
  | s@(.ifThen ifKeyword condition thenStatement) =>
    .node depth s.kind s.span :: .token (depth + 1) ifKeyword :: condition.outline (depth + 1) ++
      thenStatement.outline (depth + 1)
  | s@(.ifThenElse ifKeyword condition thenStatement elseKeyword elseStatement) =>
    .node depth s.kind s.span ::
      .node (depth + 1) .elseClause (elseKeyword.span.union elseStatement.span) ::
      .token (depth + 1) ifKeyword :: condition.outline (depth + 1) ++
      thenStatement.outline (depth + 1) ++ .token (depth + 1) elseKeyword ::
      elseStatement.outline (depth + 1)
  | s@(.whileLoop whileKeyword condition body) =>
    .node depth s.kind s.span :: .token (depth + 1) whileKeyword ::
      condition.outline (depth + 1) ++ body.outline (depth + 1)
  | s@(.forLoop forKeyword identifier equals lower toKeyword upper body) =>
    .node depth s.kind s.span :: .token (depth + 1) forKeyword ::
      .token (depth + 1) identifier :: .token (depth + 1) equals :: lower.outline (depth + 1) ++
      .token (depth + 1) toKeyword :: upper.outline (depth + 1) ++ body.outline (depth + 1)
  | s@(.expression inner) => .node depth s.kind s.span :: inner.outline (depth + 1)

def Statement.outlines (depth : Nat) : List Statement → List Row
  | [] => []
  | s :: rest => s.outline depth ++ Statement.outlines depth rest

end

namespace Tree

def outline (tree : Tree) : List Row :=
  .node 0 .compilationUnit tree.span :: tree.statement.outline 1 ++ [.token 1 tree.endOfFile]

def tokens (tree : Tree) : List Token := tree.outline.filterMap Row.token?

end Tree

namespace Row

/-- What a row says: the kind of a node; the kind of a token and its text, or that it is missing. -/
def label (row : Row) : String :=
  match row.part with
  | .node kind _ _ => kind.name
  | .token t =>
    if t.kind = .endOfFile then t.kind.name
    else if t.isMissing then s!"{t.kind.name} (missing)"
    else s!"{t.kind.name} {t.text}"

end Row

/-- The outline as text, a line for each node and token; clauses have no line of their own. -/
def Tree.text (tree : Tree) : String :=
  String.join ((tree.outline.filter fun row => !row.isClause).map fun row =>
    Text.indentedLine row.depth row.label)

end ScalarScript
