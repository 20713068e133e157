import ScalarScript.Proofs.Tree.Tokens

set_option autoImplicit false

namespace ScalarScript

inductive Node where
  | token (t : Token)
  | expression (e : Expression)
  | typeClause (clause : TypeClause)
  | elseClause (keyword : Token) (statement : Statement)
  | statement (s : Statement)
  | tree (tree : Tree)

namespace Node

def span : Node → Span
  | .token t => t.span
  | .expression e => e.span
  | .typeClause clause => clause.span
  | .elseClause keyword s => keyword.span.union s.span
  | .statement s => s.span
  | .tree root => root.span

def parts : Node → List Node
  | .token _ => []
  | .expression (.literal t _) => [.token t]
  | .expression (.name t) => [.token t]
  | .expression (.unary t e) => [.token t, .expression e]
  | .expression (.binary l t r) => [.expression l, .token t, .expression r]
  | .expression (.parenthesized o e c) => [.token o, .expression e, .token c]
  | .expression (.assignment i q e) => [.token i, .token q, .expression e]
  | .expression (.call i o es c) => .token i :: .token o :: es.map expression ++ [.token c]
  | .typeClause clause => [.token clause.colon, .token clause.identifier]
  | .elseClause t s => [.token t, .statement s]
  | .statement (.block o ss c) => .token o :: ss.map statement ++ [.token c]
  | .statement (.declaration k i clause q e) =>
    .token k :: .token i :: clause.toList.map typeClause ++ [.token q, .expression e]
  | .statement (.ifThen k e s) => [.token k, .expression e, .statement s]
  | .statement (.ifThenElse k e s l s') =>
    [.token k, .expression e, .statement s, .elseClause l s']
  | .statement (.whileLoop k e s) => [.token k, .expression e, .statement s]
  | .statement (.forLoop k i q e l e' s) =>
    [.token k, .token i, .token q, .expression e, .token l, .expression e', .statement s]
  | .statement (.expression e) => [.expression e]
  | .tree root => [.statement root.statement, .token root.endOfFile]

inductive Contains : Node → Node → Prop where
  | self (n : Node) : Contains n n
  | part {n p m : Node} (hp : p ∈ n.parts) (h : Contains p m) : Contains n m

/-- What holds of the node and of all below it. -/
def All (P : Node → Prop) (n : Node) : Prop := ∀ m, n.Contains m → P m

variable {P Q : Node → Prop} {n p m : Node}

theorem Contains.trans (h : n.Contains p) (hm : p.Contains m) : n.Contains m := by
  induction h with
  | self => exact hm
  | part hp _ ih => exact .part hp (ih hm)

namespace All

theorem here (h : n.All P) : P n := h n (.self n)

theorem below (h : n.All P) (hm : n.Contains m) : m.All P := fun m' hm' => h m' (hm.trans hm')

theorem part (h : n.All P) (hp : p ∈ n.parts) : p.All P := h.below (.part hp (.self p))

theorem of_parts (h : P n) (hparts : ∀ p ∈ n.parts, p.All P) : n.All P := by
  intro m hm
  cases hm with
  | self => exact h
  | part hp hm => exact hparts _ hp m hm

theorem imp (h : n.All P) (hPQ : ∀ m, m.All P → Q m) : n.All Q := fun m hm => hPQ m (h.below hm)

end All

theorem all_token {t : Token} (h : P (.token t)) : (token t).All P :=
  .of_parts h (by simp [parts])

end Node

open Node

mutual

theorem Expression.contains_token {t : Token} :
    (e : Expression) → t ∈ e.tokens → (Node.expression e).Contains (.token t)
  | .literal _ _, h | .name _, h => by
    obtain rfl := List.mem_singleton.mp h
    exact .part (by simp [parts]) (.self _)
  | .unary operator operand, h => by
    rcases List.mem_cons.mp h with rfl | h
    · exact .part (by simp [parts]) (.self _)
    · exact .part (by simp [parts]) (operand.contains_token h)
  | .binary left operator right, h => by
    simp only [tokens, List.mem_append, List.mem_cons] at h
    rcases h with h | rfl | h
    · exact .part (by simp [parts]) (left.contains_token h)
    · exact .part (by simp [parts]) (.self _)
    · exact .part (by simp [parts]) (right.contains_token h)
  | .parenthesized openParen inner closeParen, h => by
    simp only [tokens, List.cons_append, List.mem_append, List.mem_cons, List.not_mem_nil,
      or_false] at h
    rcases h with rfl | h | rfl
    · exact .part (by simp [parts]) (.self _)
    · exact .part (by simp [parts]) (inner.contains_token h)
    · exact .part (by simp [parts]) (.self _)
  | .assignment identifier equals source, h => by
    simp only [tokens, List.mem_cons] at h
    rcases h with rfl | rfl | h
    · exact .part (by simp [parts]) (.self _)
    · exact .part (by simp [parts]) (.self _)
    · exact .part (by simp [parts]) (source.contains_token h)
  | .call identifier openParen arguments closeParen, h => by
    simp only [tokens, List.cons_append, List.mem_append, List.mem_cons, List.not_mem_nil,
      or_false] at h
    rcases h with rfl | rfl | h | rfl
    · exact .part (by simp [parts]) (.self _)
    · exact .part (by simp [parts]) (.self _)
    · obtain ⟨e, he, hc⟩ := Expression.contains_token_of_mem arguments h
      exact .part (by simp [parts, he]) hc
    · exact .part (by simp [parts]) (.self _)

theorem Expression.contains_token_of_mem {t : Token} : (es : List Expression) →
    t ∈ Expression.tokensAll es → ∃ e ∈ es, (Node.expression e).Contains (.token t)
  | [], h => absurd h List.not_mem_nil
  | e :: rest, h => by
    rcases List.mem_append.mp h with h | h
    · exact ⟨e, List.mem_cons_self, e.contains_token h⟩
    · obtain ⟨e', he', hc⟩ := Expression.contains_token_of_mem rest h
      exact ⟨e', List.mem_cons_of_mem e he', hc⟩

end

theorem TypeClause.contains_token {t : Token} {clause : TypeClause} (h : t ∈ clause.tokens) :
    (Node.typeClause clause).Contains (.token t) := by
  simp only [tokens, List.mem_cons, List.not_mem_nil, or_false] at h
  rcases h with rfl | rfl
  · exact .part (by simp [parts]) (.self _)
  · exact .part (by simp [parts]) (.self _)

mutual

theorem Statement.contains_token {t : Token} :
    (s : Statement) → t ∈ s.tokens → (Node.statement s).Contains (.token t)
  | .block openBrace statements closeBrace, h => by
    simp only [tokens, List.cons_append, List.mem_append, List.mem_cons, List.not_mem_nil,
      or_false] at h
    rcases h with rfl | h | rfl
    · exact .part (by simp [parts]) (.self _)
    · obtain ⟨s, hs, hc⟩ := Statement.contains_token_of_mem statements h
      exact .part (by simp [parts, hs]) hc
    · exact .part (by simp [parts]) (.self _)
  | .declaration keyword identifier clause equals initializer, h => by
    simp only [tokens, List.cons_append, List.mem_append, List.mem_cons, List.mem_flatMap,
      Option.mem_toList] at h
    rcases h with rfl | rfl | ⟨c, hc, h⟩ | rfl | h
    · exact .part (by simp [parts]) (.self _)
    · exact .part (by simp [parts]) (.self _)
    · exact .part (p := .typeClause c) (by simp [parts, hc]) (TypeClause.contains_token h)
    · exact .part (by simp [parts]) (.self _)
    · exact .part (by simp [parts]) (initializer.contains_token h)
  | .ifThen keyword condition thenStatement, h => by
    simp only [tokens, List.cons_append, List.mem_append, List.mem_cons] at h
    rcases h with rfl | h | h
    · exact .part (by simp [parts]) (.self _)
    · exact .part (by simp [parts]) (condition.contains_token h)
    · exact .part (by simp [parts]) (thenStatement.contains_token h)
  | .ifThenElse keyword condition thenStatement elseKeyword elseStatement, h => by
    simp only [tokens, List.cons_append, List.append_assoc, List.mem_append, List.mem_cons] at h
    have hclause {m : Node} (hm : m ∈ (Node.elseClause elseKeyword elseStatement).parts)
        (hc : m.Contains (.token t)) : (Node.statement (.ifThenElse keyword condition thenStatement
          elseKeyword elseStatement)).Contains (.token t) :=
      .part (p := .elseClause elseKeyword elseStatement) (by simp [parts]) (.part hm hc)
    rcases h with rfl | h | h | rfl | h
    · exact .part (by simp [parts]) (.self _)
    · exact .part (by simp [parts]) (condition.contains_token h)
    · exact .part (by simp [parts]) (thenStatement.contains_token h)
    · exact hclause (by simp [parts]) (.self _)
    · exact hclause (by simp [parts]) (elseStatement.contains_token h)
  | .whileLoop keyword condition body, h => by
    simp only [tokens, List.cons_append, List.mem_append, List.mem_cons] at h
    rcases h with rfl | h | h
    · exact .part (by simp [parts]) (.self _)
    · exact .part (by simp [parts]) (condition.contains_token h)
    · exact .part (by simp [parts]) (body.contains_token h)
  | .forLoop keyword identifier equals lower toKeyword upper body, h => by
    simp only [tokens, List.cons_append, List.append_assoc, List.mem_append, List.mem_cons] at h
    rcases h with rfl | rfl | rfl | h | rfl | h | h
    · exact .part (by simp [parts]) (.self _)
    · exact .part (by simp [parts]) (.self _)
    · exact .part (by simp [parts]) (.self _)
    · exact .part (by simp [parts]) (lower.contains_token h)
    · exact .part (by simp [parts]) (.self _)
    · exact .part (by simp [parts]) (upper.contains_token h)
    · exact .part (by simp [parts]) (body.contains_token h)
  | .expression inner, h => .part (by simp [parts]) (inner.contains_token h)

theorem Statement.contains_token_of_mem {t : Token} : (ss : List Statement) →
    t ∈ Statement.tokensAll ss → ∃ s ∈ ss, (Node.statement s).Contains (.token t)
  | [], h => absurd h List.not_mem_nil
  | s :: rest, h => by
    rcases List.mem_append.mp h with h | h
    · exact ⟨s, List.mem_cons_self, s.contains_token h⟩
    · obtain ⟨s', hs', hc⟩ := Statement.contains_token_of_mem rest h
      exact ⟨s', List.mem_cons_of_mem s hs', hc⟩

end

theorem Tree.contains_expression {tree : Tree} {e : Expression}
    (h : tree.statement = .expression e) : (Node.tree tree).Contains (.expression e) :=
  .part (p := .statement tree.statement) (by simp [parts])
    (.part (by simp [h, parts]) (.self _))

theorem Tree.contains_token {t : Token} {tree : Tree} (h : t ∈ tree.tokens) :
    (Node.tree tree).Contains (.token t) := by
  rw [tokens_eq] at h
  rcases List.mem_append.mp h with h | h
  · exact .part (by simp [parts]) (tree.statement.contains_token h)
  · obtain rfl := List.mem_singleton.mp h
    exact .part (by simp [parts]) (.self _)

end ScalarScript
