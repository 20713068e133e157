import ScalarScript.Proofs.Tree.Given
import ScalarScript.Tree.Outline

/-!
How deep the trees are that reading gives. Each level that the limit counts is one node further
down, but for the operators of a chain: these nest to the left, on top of operands that were read
and left behind. So on a way down the limit bounds the nodes that are not left for a left operand;
for all nodes together there is only a bound of half its square.
-/

set_option autoImplicit false

namespace ScalarScript

/-- A way down from the expression has so many nodes, the expression among them, of which so many
are operators that it leaves for their left operand. -/
inductive Expression.Descends : Expression → Nat → Nat → Prop where
  | here (e : Expression) : Descends e 1 0
  | operand {t : Token} {e : Expression} {n k : Nat} (h : Descends e n k) :
      Descends (.unary t e) (n + 1) k
  | left {t : Token} {l r : Expression} {n k : Nat} (h : Descends l n k) :
      Descends (.binary l t r) (n + 1) (k + 1)
  | right {t : Token} {l r : Expression} {n k : Nat} (h : Descends r n k) :
      Descends (.binary l t r) (n + 1) k
  | inner {o c : Token} {e : Expression} {n k : Nat} (h : Descends e n k) :
      Descends (.parenthesized o e c) (n + 1) k
  | source {i t : Token} {e : Expression} {n k : Nat} (h : Descends e n k) :
      Descends (.assignment i t e) (n + 1) k
  | argument {i o c : Token} {es : List Expression} {e : Expression} {n k : Nat} (he : e ∈ es)
      (h : Descends e n k) : Descends (.call i o es c) (n + 1) k

inductive Statement.Descends : Statement → Nat → Nat → Prop where
  | here (s : Statement) : Descends s 1 0
  | member {o c : Token} {ss : List Statement} {s : Statement} {n k : Nat} (hs : s ∈ ss)
      (h : Descends s n k) : Descends (.block o ss c) (n + 1) k
  | initializer {t i q : Token} {clause : Option TypeClause} {e : Expression} {n k : Nat}
      (h : e.Descends n k) : Descends (.declaration t i clause q e) (n + 1) k
  | ifCondition {t : Token} {e : Expression} {s : Statement} {n k : Nat} (h : e.Descends n k) :
      Descends (.ifThen t e s) (n + 1) k
  | ifThen {t : Token} {e : Expression} {s : Statement} {n k : Nat} (h : Descends s n k) :
      Descends (.ifThen t e s) (n + 1) k
  | elseCondition {t l : Token} {e : Expression} {s s' : Statement} {n k : Nat}
      (h : e.Descends n k) : Descends (.ifThenElse t e s l s') (n + 1) k
  | elseThen {t l : Token} {e : Expression} {s s' : Statement} {n k : Nat} (h : Descends s n k) :
      Descends (.ifThenElse t e s l s') (n + 1) k
  | elseElse {t l : Token} {e : Expression} {s s' : Statement} {n k : Nat} (h : Descends s' n k) :
      Descends (.ifThenElse t e s l s') (n + 1) k
  | whileCondition {t : Token} {e : Expression} {s : Statement} {n k : Nat} (h : e.Descends n k) :
      Descends (.whileLoop t e s) (n + 1) k
  | whileBody {t : Token} {e : Expression} {s : Statement} {n k : Nat} (h : Descends s n k) :
      Descends (.whileLoop t e s) (n + 1) k
  | lower {t i q l : Token} {e e' : Expression} {s : Statement} {n k : Nat} (h : e.Descends n k) :
      Descends (.forLoop t i q e l e' s) (n + 1) k
  | upper {t i q l : Token} {e e' : Expression} {s : Statement} {n k : Nat}
      (h : e'.Descends n k) : Descends (.forLoop t i q e l e' s) (n + 1) k
  | forBody {t i q l : Token} {e e' : Expression} {s : Statement} {n k : Nat}
      (h : Descends s n k) : Descends (.forLoop t i q e l e' s) (n + 1) k
  | expression {e : Expression} {n k : Nat} (h : e.Descends n k) :
      Descends (.expression e) (n + 1) k

section Rows

variable {row : Row}

theorem Row.ne_token (h : row.token? = none) (d : Nat) (t : Token) : row ≠ .token d t := by
  rintro rfl
  cases h

mutual

theorem Expression.exists_descends {d : Nat} (hn : row.token? = none) :
    (e : Expression) → row ∈ e.outline d → ∃ n k, e.Descends n k ∧ row.depth + 1 = d + n
  | .literal token value, h | .name token, h => by
    simp only [outline, List.mem_cons, Row.ne_token hn, List.not_mem_nil, or_false] at h
    exact ⟨1, 0, .here _, h ▸ rfl⟩
  | .unary operator operand, h => by
    simp only [outline, List.mem_cons, Row.ne_token hn, false_or] at h
    rcases h with rfl | h
    · exact ⟨1, 0, .here _, rfl⟩
    · obtain ⟨n, k, hd, heq⟩ := operand.exists_descends hn h
      exact ⟨n + 1, k, .operand hd, by omega⟩
  | .binary left operator right, h => by
    simp only [outline, List.cons_append, List.mem_cons, List.mem_append, Row.ne_token hn,
      false_or] at h
    rcases h with rfl | h | h
    · exact ⟨1, 0, .here _, rfl⟩
    · obtain ⟨n, k, hd, heq⟩ := left.exists_descends hn h
      exact ⟨n + 1, k + 1, .left hd, by omega⟩
    · obtain ⟨n, k, hd, heq⟩ := right.exists_descends hn h
      exact ⟨n + 1, k, .right hd, by omega⟩
  | .parenthesized openParen inner closeParen, h => by
    simp only [outline, List.cons_append, List.mem_cons, List.mem_append, Row.ne_token hn,
      List.not_mem_nil, false_or, or_false] at h
    rcases h with rfl | h
    · exact ⟨1, 0, .here _, rfl⟩
    · obtain ⟨n, k, hd, heq⟩ := inner.exists_descends hn h
      exact ⟨n + 1, k, .inner hd, by omega⟩
  | .assignment identifier equals source, h => by
    simp only [outline, List.mem_cons, Row.ne_token hn, false_or] at h
    rcases h with rfl | h
    · exact ⟨1, 0, .here _, rfl⟩
    · obtain ⟨n, k, hd, heq⟩ := source.exists_descends hn h
      exact ⟨n + 1, k, .source hd, by omega⟩
  | .call identifier openParen arguments closeParen, h => by
    simp only [outline, List.cons_append, List.mem_cons, List.mem_append, Row.ne_token hn,
      List.not_mem_nil, false_or, or_false] at h
    rcases h with rfl | h
    · exact ⟨1, 0, .here _, rfl⟩
    · obtain ⟨e, he, n, k, hd, heq⟩ := Expression.exists_descends_of_mem hn arguments h
      exact ⟨n + 1, k, .argument he hd, by omega⟩

theorem Expression.exists_descends_of_mem {d : Nat} (hn : row.token? = none) :
    (es : List Expression) → row ∈ Expression.outlines d es →
      ∃ e ∈ es, ∃ n k, e.Descends n k ∧ row.depth + 1 = d + n
  | [], h => by simp [outlines] at h
  | e :: rest, h => by
    simp only [outlines, List.mem_append] at h
    rcases h with h | h
    · exact ⟨e, List.mem_cons_self, e.exists_descends hn h⟩
    · obtain ⟨e', he', hd⟩ := Expression.exists_descends_of_mem hn rest h
      exact ⟨e', List.mem_cons_of_mem e he', hd⟩

end

theorem TypeClause.not_mem_tokenRows (hn : row.token? = none) (d : Nat)
    (clause : Option TypeClause) : row ∉ tokenRows d clause := by
  cases clause <;> simp [tokenRows, Row.ne_token hn]

theorem TypeClause.depth_of_mem_clauseRows {d : Nat} {clause : Option TypeClause}
    (h : row ∈ clauseRows d clause) : row.depth = d := by
  cases clause with
  | none => simp [clauseRows] at h
  | some c =>
    rw [clauseRows, Option.toList_some, List.map_singleton, List.mem_singleton] at h
    rw [h]
    rfl

mutual

theorem Statement.exists_descends {d : Nat} (hn : row.token? = none) :
    (s : Statement) → row ∈ s.outline d → ∃ n k, s.Descends n k ∧ row.depth + 1 = d + n
  | .block openBrace statements closeBrace, h => by
    simp only [outline, List.cons_append, List.mem_cons, List.mem_append, Row.ne_token hn,
      List.not_mem_nil, false_or, or_false] at h
    rcases h with rfl | h
    · exact ⟨1, 0, .here _, rfl⟩
    · obtain ⟨s, hs, n, k, hd, heq⟩ := Statement.exists_descends_of_mem hn statements h
      exact ⟨n + 1, k, .member hs hd, by omega⟩
  | .declaration keyword identifier clause equals initializer, h => by
    simp only [outline, List.cons_append, List.append_assoc, List.mem_cons, List.mem_append,
      Row.ne_token hn, TypeClause.not_mem_tokenRows hn, false_or] at h
    rcases h with rfl | h | h
    · exact ⟨1, 0, .here _, rfl⟩
    -- The clause lies as deep as the initial value.
    · have hdepth := TypeClause.depth_of_mem_clauseRows h
      exact ⟨2, 0, .initializer (.here _), by omega⟩
    · obtain ⟨n, k, hd, heq⟩ := initializer.exists_descends hn h
      exact ⟨n + 1, k, .initializer hd, by omega⟩
  | .ifThen ifKeyword condition thenStatement, h => by
    simp only [outline, List.cons_append, List.mem_cons, List.mem_append, Row.ne_token hn,
      false_or] at h
    rcases h with rfl | h | h
    · exact ⟨1, 0, .here _, rfl⟩
    · obtain ⟨n, k, hd, heq⟩ := condition.exists_descends hn h
      exact ⟨n + 1, k, .ifCondition hd, by omega⟩
    · obtain ⟨n, k, hd, heq⟩ := thenStatement.exists_descends hn h
      exact ⟨n + 1, k, .ifThen hd, by omega⟩
  | .ifThenElse ifKeyword condition thenStatement elseKeyword elseStatement, h => by
    simp only [outline, List.cons_append, List.append_assoc, List.mem_cons, List.mem_append,
      Row.ne_token hn, false_or] at h
    rcases h with rfl | rfl | h | h | h
    · exact ⟨1, 0, .here _, rfl⟩
    · exact ⟨2, 0, .elseElse (.here _), rfl⟩
    · obtain ⟨n, k, hd, heq⟩ := condition.exists_descends hn h
      exact ⟨n + 1, k, .elseCondition hd, by omega⟩
    · obtain ⟨n, k, hd, heq⟩ := thenStatement.exists_descends hn h
      exact ⟨n + 1, k, .elseThen hd, by omega⟩
    · obtain ⟨n, k, hd, heq⟩ := elseStatement.exists_descends hn h
      exact ⟨n + 1, k, .elseElse hd, by omega⟩
  | .whileLoop whileKeyword condition body, h => by
    simp only [outline, List.cons_append, List.mem_cons, List.mem_append, Row.ne_token hn,
      false_or] at h
    rcases h with rfl | h | h
    · exact ⟨1, 0, .here _, rfl⟩
    · obtain ⟨n, k, hd, heq⟩ := condition.exists_descends hn h
      exact ⟨n + 1, k, .whileCondition hd, by omega⟩
    · obtain ⟨n, k, hd, heq⟩ := body.exists_descends hn h
      exact ⟨n + 1, k, .whileBody hd, by omega⟩
  | .forLoop forKeyword identifier equals lower toKeyword upper body, h => by
    simp only [outline, List.cons_append, List.append_assoc, List.mem_cons, List.mem_append,
      Row.ne_token hn, false_or] at h
    rcases h with rfl | h | h | h
    · exact ⟨1, 0, .here _, rfl⟩
    · obtain ⟨n, k, hd, heq⟩ := lower.exists_descends hn h
      exact ⟨n + 1, k, .lower hd, by omega⟩
    · obtain ⟨n, k, hd, heq⟩ := upper.exists_descends hn h
      exact ⟨n + 1, k, .upper hd, by omega⟩
    · obtain ⟨n, k, hd, heq⟩ := body.exists_descends hn h
      exact ⟨n + 1, k, .forBody hd, by omega⟩
  | .expression inner, h => by
    simp only [outline, List.mem_cons] at h
    rcases h with rfl | h
    · exact ⟨1, 0, .here _, rfl⟩
    · obtain ⟨n, k, hd, heq⟩ := inner.exists_descends hn h
      exact ⟨n + 1, k, .expression hd, by omega⟩

theorem Statement.exists_descends_of_mem {d : Nat} (hn : row.token? = none) :
    (ss : List Statement) → row ∈ Statement.outlines d ss →
      ∃ s ∈ ss, ∃ n k, s.Descends n k ∧ row.depth + 1 = d + n
  | [], h => by simp [outlines] at h
  | s :: rest, h => by
    simp only [outlines, List.mem_append] at h
    rcases h with h | h
    · exact ⟨s, List.mem_cons_self, s.exists_descends hn h⟩
    · obtain ⟨s', hs', hd⟩ := Statement.exists_descends_of_mem hn rest h
      exact ⟨s', List.mem_cons_of_mem s hs', hd⟩

end

end Rows

def longest : Nat → Nat
  | 0 => 1
  | n + 1 => longest n + n + 1

theorem longest_mul_two (n : Nat) : longest n * 2 = n * (n + 1) + 2 := by
  induction n with
  | zero => rfl
  | succ n ih =>
    simp only [longest, Nat.add_mul, Nat.mul_add] at ih ⊢
    omega

/-- No way down has more nodes than `a`, without those that it leaves for their left operand, nor
more than `b` in all. -/
def Expression.Bounded (a b : Nat) (e : Expression) : Prop :=
  ∀ n k, e.Descends n k → n ≤ a + k ∧ n ≤ b

def Statement.Bounded (a b : Nat) (s : Statement) : Prop :=
  ∀ n k, s.Descends n k → n ≤ a + k ∧ n ≤ b

namespace Expression

variable {a b c d : Nat} {e l r : Expression}

theorem Bounded.mono (h : e.Bounded a b) (ha : a ≤ c) (hb : b ≤ d) : e.Bounded c d := by
  intro n k hd
  have hn := h n k hd
  omega

theorem bounded_literal (t : Token) (v : Value) : (literal t v).Bounded (a + 1) (b + 1) := by
  intro n k hd
  cases hd
  omega

theorem bounded_name (t : Token) : (name t).Bounded (a + 1) (b + 1) := by
  intro n k hd
  cases hd
  omega

theorem Bounded.unary (h : e.Bounded a b) (t : Token) : (unary t e).Bounded (a + 1) (b + 1) := by
  intro n k hd
  cases hd with
  | here => omega
  | operand hd =>
    have hn := h _ _ hd
    omega

theorem Bounded.binary (hl : l.Bounded a b) (hr : r.Bounded c b) (hc : c + 1 ≤ a) (t : Token) :
    (binary l t r).Bounded a (b + 1) := by
  intro n k hd
  cases hd with
  | here => omega
  | left hd =>
    have hn := hl _ _ hd
    omega
  | right hd =>
    have hn := hr _ _ hd
    omega

theorem Bounded.parenthesized (h : e.Bounded a b) (o c : Token) :
    (parenthesized o e c).Bounded (a + 1) (b + 1) := by
  intro n k hd
  cases hd with
  | here => omega
  | inner hd =>
    have hn := h _ _ hd
    omega

theorem Bounded.assignment (h : e.Bounded a b) (i t : Token) :
    (assignment i t e).Bounded (a + 1) (b + 1) := by
  intro n k hd
  cases hd with
  | here => omega
  | source hd =>
    have hn := h _ _ hd
    omega

theorem bounded_call {es : List Expression} (h : ∀ e ∈ es, e.Bounded a b) (i o c : Token) :
    (call i o es c).Bounded (a + 1) (b + 1) := by
  intro n k hd
  cases hd with
  | here => omega
  | argument he hd =>
    have hn := h _ he _ _ hd
    omega

end Expression

theorem Statement.Bounded.mono {a b c d : Nat} {s : Statement} (h : s.Bounded a b) (ha : a ≤ c)
    (hb : b ≤ d) : s.Bounded c d := by
  intro n k hd
  have hn := h n k hd
  omega

theorem Statement.composes_bounded {a b : Nat} :
    Grammar.Composes (Bounded a b) (Expression.Bounded a b) (Bounded (a + 1) (b + 1)) where
  block o ss c hss n k hd := by
    cases hd with
    | here => omega
    | member hs hd =>
      have hn := hss _ hs _ _ hd
      omega
  declaration t i clause q e he n k hd := by
    cases hd with
    | here => omega
    | initializer hd =>
      have hn := he _ _ hd
      omega
  ifThen t e s he hs n k hd := by
    cases hd with
    | here => omega
    | ifCondition hd =>
      have hn := he _ _ hd
      omega
    | ifThen hd =>
      have hn := hs _ _ hd
      omega
  ifThenElse t e s l s' he hs hs' n k hd := by
    cases hd with
    | here => omega
    | elseCondition hd =>
      have hn := he _ _ hd
      omega
    | elseThen hd =>
      have hn := hs _ _ hd
      omega
    | elseElse hd =>
      have hn := hs' _ _ hd
      omega
  whileLoop t e s he hs n k hd := by
    cases hd with
    | here => omega
    | whileCondition hd =>
      have hn := he _ _ hd
      omega
    | whileBody hd =>
      have hn := hs _ _ hd
      omega
  forLoop t i q e l e' s he he' hs n k hd := by
    cases hd with
    | here => omega
    | lower hd =>
      have hn := he _ _ hd
      omega
    | upper hd =>
      have hn := he' _ _ hd
      omega
    | forBody hd =>
      have hn := hs _ _ hd
      omega
  expression e he n k hd := by
    cases hd with
    | here => omega
    | expression hd =>
      have hn := he _ _ hd
      omega

open Reader Grammar

/-- How long ways down can be in what the readers of a level give, where `n` levels are left. -/
structure Level.Bounds (n : Nat) (l : Level) : Prop where
  statement : Gives (Statement.Bounded (n + 2) (max (n + 2) (longest (n - 1) + 1))) l.statement
  expression : Gives (Expression.Bounded (n + 1) (longest n)) l.expression
  operation (least : Precedence) :
    Gives (Expression.Bounded (n + 2) (longest (n + 1))) (l.operation least)
  chain (least : Precedence) {left : Expression} {a b : Nat} (h : left.Bounded a b)
    (ha : n + 2 ≤ a) (hb : longest n ≤ b) :
    Gives (Expression.Bounded a (b + n)) (l.chain least left)

namespace Level

theorem gives_primary_bounded {expression : Reader Expression} {a b : Nat}
    (he : Gives (Expression.Bounded a b) expression) :
    Gives (Expression.Bounded (a + 1) (b + 1)) (primary expression) :=
  gives_primary he Expression.bounded_literal Expression.bounded_name
    (fun o _ c h => h.parenthesized o c) (fun i o _ c h => Expression.bounded_call h i o c)

theorem bounds_bottom : bottom.Bounds 0 := by
  have htooDeep : Gives (Expression.Bounded 1 1) tooDeep := gives_tooDeep Expression.bounded_name
  have hchain {left : Expression} {a b : Nat} (least : Precedence) (h : left.Bounded a b) :
      Gives (Expression.Bounded a b) (bottom.bottomChain least left) := by
    refine gives_after fun kind => ?_
    dsimp only
    split
    · exact gives_after fun _ => gives_pure h
    · exact gives_pure h
  refine ⟨?_, htooDeep, fun least => ?_, fun least _ a b h _ _ => hchain least h⟩
  · exact htooDeep.bind fun e h => gives_pure (Statement.composes_bounded.expression e h)
  · refine gives_after fun kind => ?_
    dsimp only
    split
    · exact htooDeep.bind fun left h => hchain least (h.mono (by decide) (by decide))
    · exact (gives_primary_bounded htooDeep).bind fun left h => hchain least h

variable {n : Nat} {below : Level}

theorem bounds_above (hb : below.Bounds n) : (above below).Bounds (n + 1) := by
  have hlongest : longest (n + 1) = longest n + n + 1 := rfl
  have hexpression : Gives (Expression.Bounded (n + 2) (longest (n + 1)))
      (Grammar.expression below) := by
    refine gives_expression hb.expression (fun i t e h => ?_) (hb.operation _)
    exact (h.assignment i t).mono (by omega) (by omega)
  have hchain {left : Expression} {a b : Nat} (least : Precedence) (h : left.Bounded a b)
      (ha : n + 3 ≤ a) (hlb : longest (n + 1) ≤ b) :
      Gives (Expression.Bounded a (b + (n + 1))) (Grammar.chain below least left) := by
    refine gives_chain (h.mono (by omega) (by omega)) hb.operation fun t right hright => ?_
    have hnode := h.binary (hright.mono (Nat.le_refl _) hlb) (by omega) t
    have hrest := hb.chain least hnode (by omega) (by omega)
    rwa [Nat.add_right_comm, Nat.add_assoc] at hrest
  refine ⟨?_, hexpression, fun least => ?_, fun least _ a b h ha hlb => hchain least h ha hlb⟩
  · have hbelow : longest (n - 1) + 1 ≤ max (n + 2) (longest n) := by
      cases n with
      | zero => decide
      | succ n =>
        simp only [longest, Nat.add_sub_cancel]
        omega
    have hstatement : Gives (Statement.Bounded (n + 2) (max (n + 2) (longest n))) below.statement :=
      fun c => (hb.statement c).mono (by omega) (by omega)
    have hpart : Gives (Expression.Bounded (n + 2) (max (n + 2) (longest n))) below.expression :=
      fun c => (hb.expression c).mono (by omega) (by omega)
    intro c
    have hs := gives_statement hstatement hpart Statement.composes_bounded c
    exact hs.mono (by omega) (by rw [Nat.add_sub_cancel]; omega)
  · have hoperand : Gives (Expression.Bounded (n + 3) (longest (n + 1) + 1)) (operand below) := by
      refine gives_operand hb.operation (fun t e h => h.unary t) ?_
      exact gives_primary_bounded hexpression
    refine hoperand.bind fun left h => ?_
    have hrest := hchain least h (Nat.le_refl _) (Nat.le_succ _)
    rwa [Nat.add_right_comm] at hrest

theorem bounds_ofDepth (n : Nat) : (ofDepth n).Bounds n := by
  induction n with
  | zero => exact bounds_bottom
  | succ n ih => exact bounds_above ih

end Level

namespace Fragment

/-- In the tree of a text, no way down has more nodes than the limit and two, if those are not
counted that it leaves for their left operand; and the number of all nodes on it is at most half
the square of the limit. -/
theorem nodes_bounded (text : String) {n k : Nat}
    (h : (ofText text).tree.statement.Descends n k) :
    n ≤ nestingLimit + 2 + k ∧ n ≤ nestingLimit * (nestingLimit - 1) / 2 + 2 := by
  have hbounds := (Level.bounds_ofDepth nestingLimit).statement
    (.ofLexemes (Lexeme.ofText text)) n k h
  have hlongest : longest (nestingLimit - 1) * 2 = nestingLimit * (nestingLimit - 1) + 2 * 1 :=
    longest_mul_two (nestingLimit - 1)
  have hhalf : longest (nestingLimit - 1) = nestingLimit * (nestingLimit - 1) / 2 + 1 := by omega
  have hlimit : nestingLimit + 2 ≤ nestingLimit * (nestingLimit - 1) / 2 + 2 := by decide
  omega

/-- As many signs in front of a number as can be, and operators behind it. -/
def steep : String :=
  String.ofList (List.replicate (nestingLimit - 2) '-' ++ ['1', '+', '1', '+', '1', '+', '1'])

theorem steep_faultless : (ofText steep).diagnostics = [] ∧
    ∃ row ∈ (ofText steep).tree.statement.outline 1,
      row.token? = none ∧ nestingLimit + 2 < row.depth := by
  decide +kernel

theorem nodes_bounded_steep :
    ∃ n k, (ofText steep).tree.statement.Descends n k ∧ nestingLimit + 2 < n ∧
      n ≤ nestingLimit + 2 + k ∧ n ≤ nestingLimit * (nestingLimit - 1) / 2 + 2 := by
  obtain ⟨row, hrow, hn, hdepth⟩ := steep_faultless.2
  obtain ⟨n, k, hd, heq⟩ := Statement.exists_descends hn _ hrow
  exact ⟨n, k, hd, by omega, nodes_bounded steep hd⟩

theorem nodes_exceed_limit :
    (ofText steep).diagnostics = [] ∧
      ∃ n k, (ofText steep).tree.statement.Descends n k ∧ nestingLimit + 2 < n := by
  obtain ⟨hread, row, hrow, hn, hdepth⟩ := steep_faultless
  obtain ⟨n, k, hd, heq⟩ := Statement.exists_descends hn _ hrow
  exact ⟨hread, n, k, hd, by omega⟩

end Fragment

end ScalarScript
