import ScalarScript.Proofs.Tree.Printing

/-!
Reading back the printed tokens of expressions. A reader that has the tokens of an expression ahead,
and behind them nothing that could go on with it, takes just these tokens, notes nothing and gives
the expression, but for the places of its tokens. For a chain of operators this is said of its left
part while the rest is still to come: read so far, the chain goes on with what was read.
-/

set_option autoImplicit false

namespace ScalarScript

def Cursor.facing (c : Cursor) (ls : List Lexeme) : Cursor := { c with ahead := ls }

section Facing

variable (c : Cursor) (l : Lexeme) (ls : List Lexeme)

@[simp] theorem Cursor.ahead_facing : (c.facing ls).ahead = ls := rfl

@[simp] theorem Cursor.current_facing_cons : (c.facing (l :: ls)).current = l := rfl

@[simp] theorem Cursor.kind_facing_cons : (c.facing (l :: ls)).kind = l.token.kind := rfl

@[simp] theorem Cursor.advance_facing_cons : (c.facing (l :: ls)).advance = c.facing ls := rfl

theorem Cursor.peek_facing_cons : (c.facing (l :: ls)).peek 1 = (c.facing ls).current := by
  cases ls <;> rfl

end Facing

abbrev Shown (ls : List Lexeme) (ts : List Token) : Prop := List.Forall₂ Lexeme.Shows ls ts

namespace Shown

variable {ls : List Lexeme} {t : Token} {ts us : List Token}

theorem cons (h : Shown ls (t :: ts)) :
    ∃ l ls', ls = l :: ls' ∧ l.Shows t ∧ Shown ls' ts :=
  have ⟨l, ls', hl, hls', heq⟩ := List.forall₂_cons_right_iff.mp h
  ⟨l, ls', heq, hl, hls'⟩

theorem append (h : Shown ls (ts ++ us)) :
    ∃ ls₁ ls₂, ls = ls₁ ++ ls₂ ∧ Shown ls₁ ts ∧ Shown ls₂ us := by
  induction ts generalizing ls with
  | nil => exact ⟨[], ls, rfl, .nil, h⟩
  | cons t ts ih =>
    obtain ⟨l, ls, rfl, hl, hls⟩ := cons h
    obtain ⟨ls₁, ls₂, rfl, h₁, h₂⟩ := ih hls
    exact ⟨l :: ls₁, ls₂, rfl, List.Forall₂.cons hl h₁, h₂⟩

theorem single (h : Shown ls [t]) : ∃ l, ls = [l] ∧ l.Shows t := by
  obtain ⟨l, ls, rfl, hl, hls⟩ := cons h
  cases hls
  exact ⟨l, rfl, hl⟩

end Shown

namespace Lexeme.Shows

variable {l : Lexeme} {t : Token} {kind : TokenKind}

theorem kind_eq (h : l.Shows t) : l.token.kind = t.kind := by
  have hkind := congrArg Token.kind h.token
  exact hkind

theorem kind_is (h : l.Shows t) (ht : t.Is kind) : l.token.kind = kind := h.kind_eq.trans ht.1

end Lexeme.Shows

namespace Reader

variable {α β : Type} {c : Cursor} {l : Lexeme} {ls mid rest : List Lexeme}

/-- With `ls` ahead, the reader takes what is there before `rest`, notes nothing and gives something
of this kind. -/
def Rereads (c : Cursor) (ls rest : List Lexeme) (x : Reader α) (gives : α → Prop) : Prop :=
  ∃ a, x.run (c.facing ls) = (a, c.facing rest) ∧ gives a

theorem Rereads.bind {x : Reader α} {f : α → Reader β} {gives : α → Prop} {gives' : β → Prop}
    (hx : Rereads c ls mid x gives) (hf : ∀ a, gives a → Rereads c mid rest (f a) gives') :
    Rereads c ls rest (x >>= f) gives' := by
  obtain ⟨a, hrun, ha⟩ := hx
  obtain ⟨b, hrun', hb⟩ := hf a ha
  refine ⟨b, ?_, hb⟩
  rw [StateT.run_bind, hrun]
  exact hrun'

theorem Rereads.pure {a : α} {gives : α → Prop} (h : gives a) :
    Rereads c ls ls (Pure.pure a) gives := ⟨a, rfl, h⟩

theorem rereads_kind {f : TokenKind → Reader α} {gives : α → Prop}
    (h : Rereads c ls rest (f (c.facing ls).kind) gives) :
    Rereads c ls rest (kind >>= f) gives := h

theorem rereads_get {f : Cursor → Reader α} {gives : α → Prop}
    (h : Rereads c ls rest (f (c.facing ls)) gives) :
    Rereads c ls rest (get >>= f) gives := h

theorem rereads_take (c : Cursor) (l : Lexeme) (ls : List Lexeme) :
    Rereads c (l :: ls) ls take (fun m => m = l) := ⟨l, rfl, rfl⟩

theorem rereads_expect {t : Token} {kind : TokenKind} (hl : l.Shows t) (ht : t.Is kind) :
    Rereads c (l :: ls) ls (expect kind) (fun u => u.unplaced = t.unplaced) := by
  refine ⟨l.token, ?_, hl.token⟩
  simp [expect, hl.kind_is ht]
  rfl

end Reader

open Reader

/-- What may stand after an expression whose operators bind at least as tightly as this: no operator
that binds tighter, and nothing that would make a call or an assignment of a name before it. -/
structure Trails (level : Nat) (kind : TokenKind) : Prop where
  not_openParen : kind ≠ .openParen
  not_equals : kind ≠ .equals
  operator (p : Precedence) (h : kind.binaryPrecedence? = some p) : p.level ≤ level

namespace Trails

variable {level level' : Nat} {kind : TokenKind} {least : Precedence}

theorem mono (h : Trails level kind) (hle : level ≤ level') : Trails level' kind :=
  ⟨h.not_openParen, h.not_equals, fun p hp => Nat.le_trans (h.operator p hp) hle⟩

theorem of_operator {p : Precedence} (h : kind.binaryPrecedence? = some p) :
    Trails p.level kind where
  not_openParen := by rintro rfl; cases h
  not_equals := by rintro rfl; cases h
  operator q hq := by
    obtain rfl : p = q := Option.some.inj (h.symm.trans hq)
    exact Nat.le_refl _

theorem operatorAbove? (h : Trails level kind) (hle : level ≤ least.level) :
    Grammar.operatorAbove? least kind = none := by
  unfold Grammar.operatorAbove?
  cases hp : kind.binaryPrecedence? with
  | none => rfl
  | some p => exact if_neg (Nat.not_lt.mpr (Nat.le_trans (h.operator p hp) hle))

end Trails

theorem Grammar.operatorAbove?_unary (kind : TokenKind) :
    operatorAbove? .unary kind = none := by
  unfold operatorAbove?
  cases hp : kind.binaryPrecedence? with
  | none => rfl
  | some p => exact if_neg (Nat.not_lt.mpr (Nat.le_of_lt (TokenKind.binaryPrecedence?_bounds hp).2))

theorem trails_closeParen : Trails 0 .closeParen := ⟨by decide, by decide, nofun⟩

theorem trails_comma : Trails 0 .comma := ⟨by decide, by decide, nofun⟩

theorem Grammar.operatorAbove?_eq_some {least p : Precedence} {kind : TokenKind}
    (h : kind.binaryPrecedence? = some p) (hlt : least.level < p.level) :
    operatorAbove? least kind = some p := by
  simp [operatorAbove?, h, hlt]

namespace Level

variable {n : Nat} {c : Cursor} {l : Lexeme} {ls mid rest : List Lexeme} {least p : Precedence}
variable {given : Expression → Prop} {gives : Expression → Prop}

theorem rereads_chain_end (h : Grammar.operatorAbove? least (c.facing rest).kind = none) (n : Nat)
    {left : Expression} (hleft : gives left) :
    Rereads c rest rest ((ofDepth n).chain least left) gives := by
  cases n with
  | zero =>
    refine rereads_kind ?_
    rw [h]
    exact .pure hleft
  | succ n =>
    refine rereads_kind ?_
    rw [h]
    exact .pure hleft

/-- A chain goes on behind an operator that binds tightly enough, one level deeper. -/
theorem rereads_chain_operator {left : Expression}
    (h : Grammar.operatorAbove? least l.token.kind = some p)
    (hright : Rereads c ls mid ((ofDepth n).operation p) given)
    (hmore : ∀ right, given right →
      Rereads c mid rest ((ofDepth n).chain least (.binary left l.token right)) gives) :
    Rereads c (l :: ls) rest ((ofDepth (n + 1)).chain least left) gives := by
  refine rereads_kind ?_
  rw [Cursor.kind_facing_cons, h]
  refine (rereads_take c l ls).bind ?_
  rintro _ rfl
  exact hright.bind hmore

theorem rereads_operation_unary (h : l.token.kind.unaryPrecedence? = some p)
    (hoperand : Rereads c ls mid ((ofDepth n).operation p) given)
    (hmore : ∀ operand, given operand →
      Rereads c mid rest ((ofDepth (n + 1)).chain least (.unary l.token operand)) gives) :
    Rereads c (l :: ls) rest ((ofDepth (n + 1)).operation least) gives := by
  have hfirst : Rereads c (l :: ls) mid (Grammar.operand (ofDepth n)) fun e =>
      ∃ operand, given operand ∧ e = .unary l.token operand := by
    refine rereads_kind ?_
    rw [Cursor.kind_facing_cons, h]
    refine (rereads_take c l ls).bind ?_
    rintro _ rfl
    exact hoperand.bind fun operand hgiven => .pure ⟨operand, hgiven, rfl⟩
  refine hfirst.bind ?_
  rintro _ ⟨operand, hgiven, rfl⟩
  exact hmore operand hgiven

/-- At any level, what has no operator in front is read as an operand, of expressions of this
level. -/
theorem rereads_operation_primary (h : (c.facing ls).kind.unaryPrecedence? = none)
    (hfirst : Rereads c ls mid (Grammar.primary (ofDepth n).expression) given)
    (hmore : ∀ left, given left → Rereads c mid rest ((ofDepth n).chain least left) gives) :
    Rereads c ls rest ((ofDepth n).operation least) gives := by
  cases n with
  | zero =>
    -- where nothing may be nested any more, operands of expressions of this level still are read
    refine rereads_kind ?_
    rw [h]
    exact hfirst.bind hmore
  | succ n =>
    refine Rereads.bind ?_ hmore
    refine rereads_kind ?_
    rw [h]
    exact hfirst

end Level

namespace Expression

/-- With the expression's tokens ahead, they are read as the expression, at every level that leaves
room for its nesting. -/
def Rereadable (e : Expression) : Prop :=
  ∀ ⦃c n ls rest⦄, e.depth < n → Shown ls e.printed → Trails 0 (Cursor.kind (c.facing rest)) →
    Rereads c (ls ++ rest) rest (Level.ofDepth n).expression fun e' => e'.unplaced = e.unplaced

/-- With the expression's tokens ahead, the operation that they begin goes on with the expression as
its left part. -/
def Operates (e : Expression) : Prop :=
  ∀ ⦃c n least ls mid rest gives⦄, Precedence.level least < e.tightness → e.depth ≤ n →
    Shown ls e.printed → Trails e.tightness (Cursor.kind (c.facing mid)) →
    (∀ e', e'.unplaced = e.unplaced →
      Rereads c mid rest ((Level.ofDepth (n - e.joints)).chain least e') gives) →
    Rereads c (ls ++ mid) rest ((Level.ofDepth n).operation least) gives

def Primary (e : Expression) : Prop :=
  ∀ ⦃c n ls rest⦄, e.depth ≤ n → Shown ls e.printed →
    Cursor.kind (c.facing rest) ≠ .openParen →
    (c.facing (ls ++ rest)).kind.unaryPrecedence? = none ∧
    Rereads c (ls ++ rest) rest (Grammar.primary (Level.ofDepth n).expression)
      fun e' => e'.unplaced = e.unplaced

theorem Primary.operates {e : Expression} (h : e.Primary) (hjoints : e.joints = 0) :
    e.Operates := by
  intro c n least ls mid rest gives _ hdepth hls htrails hmore
  obtain ⟨hkind, hreads⟩ := h hdepth hls htrails.not_openParen
  rw [hjoints] at hmore
  exact Level.rereads_operation_primary hkind hreads hmore

theorem primary_boolean {t : Token} {b : Bool}
    (h : t.Is (if b then .trueKeyword else .falseKeyword)) : (literal t (.bool b)).Primary := by
  intro c n ls rest _ hls _
  obtain ⟨l, rfl, hl⟩ := Shown.single hls
  have hkind := hl.kind_is h
  refine ⟨by rw [List.singleton_append, Cursor.kind_facing_cons, hkind]; cases b <;> rfl, ?_⟩
  refine rereads_get ?_
  rw [List.singleton_append, Cursor.kind_facing_cons]
  have hread : Rereads c (l :: rest) rest Grammar.booleanLiteral
      fun e' => e'.unplaced = (literal t (.bool b)).unplaced := by
    refine (rereads_take c l rest).bind ?_
    rintro _ rfl
    refine .pure ?_
    simp only [unplaced, hl.token, hkind]
    cases b <;> rfl
  rw [hkind]
  cases b <;> exact hread

theorem primary_literal {t : Token} {v : Value} (h : t.Denotes (some v)) :
    (literal t v).Primary := by
  intro c n ls rest _ hls _
  obtain ⟨l, rfl, hl⟩ := Shown.single hls
  have hvalue : l.value = some v := hl.value.value_unique h
  have hread : Rereads c (l :: rest) rest Grammar.literal
      fun e' => e'.unplaced = (literal t v).unplaced := by
    refine (rereads_take c l rest).bind ?_
    rintro _ rfl
    exact .pure (by simp [unplaced, hl.token, hvalue])
  have hkind := hl.kind_eq ▸ Lexical.kind_of_value h
  constructor
  · rcases hkind with hk | hk <;> simp [hk, TokenKind.unaryPrecedence?]
  · refine rereads_get ?_
    rw [List.singleton_append, Cursor.kind_facing_cons]
    rcases hkind with hk | hk <;> rw [hk] <;> exact hread

theorem primary_name {t : Token} (h : t.Is .identifier) : (name t).Primary := by
  intro c n ls rest _ hls hopen
  obtain ⟨l, rfl, hl⟩ := Shown.single hls
  have hkind := hl.kind_is h
  refine ⟨by simp [hkind, TokenKind.unaryPrecedence?], rereads_get ?_⟩
  rw [List.singleton_append, Cursor.kind_facing_cons, hkind]
  dsimp only
  rw [Cursor.peek_facing_cons, if_neg (show (c.facing rest).current.token.kind ≠ _ from hopen)]
  exact (rereads_expect hl h).bind fun u hu => .pure (by simp [unplaced, hu])

theorem primary_parenthesized {openParen : Token} {inner : Expression} {closeParen : Token}
    (hopen : openParen.Is .openParen) (hinner : inner.Rereadable)
    (hclose : closeParen.Is .closeParen) :
    (parenthesized openParen inner closeParen).Primary := by
  intro c n ls rest hdepth hshown _
  obtain ⟨l, _, rfl, hl, htail⟩ := Shown.cons hshown
  obtain ⟨ls, _, rfl, hls, hlast⟩ := Shown.append htail
  obtain ⟨m, rfl, hm⟩ := Shown.single hlast
  have hkind := hl.kind_is hopen
  refine ⟨by simp [hkind, TokenKind.unaryPrecedence?], rereads_get ?_⟩
  simp only [List.cons_append, List.append_assoc, List.nil_append]
  rw [Cursor.kind_facing_cons, hkind]
  refine (rereads_expect hl hopen).bind fun openParen' ho => ?_
  refine (hinner hdepth hls ?_).bind fun inner' hi => ?_
  · rw [Cursor.kind_facing_cons, hm.kind_is hclose]
    exact trails_closeParen
  · exact (rereads_expect hm hclose).bind fun closeParen' hc =>
      .pure (by simp [unplaced, ho, hi, hc])

def Heads (kind : TokenKind) : Prop :=
  kind.unaryPrecedence?.isSome ∨
    kind ∈ [.number, .string, .trueKeyword, .falseKeyword, .identifier, .openParen]

theorem Printable.head {e : Expression} (h : e.Printable) :
    ∃ t ts, e.printed = t :: ts ∧ Heads t.kind := by
  induction h with
  | boolean h =>
    refine ⟨_, _, rfl, .inr ?_⟩
    rw [h.1]
    split <;> decide
  | literal h =>
    refine ⟨_, _, rfl, .inr ?_⟩
    rcases Lexical.kind_of_value h with hk | hk <;> simp [hk]
  | name h => exact ⟨_, _, rfl, .inr (by simp [h.1])⟩
  | unary _ hoperator _ _ _ => exact ⟨_, _, rfl, .inl (by simp [hoperator])⟩
  | binary _ _ _ _ _ _ hleft _ =>
    obtain ⟨t, ts, hprinted, ht⟩ := hleft
    exact ⟨t, _, by rw [printed, hprinted, List.cons_append], ht⟩
  | parenthesized hopen _ _ _ => exact ⟨_, _, rfl, .inr (by simp [hopen.1])⟩
  | assignment hidentifier _ _ _ => exact ⟨_, _, rfl, .inr (by simp [hidentifier.1])⟩
  | call hidentifier _ _ _ _ => exact ⟨_, _, rfl, .inr (by simp [hidentifier.1])⟩

theorem Printable.head_shown {e : Expression} (h : e.Printable) {ls : List Lexeme}
    (hls : Shown ls e.printed) : ∃ l ls', ls = l :: ls' ∧ Heads l.token.kind := by
  obtain ⟨t, ts, hprinted, ht⟩ := h.head
  obtain ⟨l, ls, rfl, hl, -⟩ := Shown.cons (hprinted ▸ hls)
  exact ⟨l, ls, rfl, hl.kind_eq ▸ ht⟩

theorem Heads.ne {kind other : TokenKind} (h : Heads kind)
    (hother : other.unaryPrecedence? = none ∧ other ∉
      [TokenKind.number, .string, .trueKeyword, .falseKeyword, .identifier, .openParen]) :
    kind ≠ other := by
  rintro rfl
  rcases h with h | h
  · simp [hother.1] at h
  · exact hother.2 h

theorem trails_printedAfter {arguments : List Expression} {c : Cursor} {ls rest : List Lexeme}
    (hls : Shown ls (printedAfter arguments)) (hclose : (c.facing rest).kind = .closeParen) :
    Trails 0 (c.facing (ls ++ rest)).kind := by
  cases arguments with
  | nil =>
    cases hls
    rw [List.nil_append, hclose]
    exact trails_closeParen
  | cons e arguments =>
    obtain ⟨l, ls, rfl, hl, -⟩ := Shown.cons hls
    rw [List.cons_append, Cursor.kind_facing_cons, hl.kind_eq]
    exact trails_comma

/-- Arguments are read up to the closing parenthesis, unless there are more of them than may be. -/
theorem rereads_arguments {arguments : List Expression} {c : Cursor} {n : Nat} {rest : List Lexeme}
    (hprintable : ∀ e ∈ arguments, e.Printable) (hargs : ∀ e ∈ arguments, e.Rereadable)
    (hdepth : depthAll arguments ≤ n) (hclose : (c.facing rest).kind = .closeParen) (fuel : Nat)
    (hfuel : arguments.length ≤ fuel) {ls : List Lexeme}
    (hls : Shown ls (printedAfter arguments).tail) :
    Rereads c (ls ++ rest) rest (Grammar.argumentsWithin (Level.ofDepth n).expression fuel)
      fun es => unplacedAll es = unplacedAll arguments := by
  induction arguments generalizing ls fuel with
  | nil =>
    cases hls
    cases fuel with
    | zero => exact .pure rfl
    | succ fuel =>
      refine rereads_kind ?_
      rw [List.nil_append, if_pos (.inl hclose)]
      exact .pure rfl
  | cons e arguments ih =>
    obtain ⟨fuel, rfl⟩ : ∃ k, fuel = k + 1 := ⟨fuel - 1, by simp at hfuel; omega⟩
    obtain ⟨hprintable, hprintables⟩ := List.forall_mem_cons.mp hprintable
    obtain ⟨harg, hargs⟩ := List.forall_mem_cons.mp hargs
    obtain ⟨hfirst, hdepth⟩ := Nat.max_le.mp hdepth
    obtain ⟨ls₁, ls₂, rfl, hls₁, hls₂⟩ := Shown.append (show Shown ls (e.printed ++ _) from hls)
    obtain ⟨l, ls, rfl, hhead⟩ := hprintable.head_shown hls₁
    refine rereads_kind ?_
    rw [List.cons_append, List.cons_append, Cursor.kind_facing_cons, if_neg
      (not_or.mpr ⟨hhead.ne (by decide), hhead.ne (by decide)⟩)]
    have htrails := trails_printedAfter hls₂ hclose
    rw [← List.cons_append, ← List.cons_append, List.append_assoc]
    refine (harg hfirst hls₁ htrails).bind fun e' he' => rereads_kind ?_
    cases arguments with
    | nil =>
      cases hls₂
      rw [List.nil_append, hclose]
      exact .pure (by simp [unplacedAll, he'])
    | cons f arguments =>
      obtain ⟨m, ls₂, rfl, hm, hls₂⟩ := Shown.cons hls₂
      have hcomma : m.token.kind = .comma := hm.kind_eq
      rw [List.cons_append, Cursor.kind_facing_cons, hcomma]
      refine (rereads_take c m _).bind fun _ _ => ?_
      refine (ih hprintables hargs hdepth fuel (by simpa using hfuel) hls₂).bind fun es hes => ?_
      exact .pure (by simp [unplacedAll, he', hes])

theorem length_printedAfter (arguments : List Expression) :
    arguments.length ≤ (printedAfter arguments).length := by
  induction arguments with
  | nil => exact Nat.le_refl _
  | cons e arguments ih =>
    simp only [printedAfter, List.length_append, List.length_cons]
    omega

theorem primary_call {identifier openParen : Token} {arguments : List Expression}
    {closeParen : Token} (hidentifier : identifier.Is .identifier) (hopen : openParen.Is .openParen)
    (hprintable : ∀ e ∈ arguments, e.Printable) (hargs : ∀ e ∈ arguments, e.Rereadable)
    (hclose : closeParen.Is .closeParen) :
    (call identifier openParen arguments closeParen).Primary := by
  intro c n ls rest hdepth hshown _
  obtain ⟨l, _, rfl, hl, htail⟩ := Shown.cons hshown
  obtain ⟨m, _, rfl, hm, hinside⟩ := Shown.cons htail
  obtain ⟨ls, _, rfl, hls, hend⟩ := Shown.append hinside
  obtain ⟨last, rfl, hlast⟩ := Shown.single hend
  have hkind := hl.kind_is hidentifier
  refine ⟨by simp [hkind, TokenKind.unaryPrecedence?], rereads_get ?_⟩
  simp only [List.cons_append, List.append_assoc, List.nil_append]
  rw [Cursor.kind_facing_cons, hkind]
  dsimp only
  rw [Cursor.peek_facing_cons, Cursor.current_facing_cons, if_pos (hm.kind_is hopen)]
  refine (rereads_expect hl hidentifier).bind fun identifier' hid => ?_
  refine (rereads_expect hm hopen).bind fun openParen' ho => rereads_get ?_
  have hlength := length_printedAfter arguments
  have hshows := hls.length_eq
  refine (rereads_arguments hprintable hargs hdepth (by simp [hlast.kind_is hclose]) _ ?_ hls).bind
    fun es hes => ?_
  · simp at hshows ⊢
    omega
  · exact (rereads_expect hlast hclose).bind fun closeParen' hc =>
      .pure (by simp [unplaced, hid, ho, hes, hc])

theorem operates_unary {operator : Token} {operand : Expression} {p : Precedence}
    (hoperator : operator.kind.unaryPrecedence? = some p) (hoperand : operand.Operates)
    (htight : p.level < operand.tightness) : (unary operator operand).Operates := by
  intro c n least ls mid rest gives _ hdepth hshown htrails hmore
  obtain ⟨l, ls, rfl, hl, hls⟩ := Shown.cons hshown
  obtain ⟨n, rfl⟩ : ∃ k, n = k + 1 := ⟨n - 1, by simp only [depth] at hdepth; omega⟩
  obtain rfl : p = .unary := by
    generalize operator.kind = kind at hoperator
    cases kind <;> simp [TokenKind.unaryPrecedence?] at hoperator <;> exact hoperator.symm
  -- nothing between operands binds as tightly as a sign, so the chain of the operand ends at once
  refine Level.rereads_operation_unary (p := .unary) (by rw [hl.kind_eq, hoperator])
    (hoperand htight (Nat.le_of_succ_le_succ hdepth) hls (htrails.mono htight) fun e' he' =>
      Level.rereads_chain_end (Grammar.operatorAbove?_unary _) _ he') fun e' he' => ?_
  exact hmore _ (by simp [unplaced, hl.token, he'])

/-- The left operand is read first, the chain goes on from it with the operator and the right
operand, and then with what was asked to go on from the whole. -/
theorem operates_binary {left : Expression} {operator : Token} {right : Expression}
    {p : Precedence} (hoperator : operator.kind.binaryPrecedence? = some p)
    (hleft : left.Operates) (hright : right.Operates) (htight : p.level ≤ left.tightness)
    (htighter : p.level < right.tightness) : (binary left operator right).Operates := by
  intro c n least ls mid rest gives hleast hdepth hshown htrails hmore
  have hp : (binary left operator right).tightness = p.level := by simp [tightness, hoperator]
  rw [hp] at hleast htrails
  obtain ⟨hdepthl, hdepthr⟩ := Nat.max_le.mp hdepth
  obtain ⟨ls₁, ls₂, rfl, hls₁, hls₂⟩ := Shown.append hshown
  obtain ⟨l, ls₂, rfl, hl, hls₂⟩ := Shown.cons hls₂
  have hkind := hl.kind_eq ▸ hoperator
  rw [List.append_assoc]
  refine hleft (Nat.lt_of_lt_of_le hleast htight) hdepthl hls₁ ?_ fun left' hl' => ?_
  · exact (Trails.of_operator hkind).mono htight
  -- each operator of the left operand took a level; the depth of the right one leaves one more
  obtain ⟨k, hk⟩ : ∃ k, n - left.joints = k + 1 := ⟨n - left.joints - 1, by omega⟩
  rw [hk, List.cons_append]
  refine Level.rereads_chain_operator (Grammar.operatorAbove?_eq_some hkind hleast)
    (hright htighter (by omega) hls₂ (htrails.mono (Nat.le_of_lt htighter)) fun right' hr' =>
      Level.rereads_chain_end (htrails.operatorAbove? (Nat.le_refl _)) _ hr') fun right' hr' => ?_
  have hlevel : n - (binary left operator right).joints = k := by
    simp only [joints]
    omega
  rw [hlevel] at hmore
  exact hmore _ (by simp [unplaced, hl', hl.token, hr'])

/-- What is no assignment is not read as one: no equals sign stands behind a name at its head. -/
theorem Printable.not_equals {e : Expression} (h : e.Printable) (htight : 0 < e.tightness) :
    ∃ t ts, e.printed = t :: ts ∧ (t.kind = .identifier → ∀ u ∈ ts.head?, u.kind ≠ .equals) := by
  induction h with
  | boolean _ | literal _ | name _ => exact ⟨_, _, rfl, by simp⟩
  | unary _ hoperator _ _ _ =>
    refine ⟨_, _, rfl, fun hk => ?_⟩
    simp [hk, TokenKind.unaryPrecedence?] at hoperator
  | binary _ hoperator _ _ htightl _ hleft _ =>
    rename_i p _
    have hp := (TokenKind.binaryPrecedence?_bounds hoperator).1
    obtain ⟨t, ts, hprinted, hhead⟩ := hleft (Nat.lt_of_lt_of_le hp htightl)
    refine ⟨t, _, by rw [printed, hprinted, List.cons_append], fun hk => ?_⟩
    cases ts with
    | nil => simpa using (Trails.of_operator hoperator).not_equals
    | cons u ts => simpa using hhead hk
  | parenthesized hopen _ _ _ => exact ⟨_, _, rfl, fun hk => by simp [hopen.1] at hk⟩
  | assignment _ _ _ _ => exact absurd htight (Nat.lt_irrefl 0)
  | call _ hopen _ _ _ => exact ⟨_, _, rfl, fun _ => by simp [hopen.1]⟩

theorem Operates.rereadable {e : Expression} (he : e.Operates) (h : e.Printable)
    (htight : 0 < e.tightness) : e.Rereadable := by
  intro c n ls rest hdepth hls htrails
  obtain ⟨n, rfl⟩ : ∃ k, n = k + 1 := ⟨n - 1, by omega⟩
  refine rereads_get ?_
  have hnot : ¬((c.facing (ls ++ rest)).kind = .identifier ∧
      ((c.facing (ls ++ rest)).peek 1).token.kind = .equals) := by
    rintro ⟨hid, heq⟩
    obtain ⟨t, ts, hprinted, hhead⟩ := h.not_equals htight
    obtain ⟨l, ls, rfl, hl, hls⟩ := Shown.cons (hprinted ▸ hls)
    rw [List.cons_append, Cursor.kind_facing_cons, hl.kind_eq] at hid
    rw [List.cons_append, Cursor.peek_facing_cons] at heq
    cases ts with
    | nil =>
      cases hls
      exact htrails.not_equals heq
    | cons u ts =>
      obtain ⟨m, ls, rfl, hm, -⟩ := Shown.cons hls
      exact hhead hid u rfl (hm.kind_eq ▸ heq)
  rw [if_neg hnot]
  exact he htight (Nat.le_of_lt_succ hdepth) hls (htrails.mono (Nat.zero_le _)) fun e' he' =>
    Level.rereads_chain_end (htrails.operatorAbove? (Nat.zero_le _)) _ he'

theorem rereadable_assignment {identifier equals : Token} {source : Expression}
    (hidentifier : identifier.Is .identifier) (hequals : equals.Is .equals)
    (hsource : source.Rereadable) : (assignment identifier equals source).Rereadable := by
  intro c n ls rest hdepth hshown htrails
  obtain ⟨n, rfl⟩ : ∃ k, n = k + 1 := ⟨n - 1, by omega⟩
  obtain ⟨l, _, rfl, hl, htail⟩ := Shown.cons hshown
  obtain ⟨m, ls, rfl, hm, hls⟩ := Shown.cons htail
  refine rereads_get ?_
  simp only [List.cons_append]
  rw [Cursor.peek_facing_cons, Cursor.kind_facing_cons, Cursor.current_facing_cons,
    if_pos ⟨hl.kind_is hidentifier, hm.kind_is hequals⟩]
  refine (rereads_take c l _).bind ?_
  rintro _ rfl
  refine (rereads_take c m _).bind ?_
  rintro _ rfl
  refine (hsource (Nat.lt_of_succ_lt_succ hdepth) hls htrails).bind fun source' hs => ?_
  exact .pure (by simp [unplaced, hl.token, hm.token, hs])

/-- Expressions fit for printing are read back, on their own and as left parts of chains. -/
theorem Printable.rereads {e : Expression} (h : e.Printable) : e.Operates ∧ e.Rereadable := by
  have hboth {e : Expression} (h : e.Printable) (htight : 0 < e.tightness) (he : e.Operates) :
      e.Operates ∧ e.Rereadable := ⟨he, he.rereadable h htight⟩
  have hprimary : 0 < Precedence.unary.level + 1 := by decide
  induction h with
  | boolean h => exact hboth (.boolean h) hprimary ((primary_boolean h).operates rfl)
  | literal h => exact hboth (.literal h) hprimary ((primary_literal h).operates rfl)
  | name h => exact hboth (.name h) hprimary ((primary_name h).operates rfl)
  | unary hvalid hoperator hoperand htight ih =>
    exact hboth (.unary hvalid hoperator hoperand htight) hprimary
      (operates_unary hoperator ih.1 htight)
  | binary hvalid hoperator hleft hright htight htighter ihl ihr =>
    refine hboth (.binary hvalid hoperator hleft hright htight htighter) ?_
      (operates_binary hoperator ihl.1 ihr.1 htight htighter)
    rw [tightness, hoperator]
    exact (TokenKind.binaryPrecedence?_bounds hoperator).1
  | parenthesized hopen hinner hclose ih =>
    exact hboth (.parenthesized hopen hinner hclose) hprimary
      ((primary_parenthesized hopen ih.2 hclose).operates rfl)
  | assignment hidentifier hequals hsource ih =>
    -- an assignment binds too loosely to be part of a chain
    exact ⟨fun _ _ _ _ _ _ _ hleast => absurd hleast (Nat.not_lt_zero _),
      rereadable_assignment hidentifier hequals ih.2⟩
  | call hidentifier hopen harguments hclose ih =>
    exact hboth (.call hidentifier hopen harguments hclose) hprimary
      ((primary_call hidentifier hopen harguments (fun e he => (ih e he).2) hclose).operates rfl)

theorem Printable.rereadable {e : Expression} (h : e.Printable) : e.Rereadable := h.rereads.2

end Expression

end ScalarScript
