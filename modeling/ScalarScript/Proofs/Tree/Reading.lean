import ScalarScript.Tree.Grammar
import ScalarScript.Proofs.Token.Lexemes
import ScalarScript.Proofs.Tree.Derivation

/-!
What reading a fragment makes of its lexemes. A reader takes lexemes off the front of those ahead,
and the tokens of what it gives are among them in their order, save those put in for missing ones.
Where it notes no fault, what it gives is a derivation of what it took: a missing token is put in,
and a lexeme left out, only where a fault is noted, or where reading was given up, which was noted
before.
-/

set_option autoImplicit false

namespace ScalarScript

/-- What holds of a cursor all along: no lexeme ahead is empty or the end of the file, and reading
was given up only with a fault noted. -/
structure Cursor.Sound (c : Cursor) : Prop where
  ahead : ∀ l ∈ c.ahead, l.token.isMissing = false ∧ l.token.kind ≠ .endOfFile
  last : c.endOfFile.token.kind = .endOfFile
  blank : c.endOfFile.token.isMissing = true
  noted : c.abandoned = true → c.diagnostics ≠ []

def Kept (ts us : List Token) : Prop := (ts.filter fun t => !t.isMissing).Sublist us

namespace Kept

variable {t : Token} {ts us vs ws : List Token}

theorem nil : Kept [] us := List.nil_sublist us

theorem single (t : Token) : Kept [t] [t] := List.filter_sublist

theorem missing (h : t.isMissing = true) : Kept [t] us := by simp [Kept, h]

theorem append (h : Kept ts us) (h' : Kept vs ws) : Kept (ts ++ vs) (us ++ ws) := by
  simpa [Kept] using List.Sublist.append h h'

theorem skip (h : Kept ts vs) (us : List Token) : Kept ts (us ++ vs) := nil.append h

end Kept

namespace Reader

variable {α β : Type}

/-- From the cursor `c` the reader takes lexemes off the front of those ahead and keeps all faults
noted so far. What it gives is to the tokens it took as `keeps` says, and if there are no faults
even afterwards, as `derives` says. -/
structure Reads (c : Cursor) (x : Reader α) (keeps derives : α → List Token → Prop) : Prop where
  sound : (x.run c).2.Sound
  endOfFile : (x.run c).2.endOfFile = c.endOfFile
  noted : c.diagnostics ≠ [] → (x.run c).2.diagnostics ≠ []
  takes : ∃ ls, c.ahead = ls ++ (x.run c).2.ahead ∧
    keeps (x.run c).1 (ls.map Lexeme.token) ∧
    ((x.run c).2.diagnostics = [] → derives (x.run c).1 (ls.map Lexeme.token))

namespace Reads

variable {c : Cursor} {x : Reader α} {f : α → Reader β}
variable {keeps derives : α → List Token → Prop} {keeps' derives' : β → List Token → Prop}

theorem bind_at (hx : Reads c x keeps derives)
    (hf : Reads (x.run c).2 (f (x.run c).1)
      (fun b us => ∀ ts, keeps (x.run c).1 ts → keeps' b (ts ++ us))
      (fun b us => ∀ ts, derives (x.run c).1 ts → derives' b (ts ++ us))) :
    Reads c (x >>= f) keeps' derives' := by
  obtain ⟨ls, hls, hkeeps, hderives⟩ := hx.takes
  obtain ⟨ms, hms, hkeeps', hderives'⟩ := hf.takes
  refine ⟨hf.sound, hf.endOfFile.trans hx.endOfFile, fun h => hf.noted (hx.noted h),
    ls ++ ms, ?_, ?_, fun h => ?_⟩
  · rw [hls, hms, List.append_assoc]
    rfl
  · rw [List.map_append]
    exact hkeeps' _ hkeeps
  · have hc : (x.run c).2.diagnostics = [] := Decidable.byContradiction fun hne => hf.noted hne h
    rw [List.map_append]
    exact hderives' h _ (hderives hc)

theorem bind (hx : Reads c x keeps derives)
    (hf : ∀ a c', c'.Sound → Reads c' (f a)
      (fun b us => ∀ ts, keeps a ts → keeps' b (ts ++ us))
      (fun b us => ∀ ts, derives a ts → derives' b (ts ++ us))) :
    Reads c (x >>= f) keeps' derives' :=
  hx.bind_at (hf _ _ hx.sound)

theorem mono {keeps' derives' : α → List Token → Prop} (hx : Reads c x keeps derives)
    (hk : ∀ a ts, keeps a ts → keeps' a ts) (hs : ∀ a ts, derives a ts → derives' a ts) :
    Reads c x keeps' derives' :=
  have ⟨ls, hls, hkeeps, hderives⟩ := hx.takes
  ⟨hx.sound, hx.endOfFile, hx.noted, ls, hls, hk _ _ hkeeps, fun h => hs _ _ (hderives h)⟩

theorem length (hx : Reads c x keeps derives) :
    Reads c x keeps fun a ts =>
      derives a ts ∧ c.ahead.length = ts.length + (x.run c).2.ahead.length :=
  have ⟨ls, hls, hkeeps, hderives⟩ := hx.takes
  ⟨hx.sound, hx.endOfFile, hx.noted, ls, hls, hkeeps, fun h => ⟨hderives h, by simp [hls]⟩⟩

theorem of_faultless (hx : Reads c x keeps fun a ts => c.diagnostics = [] → derives a ts) :
    Reads c x keeps derives :=
  have ⟨ls, hls, hkeeps, hderives⟩ := hx.takes
  ⟨hx.sound, hx.endOfFile, hx.noted, ls, hls, hkeeps, fun h =>
    hderives h (Decidable.byContradiction fun hne => hx.noted hne h)⟩

theorem pure {a : α} (hc : c.Sound) (hk : keeps a []) (hs : derives a []) :
    Reads c (Pure.pure a) keeps derives :=
  ⟨hc, rfl, id, [], rfl, hk, fun _ => hs⟩

/-- A reader that takes nothing and leaves a fault noted may give anything that keeps to nothing. -/
theorem of_noted (hs : (x.run c).2.Sound) (he : (x.run c).2.endOfFile = c.endOfFile)
    (ha : c.ahead = (x.run c).2.ahead) (hd : (x.run c).2.diagnostics ≠ [])
    (hk : keeps (x.run c).1 []) : Reads c x keeps derives :=
  ⟨hs, he, fun _ => hd, [], ha, hk, fun h => absurd h hd⟩

end Reads

end Reader

namespace Cursor

theorem kind_advance (c : Cursor) : c.advance.kind = (c.peek 1).token.kind := by
  simp [kind, current, peek, advance]

theorem ahead_of_kind {c : Cursor} (hc : c.Sound) (h : c.kind ≠ .endOfFile) :
    ∃ ls, c.ahead = c.current :: ls ∧ c.advance.ahead = ls := by
  unfold kind current peek advance at *
  cases hl : c.ahead with
  | nil => simp [hl, hc.last] at h
  | cons l ls => exact ⟨ls, by simp⟩

theorem ahead_of_endOfFile {c : Cursor} (hc : c.Sound) (h : c.kind = .endOfFile) :
    c.ahead = [] ∧ c.current = c.endOfFile := by
  unfold kind current peek at *
  cases hl : c.ahead with
  | nil => simp
  | cons l ls => exact absurd (by simpa [hl] using h) (hc.ahead l (by simp [hl])).2

theorem Sound.advance {c : Cursor} (hc : c.Sound) : c.advance.Sound where
  ahead l hl := hc.ahead l (List.mem_of_mem_drop hl)
  last := hc.last
  blank := hc.blank
  noted := hc.noted

theorem Sound.report {c : Cursor} (hc : c.Sound) (d : Diagnostic) : (c.report d).Sound where
  ahead := hc.ahead
  last := hc.last
  blank := hc.blank
  noted _ := by simp [Cursor.report]

end Cursor

namespace Reader

def Exactly (kind : TokenKind) (t : Token) (ts : List Token) : Prop := ts = [t] ∧ t.kind = kind

theorem reads_take {c : Cursor} (hc : c.Sound) (h : c.kind ≠ .endOfFile) :
    Reads c take (fun l => Kept [l.token]) (fun l => Exactly c.kind l.token) := by
  obtain ⟨ls, hahead, hrest⟩ := c.ahead_of_kind hc h
  refine ⟨hc.advance, rfl, id, [c.current], ?_, Kept.single _, fun _ => ⟨rfl, rfl⟩⟩
  change c.ahead = [c.current] ++ c.advance.ahead
  rw [hahead, hrest, List.singleton_append]

theorem reads_advance {c : Cursor} (hc : c.Sound) :
    Reads c (modify Cursor.advance) (fun _ _ => True) (fun _ _ => True) :=
  ⟨hc.advance, rfl, id, c.ahead.take 1, (List.take_append_drop 1 _).symm, trivial,
    fun _ => trivial⟩

theorem run_expect_of_kind {c : Cursor} {kind : TokenKind} (h : c.kind = kind) :
    (expect kind).run c = (c.current.token, c.advance) := by
  simp only [Cursor.kind] at h
  simp [expect, h]
  rfl

theorem run_expect_of_ne {c : Cursor} {kind : TokenKind} (h : c.kind ≠ kind) :
    (expect kind).run c = (.missing kind c.current.token.span.start,
      if c.abandoned then c else c.report
        ⟨c.current.token.span, .unexpectedToken c.current.token.kind.name kind.name⟩) := by
  simp only [Cursor.kind] at h
  cases ha : c.abandoned <;> simp [expect, h, ha] <;> rfl

theorem reads_expect_of_ne {c : Cursor} (hc : c.Sound) {kind : TokenKind} (h : c.kind ≠ kind) :
    Reads c (expect kind) (fun t => Kept [t]) (Exactly kind) := by
  have hrun := run_expect_of_ne h
  cases ha : c.abandoned with
  | true =>
    rw [ha, if_pos rfl] at hrun
    refine .of_noted ?_ ?_ ?_ ?_ ?_ <;> rw [hrun]
    · exact hc
    · exact hc.noted ha
    · exact Kept.missing (Token.isMissing_missing _ _)
  | false =>
    rw [ha, if_neg Bool.false_ne_true] at hrun
    refine .of_noted ?_ ?_ ?_ ?_ ?_ <;> rw [hrun]
    · exact hc.report _
    · rfl
    · rfl
    · simp [Cursor.report]
    · exact Kept.missing (Token.isMissing_missing _ _)

theorem reads_expect {c : Cursor} (hc : c.Sound) {kind : TokenKind} (h : kind ≠ .endOfFile) :
    Reads c (expect kind) (fun t => Kept [t]) (Exactly kind) := by
  by_cases hk : c.kind = kind
  · have htake := reads_take hc (hk ▸ h)
    have hrun := run_expect_of_kind hk
    refine ⟨?_, ?_, ?_, ?_⟩ <;> rw [hrun]
    · exact htake.sound
    · exact htake.endOfFile
    · exact htake.noted
    · exact hk ▸ htake.takes
  · exact reads_expect_of_ne hc hk

theorem reads_abandon {c : Cursor} (hc : c.Sound) (limit : Nat) :
    Reads c (abandon limit) (fun _ _ => True) (fun _ _ => False) := by
  have hrun : ((abandon limit).run c).2 =
    if c.abandoned then c
    else
      { c.report ⟨c.current.token.span, .nestingTooDeep limit⟩ with
        ahead := [], abandoned := true } := rfl
  cases ha : c.abandoned with
  | true =>
    rw [ha, if_pos rfl] at hrun
    refine .of_noted ?_ ?_ ?_ ?_ trivial <;> rw [hrun]
    · exact hc
    · exact hc.noted ha
  | false =>
    rw [ha, if_neg Bool.false_ne_true] at hrun
    have hd : ((abandon limit).run c).2.diagnostics ≠ [] := by simp [hrun, Cursor.report]
    refine ⟨?_, by rw [hrun]; rfl, fun _ => hd, c.ahead, by simp [hrun], trivial, hd⟩
    rw [hrun]
    exact ⟨by simp, hc.last, hc.blank, by simp [Cursor.report]⟩

variable {α : Type} {c : Cursor} {keeps derives : α → List Token → Prop}

theorem reads_kind {f : TokenKind → Reader α} (h : Reads c (f c.kind) keeps derives) :
    Reads c (kind >>= f) keeps derives := ⟨h.sound, h.endOfFile, h.noted, h.takes⟩

theorem reads_get {f : Cursor → Reader α} (h : Reads c (f c) keeps derives) :
    Reads c (get >>= f) keeps derives := ⟨h.sound, h.endOfFile, h.noted, h.takes⟩

end Reader

open Reader

def ReadsExpressions (production : Production) (x : Reader Expression) : Prop :=
  ∀ c, c.Sound → Reads c x (fun e => Kept e.tokens) (Expression.Derives true production)

def ReadsStatements (x : Reader Statement) : Prop :=
  ∀ c, c.Sound → Reads c x (fun s => Kept s.tokens) (Statement.Derives true)

namespace Grammar

variable {expression : Reader Expression} {c : Cursor}

theorem reads_parenthesized (he : ReadsExpressions .expression expression) (hc : c.Sound) :
    Reads c (parenthesized expression) (fun e => Kept e.tokens)
      (Expression.Derives true .primary) := by
  refine (reads_expect hc (by decide)).bind fun openParen c hc => ?_
  refine (he c hc).bind fun inner c hc => ?_
  refine (reads_expect hc (by decide)).bind fun closeParen c hc => .pure hc ?_ ?_
  · intro _ hclose _ hinner _ hopen
    simpa [Expression.tokens] using hopen.append (hinner.append hclose)
  · rintro _ ⟨rfl, hclose⟩ _ hinner _ ⟨rfl, hopen⟩
    exact .parenthesized hopen hinner hclose

theorem reads_booleanLiteral (hc : c.Sound)
    (hk : c.kind = .trueKeyword ∨ c.kind = .falseKeyword) :
    Reads c booleanLiteral (fun e => Kept e.tokens) (Expression.Derives true .primary) := by
  have hne : c.kind ≠ .endOfFile := by rcases hk with hk | hk <;> simp [hk]
  refine (reads_take hc hne).bind fun lexeme c hc => .pure hc ?_ ?_
  · intro _ h
    simpa [Expression.tokens] using h
  · rintro _ ⟨rfl, hkind⟩
    exact .boolean (by rwa [hkind])

theorem reads_literal (hc : c.Sound) (hk : c.kind = .number ∨ c.kind = .string) :
    Reads c literal (fun e => Kept e.tokens) (Expression.Derives true .primary) := by
  have hne : c.kind ≠ .endOfFile := by rcases hk with hk | hk <;> simp [hk]
  refine (reads_take hc hne).bind fun lexeme c hc => .pure hc ?_ ?_
  · intro _ h
    simpa [Expression.tokens] using h
  · rintro _ ⟨rfl, hkind⟩
    exact .literal (by rwa [hkind]) _

theorem reads_argumentsWithin (he : ReadsExpressions .expression expression) (fuel : Nat)
    (hc : c.Sound) :
    Reads c (argumentsWithin expression fuel) (fun es => Kept (Expression.tokensAll es))
      (Expression.DeriveAll true) := by
  induction fuel generalizing c with
  | zero => exact .pure hc .nil .nil
  | succ fuel ih =>
    refine reads_kind ?_
    split
    · exact .pure hc .nil .nil
    · refine (he c hc).bind fun argument c hc => reads_kind ?_
      split
      · refine .pure hc ?_ ?_
        · intro _ h
          simpa [Expression.tokensAll] using h
        · intro _ h
          simpa using Expression.DeriveAll.last h
      · rename_i hcomma
        have hkind : c.kind = .comma := Decidable.not_not.mp hcomma
        -- the comma is the one token taken here that the tree does not keep
        refine (reads_take hc (by simp [hkind])).bind fun comma c' hc' => ?_
        refine (ih hc').bind fun rest c' hc' => .pure hc' ?_ ?_
        · intro _ hrest us _ ts h
          simpa [Expression.tokensAll] using h.append (hrest.skip us)
        · rintro us hrest _ ⟨rfl, hcomma⟩ ts h
          rw [hkind] at hcomma
          simpa using Expression.DeriveAll.comma h hcomma hrest

theorem reads_call (he : ReadsExpressions .expression expression) (hc : c.Sound) :
    Reads c (call expression) (fun e => Kept e.tokens) (Expression.Derives true .primary) := by
  refine (reads_expect hc (by decide)).bind fun identifier c hc => ?_
  refine (reads_expect hc (by decide)).bind fun openParen c hc => reads_get ?_
  refine (reads_argumentsWithin he _ hc).bind fun arguments c hc => ?_
  refine (reads_expect hc (by decide)).bind fun closeParen c hc => .pure hc ?_ ?_
  · intro _ hclose _ harguments _ hopen _ hidentifier
    simpa [Expression.tokens] using
      hidentifier.append (hopen.append (harguments.append hclose))
  · rintro _ ⟨rfl, hclose⟩ _ harguments _ ⟨rfl, hopen⟩ _ ⟨rfl, hidentifier⟩
    exact .call hidentifier hopen harguments hclose

theorem reads_name (hc : c.Sound) :
    Reads c (do return Expression.name (← expect .identifier)) (fun e => Kept e.tokens)
      (Expression.Derives true .primary) := by
  refine (reads_expect hc (by decide)).bind fun identifier c hc => .pure hc ?_ ?_
  · intro _ h
    simpa [Expression.tokens] using h
  · rintro _ ⟨rfl, hidentifier⟩
    exact .name hidentifier

theorem reads_primary (he : ReadsExpressions .expression expression) :
    ReadsExpressions .primary (primary expression) := by
  intro c hc
  refine reads_get ?_
  split
  · exact reads_parenthesized he hc
  · exact reads_booleanLiteral hc (by simp [*])
  · exact reads_booleanLiteral hc (by simp [*])
  · exact reads_literal hc (by simp [*])
  · exact reads_literal hc (by simp [*])
  · split
    · exact reads_call he hc
    · exact reads_name hc
  · exact reads_name hc

end Grammar

/-- The expression is a derivation by operators tighter than `least`, and one that the operator
that stands next, if it is tighter than `least` too, can join to what follows it. -/
def Joinable (least : Precedence) (next : TokenKind) (left : Expression) (ts : List Token) : Prop :=
  left.Derives true (.joined (least.level + 1)) ts ∧
    ∀ p, Grammar.operatorAbove? least next = some p → left.Derives true (.joined p.level) ts

def ReadsOn (least : Precedence) (left : Expression) (c : Cursor) (x : Reader Expression) : Prop :=
  Reads c x (fun e us => ∀ ts, Kept left.tokens ts → Kept e.tokens (ts ++ us)) fun e us =>
    ∀ ts, Joinable least c.kind left ts → e.Derives true (.joined (least.level + 1)) (ts ++ us)

theorem ReadsOn.after_operand {least : Precedence} {chain : Expression → Reader Expression}
    (hchain : ∀ left (c : Cursor), c.Sound → ReadsOn least left c (chain left)) {c : Cursor}
    {operand : Reader Expression}
    (h : Reads c operand (fun e => Kept e.tokens) (Expression.Derives true .operand)) :
    Reads c (operand >>= chain) (fun e => Kept e.tokens)
      (Expression.Derives true (.joined (least.level + 1))) :=
  h.bind fun left c hc => (hchain left c hc).mono (fun _ _ h => h) fun _ _ he ts h =>
    he ts ⟨.operand h, fun _ _ => .operand h⟩

def Exhausts (least : Precedence) (c : Cursor) (x : Reader Expression) : Prop :=
  (x.run c).2.diagnostics = [] → Grammar.operatorAbove? least (x.run c).2.kind = none

theorem exhausts_kind {least : Precedence} {c : Cursor} {f : TokenKind → Reader Expression}
    (h : Exhausts least c (f c.kind)) : Exhausts least c (Reader.kind >>= f) := h

structure Level.Sound (l : Level) : Prop where
  statement : ReadsStatements l.statement
  expression : ReadsExpressions .expression l.expression
  operation (least : Precedence) : ReadsExpressions (.joined (least.level + 1)) (l.operation least)
  chain (least : Precedence) (left : Expression) (c : Cursor) (hc : c.Sound) :
    ReadsOn least left c (l.chain least left)
  operation_exhausts (least : Precedence) (c : Cursor) (hc : c.Sound) :
    Exhausts least c (l.operation least)
  chain_exhausts (least : Precedence) (left : Expression) (c : Cursor) (hc : c.Sound) :
    Exhausts least c (l.chain least left)

namespace Grammar

variable {below : Level}

theorem reads_expression (hb : below.Sound) : ReadsExpressions .expression (expression below) := by
  intro c hc
  refine reads_get ?_
  split
  · rename_i h
    refine (reads_take hc (by simp [h.1])).bind_at ?_
    have hnext : c.advance.kind = .equals := c.kind_advance.trans h.2
    refine (reads_take hc.advance (by simp [hnext])).bind fun equals c hc => ?_
    refine (hb.expression c hc).bind fun source c hc => .pure hc ?_ ?_
    · intro _ hsource _ hequals _ hidentifier
      simpa [Expression.tokens] using hidentifier.append (hequals.append hsource)
    · rintro ts hsource _ ⟨rfl, hequals⟩ _ ⟨rfl, hidentifier⟩
      rw [hnext] at hequals
      rw [h.1] at hidentifier
      simpa using Expression.Derives.assignment hidentifier hequals hsource
  · exact (hb.operation _ c hc).mono (fun _ _ h => h) fun e ts h =>
      .expression (h.joined_mono (Nat.le_succ _))

theorem unaryPrecedence?_level {kind : TokenKind} {p : Precedence}
    (h : kind.unaryPrecedence? = some p) : p = .unary := by
  cases kind <;> simp [TokenKind.unaryPrecedence?] at h <;> exact h.symm

theorem reads_operand (hb : below.Sound) : ReadsExpressions .operand (operand below) := by
  intro c hc
  refine reads_kind ?_
  split
  · rename_i p h
    have hk : c.kind ≠ .endOfFile := by
      intro hk
      simp [hk, TokenKind.unaryPrecedence?] at h
    obtain rfl := unaryPrecedence?_level h
    refine (reads_take hc hk).bind fun operator c' hc' => ?_
    refine (hb.operation .unary c' hc').bind fun operand c' hc' => .pure hc' ?_ ?_
    · intro _ hoperand _ hoperator
      simpa [Expression.tokens] using hoperator.append hoperand
    · rintro ts hoperand _ ⟨rfl, hoperator⟩
      have htight := hoperand.operand_of_joined (Nat.le_succ _)
      simpa using Expression.Derives.unary (by rw [hoperator, h]; rfl) htight
  · exact (reads_primary (reads_expression hb) c hc).mono (fun _ _ h => h) fun _ _ h => .primary h

theorem operatorAbove?_endOfFile (least : Precedence) :
    operatorAbove? least .endOfFile = none := rfl

theorem operatorAbove?_some {least p : Precedence} {kind : TokenKind}
    (h : operatorAbove? least kind = some p) :
    kind.binaryPrecedence? = some p ∧ least.level < p.level := by
  unfold operatorAbove? at h
  split at h
  · rename_i q hq
    split at h
    · rename_i hlt
      cases h
      exact ⟨hq, hlt⟩
    · cases h
  · cases h

theorem level_le_of_operatorAbove? {least p q : Precedence} {kind : TokenKind}
    (hp : operatorAbove? p kind = none) (hq : operatorAbove? least kind = some q) :
    q.level ≤ p.level := by
  obtain ⟨hkind, -⟩ := operatorAbove?_some hq
  by_contra hlt
  simp [operatorAbove?, hkind, Nat.lt_of_not_le hlt] at hp

theorem reads_chain (hb : below.Sound) (least : Precedence) (left : Expression) {c : Cursor}
    (hc : c.Sound) : ReadsOn least left c (chain below least left) := by
  refine reads_kind ?_
  split
  · exact .pure hc (by simp) fun ts h => by simpa using h.1
  · rename_i p h
    obtain ⟨hbinary, hleast⟩ := operatorAbove?_some h
    have hk : c.kind ≠ .endOfFile := by
      intro hk
      simp [hk, operatorAbove?_endOfFile] at h
    refine (reads_take hc hk).bind fun operator c' hc' => ?_
    have hright := hb.operation p c' hc'
    refine hright.bind_at (.of_faultless ?_)
    refine (hb.chain least _ _ hright.sound).mono ?_ ?_
    · intro e us he _ hright _ hoperator _ hleft
      have hboth := he _ (hleft.append (hoperator.append hright))
      simpa using hboth
    · rintro e us he hfaultless ts hright _ ⟨rfl, hoperator⟩ vs hleft
      have hnext := hb.operation_exhausts p c' hc' hfaultless
      rw [← hoperator] at hbinary
      -- operators of the right operand are tighter, the next one is not
      have hjoin {n : Nat} (hn : n ≤ p.level) :=
        Expression.Derives.join hbinary hn (hleft.2 p h) hright
      simpa using he _ ⟨hjoin hleast, fun q hq => hjoin (level_le_of_operatorAbove? hnext hq)⟩

theorem exhausts_chain (hb : below.Sound) (least : Precedence) (left : Expression) {c : Cursor}
    (hc : c.Sound) : Exhausts least c (chain below least left) := by
  refine exhausts_kind ?_
  split
  · rename_i h
    exact fun _ => h
  · rename_i p h
    have hk : c.kind ≠ .endOfFile := by
      intro hk
      simp [hk, operatorAbove?_endOfFile] at h
    have htake := (reads_take hc hk).sound
    have hright := (hb.operation p _ htake).sound
    exact hb.chain_exhausts least _ _ hright

theorem reads_operation (hb : below.Sound) (least : Precedence) :
    ReadsExpressions (.joined (least.level + 1)) (operation below least) := by
  intro c hc
  exact ReadsOn.after_operand (fun left _ hc => reads_chain hb least left hc) (reads_operand hb c hc)

theorem reads_statementsWithin {statement : Reader Statement} (hs : ReadsStatements statement)
    (fuel : Nat) {c : Cursor} (hc : c.Sound) :
    Reads c (statementsWithin statement fuel) (fun ss => Kept (Statement.tokensAll ss))
      (Statement.DeriveAll true) := by
  induction fuel generalizing c with
  | zero => exact .pure hc .nil .nil
  | succ fuel ih =>
    have hrest (first : Statement) (c : Cursor) (hc : c.Sound) :
        Reads c (do return first :: (← statementsWithin statement fuel))
          (fun ss us => ∀ ts, Kept first.tokens ts → Kept (Statement.tokensAll ss) (ts ++ us))
          (fun ss us => ∀ ts, first.Derives true ts → Statement.DeriveAll true ss (ts ++ us)) := by
      refine (ih hc).bind fun rest c hc => .pure hc ?_ ?_
      · intro _ hrest _ h
        simpa [Statement.tokensAll] using h.append hrest
      · intro _ hrest _ h
        simpa using Statement.DeriveAll.cons h hrest
    refine reads_kind ?_
    split
    · exact .pure hc .nil .nil
    · refine reads_get ((hs c hc).length.bind_at (reads_get ?_))
      have hc' := (hs c hc).sound
      dsimp only
      split
      · -- the lexeme left out is not kept; that nothing was taken rules out that all is well
        rename_i hstill
        refine (reads_advance hc').bind fun _ c'' hc'' => (hrest _ c'' hc'').mono ?_ ?_
        · intro ss us hss vs _ ts h
          simpa using hss (ts ++ vs) (by simpa using h.append .nil)
        · intro ss us _ vs _ ts h
          have hnil : ts = [] := List.eq_nil_of_length_eq_zero (by omega)
          exact absurd hnil h.1.spelled.ne_nil
      · refine (hrest _ _ hc').mono (fun _ _ h => h) fun ss us hss ts h => hss ts h.1

theorem reads_block (hb : below.Sound) {c : Cursor} (hc : c.Sound) :
    Reads c (block below) (fun s => Kept s.tokens) (Statement.Derives true) := by
  refine (reads_expect hc (by decide)).bind fun openBrace c hc => reads_get ?_
  refine (reads_statementsWithin hb.statement _ hc).bind fun statements c hc => ?_
  refine (reads_expect hc (by decide)).bind fun closeBrace c hc => .pure hc ?_ ?_
  · intro _ hclose _ hstatements _ hopen
    simpa [Statement.tokens] using hopen.append (hstatements.append hclose)
  · rintro _ ⟨rfl, hclose⟩ _ hstatements _ ⟨rfl, hopen⟩
    exact .block hopen hstatements hclose

theorem reads_typeClause {c : Cursor} (hc : c.Sound) :
    Reads c typeClause (fun clause => Kept (clause.toList.flatMap TypeClause.tokens))
      (fun clause ts => ts = clause.toList.flatMap TypeClause.tokens ∧
        ∀ c ∈ clause, c.Proper) := by
  refine reads_kind ?_
  split
  · exact .pure hc .nil ⟨rfl, by simp⟩
  · refine (reads_expect hc (by decide)).bind fun colon c hc => ?_
    refine (reads_expect hc (by decide)).bind fun identifier c hc => .pure hc ?_ ?_
    · intro _ hidentifier _ hcolon
      simpa [TypeClause.tokens] using hcolon.append hidentifier
    · rintro _ ⟨rfl, hidentifier⟩ _ ⟨rfl, hcolon⟩
      refine ⟨rfl, fun clause hclause => ?_⟩
      cases hclause
      exact ⟨hcolon, hidentifier⟩

theorem reads_declaration (hb : below.Sound) {keyword : TokenKind}
    (hk : keyword = .letKeyword ∨ keyword = .varKeyword) {c : Cursor} (hc : c.Sound) :
    Reads c (declaration below keyword) (fun s => Kept s.tokens) (Statement.Derives true) := by
  have hne : keyword ≠ .endOfFile := by rcases hk with rfl | rfl <;> decide
  refine (reads_expect hc hne).bind fun keyword c hc => ?_
  refine (reads_expect hc (by decide)).bind fun identifier c hc => ?_
  refine (reads_typeClause hc).bind fun clause c hc => ?_
  refine (reads_expect hc (by decide)).bind fun equals c hc => ?_
  refine (hb.expression c hc).bind fun initializer c hc => .pure hc ?_ ?_
  · intro _ hinitializer _ hequals _ hclause _ hidentifier _ hkeyword
    simpa [Statement.tokens] using hkeyword.append
      (hidentifier.append (hclause.append (hequals.append hinitializer)))
  · rintro ts hinitializer _ ⟨rfl, hequals⟩ _ ⟨rfl, hclause⟩ _ ⟨rfl, hidentifier⟩ _ ⟨rfl, rfl⟩
    simpa using Statement.Derives.declaration hk hidentifier hclause hequals hinitializer

theorem reads_conditional (hb : below.Sound) {c : Cursor} (hc : c.Sound) :
    Reads c (conditional below) (fun s => Kept s.tokens) (Statement.Derives true) := by
  refine (reads_expect hc (by decide)).bind fun ifKeyword c hc => ?_
  refine (hb.expression c hc).bind fun condition c hc => ?_
  refine (hb.statement c hc).bind fun thenStatement c hc => reads_kind ?_
  split
  · refine .pure hc ?_ ?_
    · intro _ hthen _ hcondition _ hif
      simpa [Statement.tokens] using hif.append (hcondition.append hthen)
    · rintro ts hthen us hcondition _ ⟨rfl, hif⟩
      simpa using Statement.Derives.ifThen hif hcondition hthen
  · refine (reads_expect hc (by decide)).bind fun elseKeyword c hc => ?_
    refine (hb.statement c hc).bind fun elseStatement c hc => .pure hc ?_ ?_
    · intro _ helse _ hkeyword _ hthen _ hcondition _ hif
      simpa [Statement.tokens] using hif.append
        (hcondition.append (hthen.append (hkeyword.append helse)))
    · rintro ts hotherwise _ ⟨rfl, helse⟩ us hthen vs hcondition _ ⟨rfl, hif⟩
      simpa using Statement.Derives.ifThenElse hif hcondition hthen helse hotherwise

theorem reads_whileLoop (hb : below.Sound) {c : Cursor} (hc : c.Sound) :
    Reads c (whileLoop below) (fun s => Kept s.tokens) (Statement.Derives true) := by
  refine (reads_expect hc (by decide)).bind fun whileKeyword c hc => ?_
  refine (hb.expression c hc).bind fun condition c hc => ?_
  refine (hb.statement c hc).bind fun body c hc => .pure hc ?_ ?_
  · intro _ hbody _ hcondition _ hwhile
    simpa [Statement.tokens] using hwhile.append (hcondition.append hbody)
  · rintro ts hbody us hcondition _ ⟨rfl, hwhile⟩
    simpa using Statement.Derives.whileLoop hwhile hcondition hbody

theorem reads_forLoop (hb : below.Sound) {c : Cursor} (hc : c.Sound) :
    Reads c (forLoop below) (fun s => Kept s.tokens) (Statement.Derives true) := by
  refine (reads_expect hc (by decide)).bind fun forKeyword c hc => ?_
  refine (reads_expect hc (by decide)).bind fun identifier c hc => ?_
  refine (reads_expect hc (by decide)).bind fun equals c hc => ?_
  refine (hb.expression c hc).bind fun lower c hc => ?_
  refine (reads_expect hc (by decide)).bind fun toKeyword c hc => ?_
  refine (hb.expression c hc).bind fun upper c hc => ?_
  refine (hb.statement c hc).bind fun body c hc => .pure hc ?_ ?_
  · intro _ hbody _ hupper _ hto _ hlower _ hequals _ hidentifier _ hfor
    simpa [Statement.tokens] using hfor.append (hidentifier.append
      (hequals.append (hlower.append (hto.append (hupper.append hbody)))))
  · rintro ts hbody us hupper _ ⟨rfl, hto⟩ vs hlower _ ⟨rfl, hequals⟩ _ ⟨rfl, hidentifier⟩
      _ ⟨rfl, hfor⟩
    simpa using Statement.Derives.forLoop hfor hidentifier hequals hlower hto hupper hbody

theorem reads_statement (hb : below.Sound) : ReadsStatements (statement below) := by
  intro c hc
  refine reads_kind ?_
  split
  · exact reads_block hb hc
  · exact reads_declaration hb (.inl rfl) hc
  · exact reads_declaration hb (.inr rfl) hc
  · exact reads_conditional hb hc
  · exact reads_whileLoop hb hc
  · exact reads_forLoop hb hc
  · refine (hb.expression c hc).bind fun inner c hc => .pure hc ?_ ?_
    · intro _ h
      simpa [Statement.tokens] using h
    · intro _ h
      simpa using Statement.Derives.expression h

theorem reads_tooDeep (production : Production) : ReadsExpressions production tooDeep := by
  intro c hc
  refine (reads_abandon hc _).bind fun _ c hc => reads_get (.pure hc ?_ nofun)
  intro _ _
  exact .missing (Token.isMissing_missing _ _)

end Grammar

namespace Level

open Grammar

theorem sound_bottom : bottom.Sound := by
  have hchain (least : Precedence) (left : Expression) (c : Cursor) (hc : c.Sound) :
      ReadsOn least left c (bottom.bottomChain least left) := by
    refine reads_kind ?_
    dsimp only
    split
    · refine (reads_abandon hc _).bind fun _ c hc => .pure hc ?_ nofun
      intro us _ ts h
      simpa using h.append Kept.nil
    · exact .pure hc (by simp) fun ts h => by simpa using h.1
  have hexhausts (least : Precedence) (left : Expression) (c : Cursor) (hc : c.Sound) :
      Exhausts least c (bottom.bottomChain least left) := by
    refine exhausts_kind ?_
    dsimp only
    split
    · obtain ⟨_, -, -, hfault⟩ := (reads_abandon hc nestingLimit).takes
      exact fun hnone => (hfault hnone).elim
    · rename_i h
      exact fun _ => Option.not_isSome_iff_eq_none.mp h
  have hoperand (c : Cursor) (hc : c.Sound) :=
    (reads_primary (reads_tooDeep .expression) c hc).mono (fun _ _ h => h) fun _ _ h =>
      Expression.Derives.primary h
  refine ⟨fun c hc => ?_, reads_tooDeep _, fun least c hc => ?_, hchain, fun least c hc => ?_,
    hexhausts⟩
  · refine (reads_tooDeep .expression c hc).bind fun e c hc => .pure hc ?_ ?_
    · intro _ h
      simpa [Statement.tokens] using h
    · intro _ h
      simpa using Statement.Derives.expression h
  · refine reads_kind ?_
    dsimp only
    split
    · exact ReadsOn.after_operand (hchain least) (reads_tooDeep _ c hc)
    · exact ReadsOn.after_operand (hchain least) (hoperand c hc)
  · refine exhausts_kind ?_
    dsimp only
    split
    · exact hexhausts least _ _ (reads_tooDeep .operand c hc).sound
    · exact hexhausts least _ _ (hoperand c hc).sound

theorem sound_above {below : Level} (hb : below.Sound) : (above below).Sound where
  statement := reads_statement hb
  expression := reads_expression hb
  operation := reads_operation hb
  chain least left _ hc := reads_chain hb least left hc
  operation_exhausts least _ hc := exhausts_chain hb least _ (reads_operand hb _ hc).sound
  chain_exhausts least left _ hc := exhausts_chain hb least left hc

theorem sound_ofDepth (n : Nat) : (ofDepth n).Sound := by
  induction n with
  | zero => exact sound_bottom
  | succ n ih => exact sound_above ih

end Level

theorem Cursor.sound_ofText (text : String) : (Cursor.ofLexemes (Lexeme.ofText text)).Sound := by
  obtain ⟨ls, position, h, hls⟩ := Lexeme.ofText_eq text
  rw [h]
  refine ⟨fun l hl => ?_, ?_, ?_, nofun⟩
  · rw [Cursor.ofLexemes, List.dropLast_concat] at hl
    exact hls l (List.mem_filter.mp hl).1
  · simp [Cursor.ofLexemes, Lexeme.endOfFile]
  · simp [Cursor.ofLexemes, Lexeme.endOfFile, Token.isMissing]

theorem Fragment.ofText_eq (text : String) :
    ofText text = ⟨text, (Grammar.tree.run (.ofLexemes (Lexeme.ofText text))).1,
      Lexeme.diagnostics (Lexeme.ofText text) ++
        (Grammar.tree.run (.ofLexemes (Lexeme.ofText text))).2.diagnostics⟩ := by
  unfold ofText
  dsimp only
  cases Grammar.tree.run (.ofLexemes (Lexeme.ofText text)) with
  | mk tree c => rfl

end ScalarScript
