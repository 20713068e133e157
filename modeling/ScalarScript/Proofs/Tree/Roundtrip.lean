import ScalarScript.Proofs.Tree.Fidelity
import ScalarScript.Proofs.Tree.Rereading

set_option autoImplicit false

namespace ScalarScript

open Reader

namespace Statement

def heads : List TokenKind :=
  [.openBrace, .letKeyword, .varKeyword, .ifKeyword, .whileKeyword, .forKeyword, .number, .string,
    .trueKeyword, .falseKeyword, .identifier, .exclamation]

/-- What may stand after a statement that is no block: nothing that goes on with an expression, and
no else. -/
structure Ends (kind : TokenKind) : Prop where
  trails : Trails 0 kind
  not_else : kind ≠ .elseKeyword

theorem ends_of_mem_heads {kind : TokenKind} (h : kind ∈ heads) : Ends kind := by
  refine ⟨⟨?_, ?_, fun p hp => ?_⟩, ?_⟩
  · rintro rfl
    exact absurd h (by decide)
  · rintro rfl
    exact absurd h (by decide)
  · have hnone : ∀ k ∈ heads, k.binaryPrecedence? = none := by decide
    simp [hnone kind h] at hp
  · rintro rfl
    exact absurd h (by decide)

theorem ends_closeBrace : Ends .closeBrace := ⟨⟨by decide, by decide, nofun⟩, by decide⟩

theorem ends_endOfFile : Ends .endOfFile := ⟨⟨by decide, by decide, nofun⟩, by decide⟩

theorem mem_heads_of_expression {kind : TokenKind} (h : Expression.Heads kind)
    (hnot : kind ≠ .openParen ∧ kind ≠ .plus ∧ kind ≠ .minus) : kind ∈ heads.drop 6 := by
  rcases h with h | h
  · cases kind <;> simp_all [TokenKind.unaryPrecedence?, heads]
  · cases kind <;> simp_all [heads]

theorem Printable.head {s : Statement} (h : s.Printable) :
    ∃ t ts, s.printed = t :: ts ∧ t.kind ∈ heads := by
  cases h with
  | block hopen _ _ => exact ⟨_, _, rfl, by simp [hopen.1, heads]⟩
  | declaration hkeyword _ _ _ _ =>
    refine ⟨_, _, rfl, ?_⟩
    rcases hkeyword with h | h <;> simp [h.1, heads]
  | ifThen hif _ _ _ => exact ⟨_, _, rfl, by simp [hif.1, heads]⟩
  | ifThenElse hif _ _ _ _ _ _ => exact ⟨_, _, rfl, by simp [hif.1, heads]⟩
  | whileLoop hwhile _ _ _ => exact ⟨_, _, rfl, by simp [hwhile.1, heads]⟩
  | forLoop hfor _ _ _ _ _ _ _ => exact ⟨_, _, rfl, by simp [hfor.1, heads]⟩
  | expression hinner hhead =>
    obtain ⟨t, ts, hprinted, ht⟩ := hinner.head
    have hnot := hhead t (by simp [hprinted])
    exact ⟨t, ts, hprinted, List.mem_of_mem_drop (mem_heads_of_expression ht hnot)⟩

theorem Printable.head_shown {s : Statement} (h : s.Printable) {ls : List Lexeme}
    (hls : Shown ls s.printed) : ∃ l ls', ls = l :: ls' ∧ l.token.kind ∈ heads := by
  obtain ⟨t, ts, hprinted, ht⟩ := h.head
  obtain ⟨l, ls, rfl, hl, -⟩ := Shown.cons (hprinted ▸ hls)
  exact ⟨l, ls, rfl, hl.kind_eq ▸ ht⟩

theorem exists_level_below {s : Statement} {n : Nat} (h : s.nesting ≤ n) : ∃ k, n = k + 1 := by
  have hpos : 0 < s.nesting := by cases s <;> simp [nesting]
  exact Nat.exists_eq_add_one.mpr (Nat.lt_of_lt_of_le hpos h)

/-- With the statement's tokens ahead, they are read as the statement, at every level that leaves
room for its nesting. -/
def Rereadable (s : Statement) : Prop :=
  ∀ ⦃c n ls rest⦄, s.nesting ≤ n → Shown ls s.printed →
    (s.kind ≠ .blockStatement → Ends (Cursor.kind (c.facing rest))) →
    Rereads c (ls ++ rest) rest (Level.ofDepth n).statement fun s' => s'.unplaced = s.unplaced

theorem ends_printedAll {statements : List Statement} (h : ∀ s ∈ statements, s.Printable)
    {c : Cursor} {ls rest : List Lexeme} (hls : Shown ls (printedAll statements))
    (hclose : (c.facing rest).kind = .closeBrace) : Ends (c.facing (ls ++ rest)).kind := by
  cases statements with
  | nil =>
    cases hls
    rw [List.nil_append, hclose]
    exact ends_closeBrace
  | cons s statements =>
    obtain ⟨ls₁, ls₂, rfl, hls₁, -⟩ := Shown.append hls
    obtain ⟨l, ls₁, rfl, hhead⟩ := (h s List.mem_cons_self).head_shown hls₁
    rw [List.cons_append, List.cons_append, Cursor.kind_facing_cons]
    exact ends_of_mem_heads hhead

/-- Statements are read up to the closing brace, unless there are more of them than may be. -/
theorem rereads_statements {statements : List Statement} {c : Cursor} {n : Nat}
    {rest : List Lexeme} (hprintable : ∀ s ∈ statements, s.Printable)
    (hreads : ∀ s ∈ statements, s.Rereadable) (hnesting : nestingAll statements ≤ n)
    (hclose : (c.facing rest).kind = .closeBrace) (fuel : Nat) (hfuel : statements.length ≤ fuel)
    {ls : List Lexeme} (hls : Shown ls (printedAll statements)) :
    Rereads c (ls ++ rest) rest (Grammar.statementsWithin (Level.ofDepth n).statement fuel)
      fun ss => unplacedAll ss = unplacedAll statements := by
  induction statements generalizing ls fuel with
  | nil =>
    cases hls
    cases fuel with
    | zero => exact .pure rfl
    | succ fuel =>
      refine rereads_kind ?_
      rw [List.nil_append, if_pos (.inr hclose)]
      exact .pure rfl
  | cons s statements ih =>
    obtain ⟨fuel, rfl⟩ : ∃ k, fuel = k + 1 := ⟨fuel - 1, by simp at hfuel; omega⟩
    obtain ⟨hfirst, hprintables⟩ := List.forall_mem_cons.mp hprintable
    obtain ⟨hread, hreads⟩ := List.forall_mem_cons.mp hreads
    obtain ⟨hnested, hnesting⟩ := Nat.max_le.mp hnesting
    obtain ⟨ls₁, ls₂, rfl, hls₁, hls₂⟩ := Shown.append hls
    obtain ⟨l, ls, rfl, hhead⟩ := hfirst.head_shown hls₁
    have hends := ends_printedAll hprintables hls₂ hclose
    refine rereads_kind ?_
    have hgo : ¬(l.token.kind = .endOfFile ∨ l.token.kind = .closeBrace) := by
      rintro (hk | hk) <;> exact absurd (hk ▸ hhead) (by decide)
    rw [List.append_assoc, List.cons_append, Cursor.kind_facing_cons, if_neg hgo,
      ← List.cons_append]
    refine rereads_get ((hread hnested hls₁ fun _ => hends).bind fun s' hs' => rereads_get ?_)
    dsimp only
    -- the statement has taken its first token, so none is left out behind it
    rw [if_neg (by simp; omega)]
    refine (ih hprintables hreads hnesting fuel (by simpa using hfuel) hls₂).bind fun ss hss => ?_
    exact .pure (by simp [unplacedAll, hs', hss])

theorem length_printedAll {statements : List Statement} (h : ∀ s ∈ statements, s.Printable) :
    statements.length ≤ (printedAll statements).length := by
  induction statements with
  | nil => exact Nat.le_refl _
  | cons s statements ih =>
    obtain ⟨hfirst, hrest⟩ := List.forall_mem_cons.mp h
    obtain ⟨t, ts, hprinted, -⟩ := hfirst.head
    have hlength := ih hrest
    simp only [printedAll, hprinted, List.length_append, List.length_cons]
    omega

theorem rereadable_block {openBrace : Token} {statements : List Statement} {closeBrace : Token}
    (hopen : openBrace.Is .openBrace) (hprintable : ∀ s ∈ statements, s.Printable)
    (hreads : ∀ s ∈ statements, s.Rereadable) (hclose : closeBrace.Is .closeBrace) :
    (block openBrace statements closeBrace).Rereadable := by
  intro c n ls rest hnesting hshown _
  obtain ⟨n, rfl⟩ := exists_level_below hnesting
  obtain ⟨l, _, rfl, hl, htail⟩ := Shown.cons hshown
  obtain ⟨ls, _, rfl, hls, hend⟩ := Shown.append htail
  obtain ⟨last, rfl, hlast⟩ := Shown.single hend
  refine rereads_kind ?_
  simp only [List.cons_append, List.append_assoc, List.nil_append]
  rw [Cursor.kind_facing_cons, hl.kind_is hopen]
  refine (rereads_expect hl hopen).bind fun openBrace' ho => rereads_get ?_
  have hlength := length_printedAll hprintable
  have hshows := hls.length_eq
  refine (rereads_statements hprintable hreads (Nat.le_of_succ_le_succ hnesting)
    (by simp [hlast.kind_is hclose]) _ (by simp; omega) hls).bind fun ss hss => ?_
  exact (rereads_expect hlast hclose).bind fun closeBrace' hc =>
    .pure (by simp [unplaced, ho, hss, hc])

theorem rereads_typeClause {clause : Option TypeClause} {c : Cursor} {ls rest : List Lexeme}
    (h : ∀ k ∈ clause, k.colon.Is .colon ∧ k.identifier.Is .identifier)
    (hls : Shown ls (clause.toList.flatMap fun k => [k.colon, k.identifier]))
    (hnext : (c.facing rest).kind = .equals) :
    Rereads c (ls ++ rest) rest Grammar.typeClause
      fun clause' => clause'.map TypeClause.unplaced = clause.map TypeClause.unplaced := by
  refine rereads_kind ?_
  cases clause with
  | none =>
    cases hls
    rw [List.nil_append, hnext]
    exact .pure rfl
  | some k =>
    obtain ⟨hcolon, hidentifier⟩ := h k rfl
    obtain ⟨l, _, rfl, hl, htail⟩ := Shown.cons hls
    obtain ⟨m, rfl, hm⟩ := Shown.single htail
    have hkind : (c.facing ([l, m] ++ rest)).kind = .colon := hl.kind_is hcolon
    rw [if_neg (Decidable.not_not.mpr hkind)]
    refine (rereads_expect hl hcolon).bind fun colon' hc => ?_
    refine (rereads_expect hm hidentifier).bind fun identifier' hid => ?_
    exact .pure (by simp [TypeClause.unplaced, hc, hid])

theorem rereads_declaration {keyword identifier : Token} {clause : Option TypeClause}
    {equals : Token} {initializer : Expression} {kind : TokenKind} (hkeyword : keyword.Is kind)
    (hidentifier : identifier.Is .identifier)
    (hclause : ∀ c ∈ clause, c.colon.Is .colon ∧ c.identifier.Is .identifier)
    (hequals : equals.Is .equals) (hinitializer : initializer.Rereadable) {c : Cursor} {n : Nat}
    {ls rest : List Lexeme} (hdepth : initializer.depth < n)
    (hls : Shown ls (declaration keyword identifier clause equals initializer).printed)
    (htrails : Trails 0 (c.facing rest).kind) :
    Rereads c (ls ++ rest) rest (Grammar.declaration (Level.ofDepth n) kind) fun s' =>
      s'.unplaced = (declaration keyword identifier clause equals initializer).unplaced := by
  obtain ⟨l, _, rfl, hl, htail⟩ := Shown.cons hls
  obtain ⟨m, _, rfl, hm, htail'⟩ := Shown.cons htail
  obtain ⟨ls₁, _, rfl, hls₁, hend⟩ := Shown.append htail'
  obtain ⟨k, ls₂, rfl, hk, hls₂⟩ := Shown.cons hend
  simp only [List.cons_append, List.append_assoc]
  refine (rereads_expect hl hkeyword).bind fun keyword' hkeyword' => ?_
  refine (rereads_expect hm hidentifier).bind fun identifier' hid => ?_
  refine (rereads_typeClause hclause hls₁ (by simp [hk.kind_is hequals])).bind fun clause' hc => ?_
  refine (rereads_expect hk hequals).bind fun equals' heq => ?_
  refine (hinitializer hdepth hls₂ htrails).bind fun initializer' hinit => ?_
  exact .pure (by simp [unplaced, hkeyword', hid, hc, heq, hinit])

theorem rereadable_declaration {keyword identifier : Token} {clause : Option TypeClause}
    {equals : Token} {initializer : Expression}
    (hkeyword : keyword.Is .letKeyword ∨ keyword.Is .varKeyword)
    (hidentifier : identifier.Is .identifier)
    (hclause : ∀ c ∈ clause, c.colon.Is .colon ∧ c.identifier.Is .identifier)
    (hequals : equals.Is .equals) (hinitializer : initializer.Rereadable) :
    (declaration keyword identifier clause equals initializer).Rereadable := by
  intro c n ls rest hnesting hshown hends
  obtain ⟨n, rfl⟩ := exists_level_below hnesting
  have hdepth : initializer.depth < n := Nat.lt_of_succ_lt_succ hnesting
  have htrails := (hends nofun).trails
  obtain ⟨l, _, rfl, hl, -⟩ := Shown.cons hshown
  refine rereads_kind ?_
  rw [List.cons_append, Cursor.kind_facing_cons, ← List.cons_append]
  rcases hkeyword with h | h <;> rw [hl.kind_is h] <;>
    exact rereads_declaration h hidentifier hclause hequals hinitializer hdepth hshown htrails

/-- What may follow the condition of an if or a loop is the brace of the block behind it. -/
theorem Printable.trails_block {s : Statement} (h : s.Printable) {c : Cursor}
    {ls : List Lexeme} (hls : Shown ls s.printed) (rest : List Lexeme) :
    Trails 0 (c.facing (ls ++ rest)).kind := by
  obtain ⟨l, ls, rfl, hhead⟩ := h.head_shown hls
  rw [List.cons_append, Cursor.kind_facing_cons]
  exact (ends_of_mem_heads hhead).trails

theorem rereads_governed {condition : Expression} {body : Statement}
    (hcondition : condition.Rereadable) (hprintable : body.Printable) (hbody : body.Rereadable)
    (hblock : body.kind = .blockStatement) {c : Cursor} {n : Nat} {ls₁ ls₂ mid rest : List Lexeme}
    (hdepth : condition.depth < n) (hnesting : body.nesting ≤ n) (hls₁ : Shown ls₁ condition.printed)
    (hls₂ : Shown ls₂ body.printed) {α : Type} {f : Expression → Statement → Reader α}
    {gives : α → Prop} (hmore : ∀ condition' body', condition'.unplaced = condition.unplaced →
      body'.unplaced = body.unplaced → Rereads c mid rest (f condition' body') gives) :
    Rereads c (ls₁ ++ (ls₂ ++ mid)) rest
      (do f (← (Level.ofDepth n).expression) (← (Level.ofDepth n).statement)) gives := by
  refine (hcondition hdepth hls₁ (hprintable.trails_block hls₂ mid)).bind fun condition' hc => ?_
  refine (hbody hnesting hls₂ fun hne => absurd hblock hne).bind fun body' hb => ?_
  exact hmore condition' body' hc hb

theorem rereadable_ifThen {ifKeyword : Token} {condition : Expression} {thenStatement : Statement}
    (hif : ifKeyword.Is .ifKeyword) (hcondition : condition.Rereadable)
    (hprintable : thenStatement.Printable) (hthen : thenStatement.Rereadable)
    (hblock : thenStatement.kind = .blockStatement) :
    (ifThen ifKeyword condition thenStatement).Rereadable := by
  intro c n ls rest hnesting hshown hends
  obtain ⟨n, rfl⟩ := exists_level_below hnesting
  obtain ⟨hdepth, hnested⟩ := Nat.max_le.mp (Nat.le_of_succ_le_succ hnesting)
  obtain ⟨l, _, rfl, hl, htail⟩ := Shown.cons hshown
  obtain ⟨ls₁, ls₂, rfl, hls₁, hls₂⟩ := Shown.append htail
  refine rereads_kind ?_
  simp only [List.cons_append, List.append_assoc]
  rw [Cursor.kind_facing_cons, hl.kind_is hif]
  refine (rereads_expect hl hif).bind fun ifKeyword' hk => ?_
  refine rereads_governed hcondition hprintable hthen hblock hdepth hnested hls₁ hls₂
    fun condition' then' hc ht => rereads_kind ?_
  rw [if_pos (hends nofun).not_else]
  exact .pure (by simp [unplaced, hk, hc, ht])

theorem rereadable_ifThenElse {ifKeyword : Token} {condition : Expression}
    {thenStatement : Statement} {elseKeyword : Token} {elseStatement : Statement}
    (hif : ifKeyword.Is .ifKeyword) (hcondition : condition.Rereadable)
    (hprintable : thenStatement.Printable) (hthen : thenStatement.Rereadable)
    (hblock : thenStatement.kind = .blockStatement) (hkeyword : elseKeyword.Is .elseKeyword)
    (helse : elseStatement.Rereadable) (hblock' : elseStatement.kind = .blockStatement) :
    (ifThenElse ifKeyword condition thenStatement elseKeyword elseStatement).Rereadable := by
  intro c n ls rest hnesting hshown _
  obtain ⟨n, rfl⟩ := exists_level_below hnesting
  obtain ⟨hdepth, hnested⟩ := Nat.max_le.mp (Nat.le_of_succ_le_succ hnesting)
  obtain ⟨hnested, hnested'⟩ := Nat.max_le.mp hnested
  obtain ⟨l, _, rfl, hl, htail⟩ := Shown.cons hshown
  obtain ⟨_, ls₃, rfl, hfirst, hend⟩ := Shown.append htail
  obtain ⟨ls₁, ls₂, rfl, hls₁, hls₂⟩ := Shown.append hfirst
  obtain ⟨m, ls₃, rfl, hm, hls₃⟩ := Shown.cons hend
  refine rereads_kind ?_
  simp only [List.cons_append, List.append_assoc]
  rw [Cursor.kind_facing_cons, hl.kind_is hif]
  refine (rereads_expect hl hif).bind fun ifKeyword' hk => ?_
  refine rereads_governed hcondition hprintable hthen hblock hdepth hnested hls₁ hls₂
    fun condition' then' hc ht => rereads_kind ?_
  rw [Cursor.kind_facing_cons, hm.kind_is hkeyword, if_neg (by decide)]
  refine (rereads_expect hm hkeyword).bind fun elseKeyword' hk' => ?_
  refine (helse hnested' hls₃ fun hne => absurd hblock' hne).bind fun else' he => ?_
  exact .pure (by simp [unplaced, hk, hc, ht, hk', he])

theorem rereadable_whileLoop {whileKeyword : Token} {condition : Expression} {body : Statement}
    (hwhile : whileKeyword.Is .whileKeyword) (hcondition : condition.Rereadable)
    (hprintable : body.Printable) (hbody : body.Rereadable)
    (hblock : body.kind = .blockStatement) :
    (whileLoop whileKeyword condition body).Rereadable := by
  intro c n ls rest hnesting hshown _
  obtain ⟨n, rfl⟩ := exists_level_below hnesting
  obtain ⟨hdepth, hnested⟩ := Nat.max_le.mp (Nat.le_of_succ_le_succ hnesting)
  obtain ⟨l, _, rfl, hl, htail⟩ := Shown.cons hshown
  obtain ⟨ls₁, ls₂, rfl, hls₁, hls₂⟩ := Shown.append htail
  refine rereads_kind ?_
  simp only [List.cons_append, List.append_assoc]
  rw [Cursor.kind_facing_cons, hl.kind_is hwhile]
  refine (rereads_expect hl hwhile).bind fun whileKeyword' hk => ?_
  exact rereads_governed hcondition hprintable hbody hblock hdepth hnested hls₁ hls₂
    fun condition' body' hc hb => .pure (by simp [unplaced, hk, hc, hb])

theorem trails_toKeyword : Trails 0 .toKeyword := ⟨by decide, by decide, nofun⟩

theorem rereadable_forLoop {forKeyword identifier equals : Token} {lower : Expression}
    {toKeyword : Token} {upper : Expression} {body : Statement}
    (hfor : forKeyword.Is .forKeyword) (hidentifier : identifier.Is .identifier)
    (hequals : equals.Is .equals) (hlower : lower.Rereadable) (hto : toKeyword.Is .toKeyword)
    (hupper : upper.Rereadable) (hprintable : body.Printable) (hbody : body.Rereadable)
    (hblock : body.kind = .blockStatement) :
    (forLoop forKeyword identifier equals lower toKeyword upper body).Rereadable := by
  intro c n ls rest hnesting hshown _
  obtain ⟨n, rfl⟩ := exists_level_below hnesting
  obtain ⟨hbounds, hnested⟩ := Nat.max_le.mp (Nat.le_of_succ_le_succ hnesting)
  obtain ⟨hdepth, hdepth'⟩ := Nat.max_lt.mp hbounds
  obtain ⟨l, _, rfl, hl, htail⟩ := Shown.cons hshown
  obtain ⟨m, _, rfl, hm, htail'⟩ := Shown.cons htail
  obtain ⟨k, _, rfl, hk, hinside⟩ := Shown.cons htail'
  obtain ⟨_, ls₃, rfl, hbefore, hls₃⟩ := Shown.append hinside
  obtain ⟨ls₁, _, rfl, hls₁, hbehind⟩ := Shown.append hbefore
  obtain ⟨j, ls₂, rfl, hj, hls₂⟩ := Shown.cons hbehind
  refine rereads_kind ?_
  simp only [List.cons_append, List.append_assoc]
  rw [Cursor.kind_facing_cons, hl.kind_is hfor]
  refine (rereads_expect hl hfor).bind fun forKeyword' hf => ?_
  refine (rereads_expect hm hidentifier).bind fun identifier' hid => ?_
  refine (rereads_expect hk hequals).bind fun equals' heq => ?_
  refine (hlower hdepth hls₁ ?_).bind fun lower' hlow => ?_
  · rw [Cursor.kind_facing_cons, hj.kind_is hto]
    exact trails_toKeyword
  refine (rereads_expect hj hto).bind fun toKeyword' ht => ?_
  exact rereads_governed hupper hprintable hbody hblock hdepth' hnested hls₂ hls₃
    fun upper' body' hup hb => .pure (by simp [unplaced, hf, hid, heq, hlow, ht, hup, hb])

theorem rereadable_expression {inner : Expression} (h : inner.Printable)
    (hhead : ∀ t ∈ inner.printed.head?,
      t.kind ≠ .openParen ∧ t.kind ≠ .plus ∧ t.kind ≠ .minus) :
    (expression inner).Rereadable := by
  intro c n ls rest hnesting hls hends
  obtain ⟨n, rfl⟩ := exists_level_below hnesting
  have hread : Rereads c (ls ++ rest) rest
      (do return Statement.expression (← (Level.ofDepth n).expression))
      fun s' => s'.unplaced = (expression inner).unplaced :=
    (h.rereadable (Nat.lt_of_succ_lt_succ hnesting) hls (hends nofun).trails).bind
      fun inner' hinner => .pure (by simp [unplaced, hinner])
  obtain ⟨t, ts, hprinted, ht⟩ := h.head
  have hmem := mem_heads_of_expression ht (hhead t (by simp [hprinted]))
  have hshown : Shown ls (t :: ts) := hprinted ▸ (hls : Shown ls inner.printed)
  obtain ⟨l, ls, rfl, hl, -⟩ := Shown.cons hshown
  rw [← hl.kind_eq] at hmem
  refine rereads_kind ?_
  rw [List.cons_append, Cursor.kind_facing_cons, ← List.cons_append]
  -- none of these kinds begins a statement of another form
  simp only [heads, List.drop, List.mem_cons, List.not_mem_nil, or_false] at hmem
  rcases hmem with hk | hk | hk | hk | hk | hk <;> rw [hk] <;> exact hread

theorem Printable.rereadable {s : Statement} (h : s.Printable) : s.Rereadable := by
  induction h with
  | block hopen hstatements hclose ih => exact rereadable_block hopen hstatements ih hclose
  | declaration hkeyword hidentifier hclause hequals hinitializer =>
    exact rereadable_declaration hkeyword hidentifier hclause hequals hinitializer.rereadable
  | ifThen hif hcondition hthen hblock ih =>
    exact rereadable_ifThen hif hcondition.rereadable hthen ih hblock
  | ifThenElse hif hcondition hthen hblock hkeyword helse hblock' ih ih' =>
    exact rereadable_ifThenElse hif hcondition.rereadable hthen ih hblock hkeyword ih' hblock'
  | whileLoop hwhile hcondition hbody hblock ih =>
    exact rereadable_whileLoop hwhile hcondition.rereadable hbody ih hblock
  | forLoop hfor hidentifier hequals hlower hto hupper hbody hblock ih =>
    exact rereadable_forLoop hfor hidentifier hequals hlower.rereadable hto hupper.rereadable hbody
      ih hblock
  | expression hinner hhead => exact rereadable_expression hinner hhead

end Statement

theorem Expression.valid_printedAfter {arguments : List Expression}
    (h : ∀ e ∈ arguments, ∀ t ∈ e.printed, t.Valid) : ∀ t ∈ printedAfter arguments, t.Valid := by
  induction arguments with
  | nil => exact List.forall_mem_nil _
  | cons e arguments ih =>
    obtain ⟨hfirst, hrest⟩ := List.forall_mem_cons.mp h
    have hcomma : Token.comma.Valid := ⟨none, .fixed rfl⟩
    exact List.forall_mem_append.mpr ⟨List.forall_mem_cons.mpr ⟨hcomma, hfirst⟩, ih hrest⟩

theorem Expression.Printable.valid {e : Expression} (h : e.Printable) :
    ∀ t ∈ e.printed, t.Valid := by
  induction h with
  | boolean h => simpa [printed] using h.2
  | literal h => simpa [printed] using ⟨_, h⟩
  | name h => simpa [printed] using h.2
  | unary hvalid _ _ _ ih => simpa [printed] using ⟨hvalid, ih⟩
  | binary hvalid _ _ _ _ _ ihl ihr =>
    exact List.forall_mem_append.mpr ⟨ihl, List.forall_mem_cons.mpr ⟨hvalid, ihr⟩⟩
  | parenthesized hopen _ hclose ih =>
    simpa [printed, or_imp, forall_and] using ⟨hopen.2, ih, hclose.2⟩
  | assignment hidentifier hequals _ ih =>
    simpa [printed] using ⟨hidentifier.2, hequals.2, ih⟩
  | call hidentifier hopen _ hclose ih =>
    have hall := valid_printedAfter ih
    have htail := fun t ht => hall t (List.mem_of_mem_tail ht)
    simpa [printed, or_imp, forall_and] using ⟨hidentifier.2, hopen.2, htail, hclose.2⟩

theorem Statement.valid_printedAll {statements : List Statement}
    (h : ∀ s ∈ statements, ∀ t ∈ s.printed, t.Valid) : ∀ t ∈ printedAll statements, t.Valid := by
  induction statements with
  | nil => exact List.forall_mem_nil _
  | cons s statements ih =>
    obtain ⟨hfirst, hrest⟩ := List.forall_mem_cons.mp h
    exact List.forall_mem_append.mpr ⟨hfirst, ih hrest⟩

theorem Statement.Printable.valid {s : Statement} (h : s.Printable) :
    ∀ t ∈ s.printed, t.Valid := by
  induction h with
  | block hopen _ hclose ih =>
    simpa [printed, or_imp, forall_and] using ⟨hopen.2, valid_printedAll ih, hclose.2⟩
  | declaration hkeyword hidentifier hclause hequals hinitializer =>
    rename_i clause _ _
    have hclause' : ∀ t ∈ clause.toList.flatMap fun c => [c.colon, c.identifier], t.Valid := by
      cases clause with
      | none => exact List.forall_mem_nil _
      | some c => simpa using ⟨(hclause c rfl).1.2, (hclause c rfl).2.2⟩
    exact List.forall_mem_cons.mpr ⟨hkeyword.elim And.right And.right,
      List.forall_mem_cons.mpr ⟨hidentifier.2, List.forall_mem_append.mpr ⟨hclause',
        List.forall_mem_cons.mpr ⟨hequals.2, hinitializer.valid⟩⟩⟩⟩
  | ifThen hif hcondition _ _ ih =>
    simpa [printed, or_imp, forall_and] using ⟨hif.2, hcondition.valid, ih⟩
  | ifThenElse hif hcondition _ _ hkeyword _ _ ih ih' =>
    simpa [printed, or_imp, forall_and] using
      ⟨hif.2, hcondition.valid, ih, hkeyword.2, ih'⟩
  | whileLoop hwhile hcondition _ _ ih =>
    simpa [printed, or_imp, forall_and] using ⟨hwhile.2, hcondition.valid, ih⟩
  | forLoop hfor hidentifier hequals hlower hto hupper _ _ ih =>
    simpa [printed, or_imp, forall_and] using
      ⟨hfor.2, hidentifier.2, hequals.2, hlower.valid, hto.2, hupper.valid, ih⟩
  | expression hinner _ => exact hinner.valid

/-- The text reads as the tree: nothing is wrong with it, and the tree read is this one, but for the
places of its tokens. -/
def Tree.ReadsFrom (tree : Tree) (text : String) : Prop :=
  (Fragment.ofText text).diagnostics = [] ∧ (Fragment.ofText text).tree.unplaced = tree.unplaced

theorem Grammar.rereads_whole {statement : Reader Statement} {s : Statement} {c : Cursor}
    {ls : List Lexeme} (hc : c.endOfFile.token.kind = .endOfFile)
    (h : Rereads c ls [] statement fun s' => s'.unplaced = s.unplaced) :
    Rereads c ls [] (whole statement) fun tree =>
      tree.statement.unplaced = s.unplaced ∧ tree.endOfFile = c.endOfFile.token := by
  refine h.bind fun s' hs' => ?_
  have hlast : Rereads c [] [] (expect .endOfFile) fun t => t = c.endOfFile.token :=
    ⟨_, run_expect_of_kind hc, rfl⟩
  exact hlast.bind fun t ht => .pure ⟨hs', ht⟩

namespace Tree

theorem Printable.readsFrom {tree : Tree} (h : tree.Printable) {tail : List Char}
    (htail : tail = [] ∨ tail = [' ']) {text : String}
    (htext : text.toList = (Token.spaced tree.statement.printed).toList ++ tail) :
    tree.ReadsFrom text := by
  obtain ⟨t, ts, hprinted, -⟩ := h.statement.head
  have hvalid := h.statement.valid
  rw [hprinted] at htext hvalid
  obtain ⟨hlexemes, ls, position, hls, hcursor⟩ := Cursor.ofLexemes_spaced hvalid htail htext
  let c : Cursor := ⟨[], .endOfFile position, false, []⟩
  have hstatement : Rereads c ls [] (Level.ofDepth nestingLimit).statement fun s' =>
      s'.unplaced = tree.statement.unplaced := by
    rw [← List.append_nil ls]
    exact h.statement.rereadable h.nesting (hprinted ▸ hls) fun _ => Statement.ends_endOfFile
  obtain ⟨tree', hrun, hsame, hlast⟩ := Grammar.rereads_whole rfl hstatement
  have hfragment : Grammar.tree.run (.ofLexemes (Lexeme.ofText text)) = (tree', c) := by
    rw [hcursor, Grammar.tree_eq]
    exact hrun
  have hend : tree'.endOfFile.unplaced = tree.endOfFile.unplaced := by
    rw [hlast]
    simp [c, Lexeme.endOfFile, Token.unplaced, h.endOfFile]
  constructor
  · rw [Fragment.ofText_eq, hfragment, hlexemes]
    rfl
  · rw [Fragment.ofText_eq, hfragment, unplaced, unplaced, hsame, hend]

/-- The printed tokens of a tree, with the end of the file and without it, separated by spaces, read
as the tree. -/
theorem reads_printed {tree : Tree} (h : tree.Printable) :
    tree.ReadsFrom (Token.spaced tree.printed) ∧
      tree.ReadsFrom (Token.spaced tree.statement.printed) := by
  refine ⟨h.readsFrom (.inr rfl) ?_, h.readsFrom (.inl rfl) (List.append_nil _).symm⟩
  obtain ⟨t, ts, hprinted, -⟩ := h.statement.head
  rw [printed, hprinted, List.cons_append, Token.toList_spaced, Token.toList_spaced]
  simp [Token.after, h.endOfFile.2]

end Tree

section Specimen

def Token.mark (kind : TokenKind) : Token := ⟨kind, .emptyAt 0, kind.text?.getD ""⟩

def Token.named (name : String) : Token := ⟨.identifier, .emptyAt 0, name⟩

def Token.numeral (digits : String) : Token := ⟨.number, .emptyAt 0, digits⟩

theorem Token.is_mark {kind : TokenKind} (h : kind.text?.isSome) : (mark kind).Is kind := by
  obtain ⟨text, htext⟩ := Option.isSome_iff_exists.mp h
  refine ⟨rfl, none, ?_⟩
  have hfixed := Lexical.fixed htext
  simpa [Denotes, mark, htext] using hfixed

/-- A block of a declaration whose initial value takes three precedences, and of a choice. -/
def Tree.specimen : Tree where
  statement := .block (.mark .openBrace) [
    .declaration (.mark .varKeyword) (.named "a") (some ⟨.mark .colon, .named "int"⟩)
      (.mark .equals)
      (.binary
        (.binary (.literal (.numeral "1") (.int 1)) (.mark .minus) (.name (.named "b")))
        (.mark .minus)
        (.binary
          (.call (.named "max") (.mark .openParen)
            [.literal (.numeral "3") (.int 3), .name (.named "b")] (.mark .closeParen))
          (.mark .asterisk)
          (.unary (.mark .minus) (.name (.named "b"))))),
    .ifThenElse (.mark .ifKeyword)
      (.unary (.mark .exclamation) (.literal (.mark .trueKeyword) (.bool true)))
      (.block (.mark .openBrace)
        [.expression (.assignment (.named "a") (.mark .equals)
          (.literal ⟨.string, .emptyAt 0, "\"say \"\"no\"\"\""⟩ (.string "say \"no\"")))]
        (.mark .closeBrace))
      (.mark .elseKeyword) (.block (.mark .openBrace) [] (.mark .closeBrace))]
    (.mark .closeBrace)
  endOfFile := ⟨.endOfFile, .emptyAt 0, ""⟩

theorem Tree.printable_specimen : specimen.Printable := by
  have hmark {kind : TokenKind} (h : kind.text?.isSome) : (Token.mark kind).Is kind :=
    Token.is_mark h
  have ha : (Token.named "a").Is .identifier := ⟨rfl, none, .identifier (c := 'a') rfl nofun rfl⟩
  have hb : (Token.named "b").Is .identifier := ⟨rfl, none, .identifier (c := 'b') rfl nofun rfl⟩
  have hint : (Token.named "int").Is .identifier :=
    ⟨rfl, none, .identifier (c := 'i') rfl (List.all_eq_true.mp rfl) rfl⟩
  have hmax : (Token.named "max").Is .identifier :=
    ⟨rfl, none, .identifier (c := 'm') rfl (List.all_eq_true.mp rfl) rfl⟩
  have h1 : (Token.numeral "1").Denotes (some (.int 1)) :=
    .number (List.all_eq_true.mp rfl) (by decide)
  have h3 : (Token.numeral "3").Denotes (some (.int 3)) :=
    .number (List.all_eq_true.mp rfl) (by decide)
  refine ⟨.block (hmark rfl) (List.forall_mem_cons.mpr ⟨?_, List.forall_mem_singleton.mpr ?_⟩)
    (hmark rfl), by decide, rfl, rfl⟩
  · refine .declaration (.inr (hmark rfl)) ha ?_ (hmark rfl) ?_
    · intro c hc
      obtain rfl := Option.mem_some.mp hc
      exact ⟨hmark rfl, hint⟩
    · refine .binary ⟨none, .fixed rfl⟩ rfl (.binary ⟨none, .fixed rfl⟩ rfl (.literal h1) (.name hb)
        (by decide) (by decide)) (.binary ⟨none, .fixed rfl⟩ rfl (.call hmax (hmark rfl) ?_
        (hmark rfl)) (.unary ⟨none, .fixed rfl⟩ rfl (.name hb) (by decide)) (by decide)
        (by decide)) (by decide) (by decide)
      exact List.forall_mem_cons.mpr ⟨.literal h3, List.forall_mem_singleton.mpr (.name hb)⟩
  · have htext : Token.Denotes ⟨.string, .emptyAt 0, "\"say \"\"no\"\"\""⟩
        (some (.string "say \"no\"")) := by
      have hcontent : ∀ c ∈ "say \"no\"".toList, c ≠ '\r' ∧ c ≠ '\n' := by simp
      exact .string hcontent
    have hassign : Statement.Printable (.expression (.assignment (.named "a") (.mark .equals)
        (.literal ⟨.string, .emptyAt 0, "\"say \"\"no\"\"\""⟩ (.string "say \"no\"")))) :=
      .expression (.assignment ha (hmark rfl) (.literal htext)) (by decide)
    have hblock : Statement.Printable (.block (.mark .openBrace) [] (.mark .closeBrace)) :=
      .block (hmark rfl) nofun (hmark rfl)
    exact .ifThenElse (hmark rfl) (.unary ⟨none, .fixed rfl⟩ rfl (.boolean (hmark rfl)) (by decide))
      (.block (hmark rfl) (List.forall_mem_singleton.mpr hassign) (hmark rfl)) rfl (hmark rfl)
      hblock rfl

/-- Printed, the block has two statements with nothing but a space between them. -/
theorem Tree.reads_printed_specimen :
    specimen.Printable ∧ specimen.ReadsFrom
      ("\x7b var a : int = 1 - b - max ( 3 , b ) * - b " ++
        "if ! true \x7b a = \"say \"\"no\"\"\" \x7d else \x7b \x7d \x7d ") := by
  have htext : Token.spaced specimen.printed =
      "\x7b var a : int = 1 - b - max ( 3 , b ) * - b " ++
        "if ! true \x7b a = \"say \"\"no\"\"\" \x7d else \x7b \x7d \x7d " := by decide +kernel
  have hreads := (reads_printed printable_specimen).1
  rw [htext] at hreads
  exact ⟨printable_specimen, hreads⟩

end Specimen

end ScalarScript
