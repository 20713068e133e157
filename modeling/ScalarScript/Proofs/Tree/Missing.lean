import ScalarScript.Proofs.Tree.Spans

/-!
What is missing in the tree of a text, and what was noted of it. Each token that was put in for a
missing one was noted there and then, and of the order of the tokens nothing else was, until reading
was given up: that is noted last, and whatever is missing from there on is put in without a word.
-/

set_option autoImplicit false

namespace ScalarScript

/-- The diagnostic notes that the token is missing: it starts where the token was put in, and names
the kind of the token as the one that must stand there. -/
def Diagnostic.Misses (d : Diagnostic) (t : Token) : Prop :=
  d.span.start = t.span.start ∧ ∃ actual, d.fault = .unexpectedToken actual t.kind.name

/-- The tokens that were put in for missing ones. The end of the file has no text either: where it
is the `last` of the lexemes it was not put in. -/
def Token.gaps (last : Token) (ts : List Token) : List Token :=
  ts.filter fun t => t.isMissing && t != last

/-- How the faults noted in reading account for the tokens put in, by whether reading was given
up. -/
inductive Noted : Bool → List Diagnostic → List Token → Prop where
  | each {ds : List Diagnostic} {ts : List Token} (h : List.Forall₂ Diagnostic.Misses ds ts) :
    Noted false ds ts
  | upTo {ds : List Diagnostic} {ts : List Token} (h : List.Forall₂ Diagnostic.Misses ds ts)
    (span : Span) (us : List Token) :
    Noted true (ds ++ [⟨span, .nestingTooDeep nestingLimit⟩]) (ts ++ us)

namespace Token

variable {last t : Token} {ts us : List Token}

theorem gaps_append (last : Token) (ts us : List Token) :
    gaps last (ts ++ us) = gaps last ts ++ gaps last us := List.filter_append ts us

theorem gaps_present (last : Token) (h : t.isMissing = false) : gaps last [t] = [] := by
  simp [gaps, h]

theorem gaps_missing (h : t.isMissing = true) (hne : t ≠ last) : gaps last [t] = [t] := by
  simp [gaps, h, hne]

theorem gaps_last (last : Token) : gaps last [last] = [] := by simp [gaps]

end Token

open Token (gaps gaps_append gaps_present gaps_missing gaps_last)

namespace Noted

variable {ds : List Diagnostic} {ts us : List Token}

theorem more (h : Noted true ds ts) (us : List Token) : Noted true ds (ts ++ us) := by
  cases h with
  | upTo h span vs =>
    rw [List.append_assoc]
    exact .upTo h span (vs ++ us)

theorem miss {d : Diagnostic} {t : Token} (h : Noted false ds ts) (ht : d.Misses t) :
    Noted false (ds ++ [d]) (ts ++ [t]) := by
  cases h with
  | each h => exact .each (List.rel_append h (.cons ht .nil))

theorem giveUp (h : Noted false ds ts) (span : Span) (us : List Token) :
    Noted true (ds ++ [⟨span, .nestingTooDeep nestingLimit⟩]) (ts ++ us) := by
  cases h with
  | each h => exact .upTo h span us

theorem unexpected_of_misses (h : List.Forall₂ Diagnostic.Misses ds ts) :
    ∀ d ∈ ds, d.fault.kind = .unexpectedToken := by
  induction h with
  | nil => exact fun _ hd => absurd hd List.not_mem_nil
  | cons hd _ ih =>
    obtain ⟨-, actual, hfault⟩ := hd
    exact List.forall_mem_cons.mpr ⟨by rw [hfault]; rfl, ih⟩

theorem dropLast {abandoned : Bool} (h : Noted abandoned ds ts) :
    ∀ d ∈ ds.dropLast, d.fault.kind = .unexpectedToken := by
  cases h with
  | each h => exact fun d hd => unexpected_of_misses h d (List.dropLast_subset _ hd)
  | upTo h span us =>
    rw [List.dropLast_concat]
    exact unexpected_of_misses h

theorem misses {abandoned : Bool} (h : Noted abandoned ds ts)
    (hds : ∀ d ∈ ds, d.fault.kind ≠ .nestingTooDeep) : List.Forall₂ Diagnostic.Misses ds ts := by
  cases h with
  | each h => exact h
  | upTo h span us => exact absurd rfl (hds _ List.mem_concat_self)

end Noted

namespace Cursor

variable {c c' : Cursor} {last : Token} {ts us : List Token}

/-- What was noted so far accounts for the missing ones of the tokens given so far. -/
def Accounts (c : Cursor) (last : Token) (ts : List Token) : Prop :=
  Noted c.abandoned c.diagnostics (gaps last ts)

namespace Accounts

theorem skip (h : c.Accounts last ts) : c.advance.Accounts last ts := h

theorem take (h : c.Accounts last ts) (ht : c.current.token.isMissing = false) :
    c.advance.Accounts last (ts ++ [c.current.token]) := by
  rw [Accounts, gaps_append, gaps_present last ht, List.append_nil]
  exact h

theorem lacking {kind : TokenKind} (h : c.Accounts last ts) (hne : .missing kind c.start ≠ last) :
    (c.lacking kind).Accounts last (ts ++ [.missing kind c.start]) := by
  rw [Accounts, gaps_append, gaps_missing (Token.isMissing_missing _ _) hne, Cursor.lacking]
  rw [Accounts] at h
  cases ha : c.abandoned with
  | true =>
    rw [ha] at h
    rw [if_pos rfl, ha]
    exact h.more _
  | false =>
    rw [ha] at h
    rw [if_neg Bool.false_ne_true]
    have hmiss : Diagnostic.Misses ⟨c.current.token.span, .unexpectedToken c.kind.name kind.name⟩
        (.missing kind c.start) := ⟨rfl, _, rfl⟩
    have hnoted := h.miss hmiss
    rwa [← ha] at hnoted

theorem giveUp (h : c.Accounts last ts) (us : List Token) :
    c.giveUp.Accounts last (ts ++ us) := by
  rw [Accounts, gaps_append, Cursor.giveUp]
  rw [Accounts] at h
  cases ha : c.abandoned with
  | true =>
    rw [ha] at h
    rw [if_pos rfl, ha]
    exact h.more _
  | false =>
    rw [ha] at h
    rw [if_neg Bool.false_ne_true]
    exact h.giveUp _ _

end Accounts

/-- The faults noted so far start one after another, none behind where the next lexeme starts. -/
structure Ascends (c : Cursor) : Prop where
  ordered : c.diagnostics.Pairwise fun d e => d.span.start ≤ e.span.start
  bounded : ∀ d ∈ c.diagnostics, d.span.start ≤ c.start

theorem Ascends.step {text : String} (h : c.Ascends) (hc : c.LiesIn text) (hstep : Step c c') :
    c'.Ascends := by
  have hle : c.start ≤ c'.start := hc.start_le (.single hstep)
  have hbounded : ∀ d ∈ c.diagnostics, d.span.start ≤ c'.start :=
    fun d hd => (h.bounded d hd).trans hle
  rcases hstep.diagnostics with hsame | ⟨fault, -, hmore⟩
  · exact ⟨hsame ▸ h.ordered, hsame ▸ hbounded⟩
  · constructor
    · rw [hmore, List.pairwise_append]
      refine ⟨h.ordered, List.pairwise_singleton _ _, fun d hd e he => ?_⟩
      rw [List.mem_singleton.mp he]
      exact h.bounded d hd
    · rw [hmore, List.forall_mem_append, List.forall_mem_singleton]
      exact ⟨hbounded, hle⟩

theorem Ascends.steps {text : String} (h : c.Ascends) (hc : c.LiesIn text) (hsteps : Steps c c') :
    c'.Ascends :=
  (hsteps.keeps (P := fun k => k.LiesIn text ∧ k.Ascends)
    (fun _ _ hstep hk => ⟨hk.1.step hstep, hk.2.step hk.1 hstep⟩) ⟨hc, h⟩).2

theorem Steps.endOfFile (h : Steps c c') : c'.endOfFile = c.endOfFile := by
  refine h.keeps (P := fun k => k.endOfFile = c.endOfFile) (fun k k' hstep hk => ?_) rfl
  cases hstep with
  | advance => exact hk
  | lacking kind =>
    rw [Cursor.lacking]
    split <;> exact hk
  | giveUp =>
    rw [Cursor.giveUp]
    split <;> exact hk

theorem LiesIn.start_lt {text : String} (hc : c.LiesIn text) (h : c.kind ≠ .endOfFile) :
    c.start < c.endOfFile.token.span.start := by
  obtain ⟨ls, hahead, -⟩ := c.ahead_of_kind hc.sound h
  have hwords : c.words = c.current.token :: (ls.map Lexeme.token ++ [c.endOfFile.token]) := by
    rw [words, hahead]
    rfl
  have hord := hc.ordered
  rw [hwords, List.pairwise_cons] at hord
  have hstop := hord.1 c.endOfFile.token (by simp)
  have hlength : c.current.token.span.length ≠ 0 := by
    intro hzero
    have htext := hc.current.slice
    rw [Span.slice_of_length_eq_zero hzero] at htext
    have hmissing := hc.isMissing_current h
    rw [Token.isMissing, ← htext] at hmissing
    cases hmissing
  have hlt : c.start < c.current.token.span.stop :=
    Nat.lt_add_of_pos_right (Nat.pos_of_ne_zero hlength)
  exact hlt.trans_le hstop

end Cursor

section Courses

variable {text : String} {c c' : Cursor} {last : Token} {ts : List Token}

theorem Token.missing_ne_last (hlast : last.kind = .endOfFile) {kind : TokenKind}
    (h : kind ≠ .endOfFile) (position : Nat) : missing kind position ≠ last := by
  rintro rfl
  exact h hlast

theorem Token.Expected.accounts (hlast : last.kind = .endOfFile) {kind : TokenKind} {t : Token}
    (hkind : kind ≠ .endOfFile) (hc : c.LiesIn text) (hts : c.Accounts last ts) :
    t.Expected kind c c' → c'.Accounts last (ts ++ [t])
  | .found h => hts.take (hc.isMissing_current (h ▸ hkind))
  | .missing _ => hts.lacking (Token.missing_ne_last hlast hkind _)

/-- What was noted accounts for the tokens of what the passage reads, if it did so for those before
it. The operators after an expression that was read before go on behind the tokens of that. -/
def Passage.Accounts (last : Token) (c : Cursor) (e : Expression) (c' : Cursor) : Passage → Prop
  | .chain _ left => ∀ ts, c.Accounts last (ts ++ left.tokens) → c'.Accounts last (ts ++ e.tokens)
  | _ => ∀ ts, c.Accounts last ts → c'.Accounts last (ts ++ e.tokens)

mutual

theorem Expression.Read.accounts (hlast : last.kind = .endOfFile) {p : Passage} {e : Expression}
    {c c' : Cursor} : e.Read p c c' → c.LiesIn text → p.Accounts last c e c'
  | .tooDeep c h, _ => by
    rcases h with rfl | rfl
    · exact fun ts hts => hts.giveUp _
    · exact fun ts hts => hts.giveUp _
  | .assignment hidentifier hequals h, hc => by
    intro ts hts
    have hi := hts.take (hc.isMissing_current (by simp [hidentifier]))
    have hq := hi.take (hc.advance.isMissing_current (by simp [hequals]))
    have hsource := h.accounts hlast hc.advance.advance _ hq
    simpa [tokens] using hsource
  | .expression h, hc => h.accounts hlast hc
  | .operation hleft h, hc => fun ts hts =>
    h.accounts hlast (hc.steps hleft.steps) ts (hleft.accounts hlast hc ts hts)
  | .done _, _ => fun _ hts => hts
  | .cut left c, _ => fun ts hts => by simpa using hts.giveUp []
  | .more hp hright h, hc => by
    intro ts hts
    have hk := Grammar.ne_endOfFile_of_operatorAbove? hp
    have hoperator := hts.take (hc.isMissing_current hk)
    have hoperand := hright.accounts hlast hc.advance _ hoperator
    refine h.accounts hlast (hc.advance.steps hright.steps) ts ?_
    simpa [tokens] using hoperand
  | .unary hp h, hc => by
    intro ts hts
    have hk := TokenKind.ne_endOfFile_of_unaryPrecedence? hp
    have hoperand := h.accounts hlast hc.advance _ (hts.take (hc.isMissing_current hk))
    simpa [tokens] using hoperand
  | .primary h, hc => h.accounts hlast hc
  | .parenthesized hopen h hclose, hc => by
    intro ts hts
    have ho := hts.take (hc.isMissing_current (by simp [hopen]))
    have hinner := h.accounts hlast hc.advance _ ho
    have hall := hclose.accounts hlast (by decide) (hc.advance.steps h.steps) hinner
    simpa [tokens] using hall
  | .literal h value, hc => fun ts hts => hts.take (hc.isMissing_current h)
  | .call hidentifier hopen h hclose, hc => by
    intro ts hts
    have hi := hts.take (hc.isMissing_current (by simp [hidentifier]))
    have ho := hi.take (hc.advance.isMissing_current (by simp [hopen]))
    have harguments := h.accounts hlast hc.advance.advance ho
    have hall := hclose.accounts hlast (by decide) (hc.advance.advance.steps h.steps) harguments
    simpa [tokens] using hall
  | .name h, hc => fun ts hts => h.accounts hlast (by decide) hc hts

theorem Expression.ReadAll.accounts (hlast : last.kind = .endOfFile) {es : List Expression}
    {c c' : Cursor} {ts : List Token} : ReadAll c es c' → c.LiesIn text → c.Accounts last ts →
    c'.Accounts last (ts ++ tokensAll es)
  | .nil _, _, hts => by simpa [tokensAll] using hts
  | .last h, hc, hts => by simpa [tokensAll] using h.accounts hlast hc _ hts
  | .cons h _ hrest, hc, hts => by
    have hfirst := (h.accounts hlast hc _ hts).skip
    have hall := hrest.accounts hlast (hc.steps h.steps).advance hfirst
    simpa [tokensAll] using hall

end

theorem TypeClause.Read.accounts (hlast : last.kind = .endOfFile) {clause : Option TypeClause}
    (hc : c.LiesIn text) (hts : c.Accounts last ts) :
    Read c clause c' → c'.Accounts last (ts ++ clause.toList.flatMap TypeClause.tokens)
  | .none => by simpa using hts
  | .some hcolon h => by
    have hk := hts.take (hc.isMissing_current (by simp [hcolon]))
    simpa [tokens] using h.accounts hlast (by decide) hc.advance hk

mutual

theorem Statement.Read.accounts (hlast : last.kind = .endOfFile) {s : Statement} {c c' : Cursor}
    {ts : List Token} : s.Read c c' → c.LiesIn text → c.Accounts last ts →
    c'.Accounts last (ts ++ s.tokens)
  | .block hopen h hclose, hc, hts => by
    have ho := hts.take (hc.isMissing_current (by simp [hopen]))
    have hstatements := h.accounts hlast hc.advance ho
    have hall := hclose.accounts hlast (by decide) (hc.advance.steps h.steps) hstatements
    simpa [tokens] using hall
  | .declaration hkeyword hidentifier hclause hequals h, hc, hts => by
    have hk : c.kind ≠ .endOfFile := by rcases hkeyword with hk | hk <;> simp [hk]
    have hc₁ := hc.advance.steps hidentifier.steps
    have hc₂ := hc₁.steps hclause.steps
    have h₀ := hts.take (hc.isMissing_current hk)
    have h₁ := hidentifier.accounts hlast (by decide) hc.advance h₀
    have h₂ := hclause.accounts hlast hc₁ h₁
    have h₃ := hequals.accounts hlast (by decide) hc₂ h₂
    have h₄ := h.accounts hlast (hc₂.steps hequals.steps) _ h₃
    simpa [tokens] using h₄
  | .ifThen hif hcondition hthen, hc, hts => by
    have h₀ := hts.take (hc.isMissing_current (by simp [hif]))
    have h₁ := hcondition.accounts hlast hc.advance _ h₀
    have h₂ := hthen.accounts hlast (hc.advance.steps hcondition.steps) h₁
    simpa [tokens] using h₂
  | .ifThenElse hif hcondition hthen helse hother, hc, hts => by
    have hc₁ := hc.advance.steps hcondition.steps
    have hc₂ := hc₁.steps hthen.steps
    have h₀ := hts.take (hc.isMissing_current (by simp [hif]))
    have h₁ := hcondition.accounts hlast hc.advance _ h₀
    have h₂ := (hthen.accounts hlast hc₁ h₁).take (hc₂.isMissing_current (by simp [helse]))
    have h₃ := hother.accounts hlast hc₂.advance h₂
    simpa [tokens] using h₃
  | .whileLoop hwhile hcondition hbody, hc, hts => by
    have h₀ := hts.take (hc.isMissing_current (by simp [hwhile]))
    have h₁ := hcondition.accounts hlast hc.advance _ h₀
    have h₂ := hbody.accounts hlast (hc.advance.steps hcondition.steps) h₁
    simpa [tokens] using h₂
  | .forLoop hfor hidentifier hequals hlower hto hupper hbody, hc, hts => by
    have hc₁ := hc.advance.steps hidentifier.steps
    have hc₂ := hc₁.steps hequals.steps
    have hc₃ := hc₂.steps hlower.steps
    have hc₄ := hc₃.steps hto.steps
    have h₀ := hts.take (hc.isMissing_current (by simp [hfor]))
    have h₁ := hidentifier.accounts hlast (by decide) hc.advance h₀
    have h₂ := hequals.accounts hlast (by decide) hc₁ h₁
    have h₃ := hlower.accounts hlast hc₂ _ h₂
    have h₄ := hto.accounts hlast (by decide) hc₃ h₃
    have h₅ := hupper.accounts hlast hc₄ _ h₄
    have h₆ := hbody.accounts hlast (hc₄.steps hupper.steps) h₅
    simpa [tokens] using h₆
  | .expression h, hc, hts => h.accounts hlast hc _ hts

theorem Statement.ReadAll.accounts (hlast : last.kind = .endOfFile) {ss : List Statement}
    {c c' : Cursor} {ts : List Token} : ReadAll c ss c' → c.LiesIn text → c.Accounts last ts →
    c'.Accounts last (ts ++ tokensAll ss)
  | .nil _, _, hts => by simpa [tokensAll] using hts
  | .cons h hrest, hc, hts => by
    have hfirst := h.accounts hlast hc hts
    have hall := hrest.accounts hlast (hc.steps h.steps) hfirst
    simpa [tokensAll] using hall
  | .skip h hrest, hc, hts => by
    have hfirst := (h.accounts hlast hc hts).skip
    have hall := hrest.accounts hlast (hc.steps h.steps).advance hfirst
    simpa [tokensAll] using hall

end

/-- The end of the file is put in only where something else is left, which lies before the last
lexeme. -/
theorem Tree.Read.accounts {tree : Tree} (hc : c.LiesIn text)
    (hts : c.Accounts c.endOfFile.token []) (h : tree.Read c c') :
    c'.Accounts c.endOfFile.token tree.tokens := by
  cases h with
  | @whole statement endOfFile c₁ _ h hend =>
    have hc₁ := hc.steps h.steps
    have hstatement := h.accounts hc.sound.last hc hts
    have hlast : c₁.endOfFile = c.endOfFile := h.steps.endOfFile
    rw [Tree.tokens_eq]
    cases hend with
    | found hkind =>
      obtain ⟨-, hcurrent⟩ := Cursor.ahead_of_endOfFile hc₁.sound hkind
      rw [hcurrent, hlast, Cursor.Accounts, gaps_append, gaps_last, List.append_nil]
      exact hstatement
    | missing hkind =>
      refine hstatement.lacking fun heq => ?_
      have hlt := hc₁.start_lt hkind
      rw [hlast, ← heq] at hlt
      exact Nat.lt_irrefl _ hlt

end Courses

namespace Fragment

/-- What is noted of the order of a text's tokens comes behind what is wrong with its lexemes. That
reading was given up is noted at most once and last. Where it is not noted, the other faults are one
for each token that was put in, in their order: each starts where the token was put in and names its
kind. All of them are in the order of the text. -/
theorem faults_of_missing (text : String) :
    ∃ last noted, (Lexeme.ofText text).getLast? = some last ∧
      (ofText text).diagnostics = Lexeme.diagnostics (Lexeme.ofText text) ++ noted ∧
      (∀ d ∈ noted.dropLast, d.fault.kind ≠ .nestingTooDeep) ∧
      ((∀ d ∈ noted, d.fault.kind ≠ .nestingTooDeep) →
        List.Forall₂ Diagnostic.Misses noted (gaps last.token (ofText text).tree.tokens)) ∧
      noted.Pairwise fun d e => d.span.start ≤ e.span.start := by
  obtain ⟨c, hread, hdiagnostics⟩ := exists_read text
  have hc := Cursor.LiesIn.ofText text
  have hnoted := hread.accounts hc (.each .nil)
  have hascends := Cursor.Ascends.steps ⟨.nil, fun _ hd => absurd hd List.not_mem_nil⟩ hc
    hread.steps
  refine ⟨_, c.diagnostics, Cursor.endOfFile_ofText text, hdiagnostics, fun d hd => ?_,
    hnoted.misses, hascends.ordered⟩
  rw [hnoted.dropLast d hd]
  decide

/-- Behind a bad character, a declaration lacks its name, it and the statement behind it lack an
operand in the same place, where a lexeme is then left out, and at the end there is a name too
many. -/
theorem faults_of_missing_recovered :
    ∃ last noted, (Lexeme.ofText "# { let = ) 1 } x").getLast? = some last ∧
      (ofText "# { let = ) 1 } x").diagnostics = ⟨⟨0, 1⟩, .badCharacter '#'⟩ :: noted ∧
      noted.map (fun d => d.span.start) = [8, 10, 10, 16] ∧
      (∀ d ∈ noted, d.fault.kind ≠ .nestingTooDeep) ∧
      List.Forall₂ Diagnostic.Misses noted
        (gaps last.token (ofText "# { let = ) 1 } x").tree.tokens) := by
  obtain ⟨last, noted, hlast, hdiagnostics, -, hmisses, -⟩ := faults_of_missing "# { let = ) 1 } x"
  have hlexical : Lexeme.diagnostics (Lexeme.ofText "# { let = ) 1 } x") =
      [⟨⟨0, 1⟩, .badCharacter '#'⟩] := by decide +kernel
  have hall : (ofText "# { let = ) 1 } x").diagnostics =
      [⟨⟨0, 1⟩, .badCharacter '#'⟩,
        ⟨⟨8, 1⟩, .unexpectedToken "EqualsToken" "Identifier"⟩,
        ⟨⟨10, 1⟩, .unexpectedToken "CloseParenToken" "Identifier"⟩,
        ⟨⟨10, 1⟩, .unexpectedToken "CloseParenToken" "Identifier"⟩,
        ⟨⟨16, 1⟩, .unexpectedToken "Identifier" "EndOfFileToken"⟩] := by decide +kernel
  rw [hlexical, List.singleton_append] at hdiagnostics
  obtain ⟨-, hnoted⟩ := List.cons.inj (hall.symm.trans hdiagnostics)
  subst hnoted
  exact ⟨last, _, hlast, hdiagnostics, rfl, by decide, hmisses (by decide)⟩

end Fragment

end ScalarScript
