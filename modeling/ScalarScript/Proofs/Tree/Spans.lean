import ScalarScript.Proofs.Token.Lossless
import ScalarScript.Proofs.Tree.Course
import ScalarScript.Proofs.Tree.Fidelity
import ScalarScript.Proofs.Tree.Nodes

/-!
Where the nodes of a tree lie. Reading never goes back in the text, so the parts of a node come one
after another, and the first and the last of them enclose the others: the missing ones too, which
lie where the next lexeme starts.
-/

set_option autoImplicit false

namespace ScalarScript

namespace Span

variable {s t : Span} {text : String}

def Covers (s t : Span) : Prop := s.start ≤ t.start ∧ t.stop ≤ s.stop

theorem start_le_stop (s : Span) : s.start ≤ s.stop := Nat.le_add_right _ _

theorem union_self (s : Span) : s.union s = s := by
  simp [union, between, stop]

theorem fitsIn_union (hs : s.FitsIn text) (ht : t.FitsIn text) : (s.union t).FitsIn text := by
  rw [FitsIn, start_union, stop_union]
  constructor
  · rcases Nat.le_total s.start t.start with h | h
    · rw [Nat.min_eq_left h]
      exact hs.1
    · rw [Nat.min_eq_right h]
      exact ht.1
  · rcases Nat.le_total s.stop t.stop with h | h
    · rw [Nat.max_eq_right h]
      exact ht.2
    · rw [Nat.max_eq_left h]
      exact hs.2

theorem fitsIn_emptyAt (hs : s.FitsIn text) : (emptyAt s.start).FitsIn text := ⟨hs.1, hs.1⟩

theorem slice_of_length_eq_zero (h : s.length = 0) : s.slice text = "" := by
  simp [slice, stop, h, String.Pos.Raw.extract]

end Span

/-- What the text has where the token lies is the text of the token, which is nothing if the token
is missing. -/
structure Token.LiesIn (t : Token) (text : String) : Prop where
  fits : t.span.FitsIn text
  slice : t.span.slice text = t.text
  blank : t.isMissing = true → t.span.isEmpty = true

theorem Lexeme.token_lies_in {text : String} {l : Lexeme} (hl : l ∈ ofText text) :
    l.token.LiesIn text := by
  obtain ⟨hfits, hslice⟩ := (ofText_lossless text).2.slices l hl
  obtain ⟨before, after, -, hspan⟩ := standsIn hl
  refine ⟨hfits, hslice, fun hmissing => ?_⟩
  have htext : l.token.text = "" := String.isEmpty_iff.mp hmissing
  simp [Span.isEmpty, hspan, htext, Text.byteLength]

/-- What holds of a cursor all along: the tokens still to be read lie in the text, one after
another, and what was noted of their order lies in it as well. -/
structure Cursor.LiesIn (c : Cursor) (text : String) : Prop where
  sound : c.Sound
  tokens : ∀ t ∈ c.words, t.LiesIn text
  ordered : c.words.Pairwise fun t u => t.span.stop ≤ u.span.start
  noted : ∀ d ∈ c.diagnostics, d.span.FitsIn text ∧ d.fault.kind.isSyntactic = true

namespace Cursor

variable {c c' : Cursor} {text : String}

theorem exists_words_eq (c : Cursor) : ∃ ts, c.words = c.current.token :: ts := by
  unfold words current peek
  cases c.ahead with
  | nil => exact ⟨[], rfl⟩
  | cons l ls => exact ⟨ls.map Lexeme.token ++ [c.endOfFile.token], rfl⟩

theorem current_mem_words (c : Cursor) : c.current.token ∈ c.words := by
  obtain ⟨ts, h⟩ := c.exists_words_eq
  simp [h]

theorem Step.words_suffix (h : Step c c') : c'.words <:+ c.words := by
  cases h with
  | advance =>
    refine ⟨(c.ahead.take 1).map Lexeme.token, ?_⟩
    rw [words, words, Cursor.advance, ← List.append_assoc, ← List.map_append, List.take_append_drop]
  | lacking kind =>
    rw [Cursor.lacking]
    split <;> exact List.suffix_rfl
  | giveUp =>
    rw [Cursor.giveUp]
    split
    · exact List.suffix_rfl
    · exact ⟨c.ahead.map Lexeme.token, rfl⟩

theorem Steps.words_suffix (h : Steps c c') : c'.words <:+ c.words := by
  induction h with
  | refl => exact List.suffix_rfl
  | tail _ h ih => exact h.words_suffix.trans ih

theorem start_lacking (c : Cursor) (kind : TokenKind) : (c.lacking kind).start = c.start := by
  rw [lacking]
  split <;> rfl

theorem Step.sound (h : Step c c') (hc : c.Sound) : c'.Sound := by
  cases h with
  | advance => exact hc.advance
  | lacking kind =>
    rw [Cursor.lacking]
    split
    · exact hc
    · exact hc.report _
  | giveUp => exact (Reader.reads_abandon hc nestingLimit).sound

theorem Step.diagnostics (h : Step c c') :
    c'.diagnostics = c.diagnostics ∨
      ∃ fault : Fault, fault.kind.isSyntactic = true ∧
        c'.diagnostics = c.diagnostics ++ [⟨c.current.token.span, fault⟩] := by
  cases h with
  | advance => exact .inl rfl
  | lacking kind =>
    rw [Cursor.lacking]
    split
    · exact .inl rfl
    · exact .inr ⟨_, rfl, rfl⟩
  | giveUp =>
    rw [Cursor.giveUp]
    split
    · exact .inl rfl
    · exact .inr ⟨_, rfl, rfl⟩

namespace LiesIn

theorem step (hc : c.LiesIn text) (h : Step c c') : c'.LiesIn text where
  sound := h.sound hc.sound
  tokens t ht := hc.tokens t (h.words_suffix.subset ht)
  ordered := hc.ordered.sublist h.words_suffix.sublist
  noted d hd := by
    rcases h.diagnostics with hsame | ⟨fault, hfault, hmore⟩
    · exact hc.noted d (hsame ▸ hd)
    · rw [hmore] at hd
      rcases List.mem_append.mp hd with hd | hd
      · exact hc.noted d hd
      · obtain rfl := List.mem_singleton.mp hd
        exact ⟨(hc.tokens _ c.current_mem_words).fits, hfault⟩

theorem steps (hc : c.LiesIn text) (h : Steps c c') : c'.LiesIn text :=
  h.keeps (P := fun c => c.LiesIn text) (fun _ _ h hc => hc.step h) hc

theorem advance (hc : c.LiesIn text) : c.advance.LiesIn text := hc.step (.advance c)

theorem current (hc : c.LiesIn text) : c.current.token.LiesIn text :=
  hc.tokens _ c.current_mem_words

theorem start_le (hc : c.LiesIn text) (h : Steps c c') : c.start ≤ c'.start := by
  obtain ⟨ts, hts⟩ := h.words_suffix
  obtain ⟨us, hus⟩ := c.exists_words_eq
  obtain ⟨vs, hvs⟩ := c'.exists_words_eq
  cases ts with
  | nil =>
    rw [List.nil_append, hus, hvs] at hts
    rw [start, start, (List.cons.inj hts).1]
  | cons t ts =>
    have hord := hc.ordered
    rw [← hts, hvs, List.cons_append, List.pairwise_cons] at hord
    rw [hus, List.cons_append] at hts
    have hstop := hord.1 c'.current.token (by simp)
    rw [(List.cons.inj hts).1] at hstop
    exact (Span.start_le_stop _).trans hstop

theorem stop_le (hc : c.LiesIn text) (h : c.kind ≠ .endOfFile) :
    c.current.token.span.stop ≤ c.advance.start := by
  obtain ⟨ls, hahead, hrest⟩ := c.ahead_of_kind hc.sound h
  have hwords : c.words = c.current.token :: c.advance.words := by
    rw [words, words, hahead, hrest]
    rfl
  have hord := hc.ordered
  rw [hwords, List.pairwise_cons] at hord
  exact hord.1 _ c.advance.current_mem_words

theorem isMissing_current (hc : c.LiesIn text) (h : c.kind ≠ .endOfFile) :
    c.current.token.isMissing = false := by
  obtain ⟨ls, hahead, -⟩ := c.ahead_of_kind hc.sound h
  exact (hc.sound.ahead _ (hahead ▸ List.mem_cons_self)).1

theorem ofText (text : String) : (ofLexemes (Lexeme.ofText text)).LiesIn text where
  sound := sound_ofText text
  tokens t ht := by
    rw [← Lexeme.words_eq, Lexeme.words] at ht
    obtain ⟨l, hl, rfl⟩ := List.mem_map.mp ht
    exact Lexeme.token_lies_in (List.mem_filter.mp hl).1
  ordered := by
    rw [← Lexeme.words_eq]
    have htrans : IsTrans Lexeme fun l m => l.token.span.stop ≤ m.token.span.start :=
      ⟨fun l m k h h' => h.trans ((Span.start_le_stop _).trans h')⟩
    have hchain := (Lexeme.ofText_lossless text).2.contiguous.imp fun l m h => Nat.le_of_eq h
    exact List.pairwise_map.mpr (hchain.pairwise.filter _)
  noted d hd := absurd hd List.not_mem_nil

end LiesIn

end Cursor

namespace Expression

/-- The tokens that an expression, other than a name, is told by; none of them is ever missing. -/
def heads : Expression → List Token
  | .literal token _ => [token]
  | .name _ => []
  | .unary operator _ => [operator]
  | .binary _ operator _ => [operator]
  | .parenthesized openParen _ _ => [openParen]
  | .assignment identifier equals _ => [identifier, equals]
  | .call identifier openParen _ _ => [identifier, openParen]

end Expression

namespace Node

variable {text : String} {first last middle : Nat} {n : Node} {ns ms : List Node}

/-- The node lies in the text and has its parts in it, one after another; if it is a token, the text
has there what the token has. -/
structure Nests (text : String) (n : Node) : Prop where
  fits : n.span.FitsIn text
  covers : ∀ p ∈ n.parts, n.span.Covers p.span
  ordered : n.parts.Pairwise fun p q => p.span.stop ≤ q.span.start
  slice : ∀ t, n = .token t → t.span.slice text = t.text

/-- What an expression is told by is there; what is missing takes up nothing of the text. -/
def Firm : Node → Prop
  | .token t => t.isMissing = true → t.span.isEmpty = true
  | .expression e => Present e.heads
  | _ => True

/-- The node lies between two places of the text, and all is well with it and all below it. -/
structure Placed (text : String) (first : Nat) (n : Node) (last : Nat) : Prop where
  start : first ≤ n.span.start
  stop : n.span.stop ≤ last
  all : n.All fun m => m.Nests text ∧ m.Firm

inductive PlacedAll (text : String) : Nat → List Node → Nat → Prop where
  | nil {first last : Nat} (h : first ≤ last) : PlacedAll text first [] last
  | cons {first middle last : Nat} {n : Node} {ns : List Node} (h : n.Placed text first middle)
    (hrest : PlacedAll text middle ns last) : PlacedAll text first (n :: ns) last

namespace PlacedAll

theorem single (h : n.Placed text first last) : PlacedAll text first [n] last :=
  .cons h (.nil (Nat.le_refl _))

theorem append (h : PlacedAll text first ns middle) (h' : PlacedAll text middle ms last) :
    PlacedAll text first (ns ++ ms) last := by
  induction h with
  | nil hle =>
    cases h' with
    | nil hle' => exact .nil (hle.trans hle')
    | cons hn hrest => exact .cons ⟨hle.trans hn.start, hn.stop, hn.all⟩ hrest
  | cons hn _ ih => exact .cons hn (ih h')

theorem behind (h : PlacedAll text middle ns last) (hle : first ≤ middle) :
    PlacedAll text first ns last := (nil hle).append h

theorem bounds (h : PlacedAll text first ns last) :
    first ≤ last ∧ ∀ n ∈ ns, first ≤ n.span.start ∧ n.span.stop ≤ last := by
  induction h with
  | nil hle => exact ⟨hle, by simp⟩
  | @cons first middle last n ns hn hrest ih =>
    have hmiddle : first ≤ middle := hn.start.trans ((Span.start_le_stop _).trans hn.stop)
    refine ⟨hmiddle.trans ih.1, List.forall_mem_cons.mpr ⟨⟨hn.start, hn.stop.trans ih.1⟩, ?_⟩⟩
    intro m hm
    exact ⟨hmiddle.trans (ih.2 m hm).1, (ih.2 m hm).2⟩

theorem all (h : PlacedAll text first ns last) :
    ∀ n ∈ ns, n.All fun m => m.Nests text ∧ m.Firm := by
  induction h with
  | nil => simp
  | cons hn _ ih => exact List.forall_mem_cons.mpr ⟨hn.all, ih⟩

theorem pairwise (h : PlacedAll text first ns last) :
    ns.Pairwise fun p q => p.span.stop ≤ q.span.start := by
  induction h with
  | nil => exact .nil
  | cons hn hrest ih =>
    exact .cons (fun m hm => hn.stop.trans (hrest.bounds.2 m hm).1) ih

theorem head_le (h : PlacedAll text first ns last) {a : Node} (ha : ns.head? = some a) :
    ∀ p ∈ ns, a.span.start ≤ p.span.start := by
  cases h with
  | nil => cases ha
  | cons hn hrest =>
    cases ha
    refine List.forall_mem_cons.mpr ⟨Nat.le_refl _, fun p hp => ?_⟩
    exact (Span.start_le_stop _).trans (hn.stop.trans (hrest.bounds.2 p hp).1)

theorem le_getLast (h : PlacedAll text first ns last) {b : Node} (hb : ns.getLast? = some b) :
    ∀ p ∈ ns, p.span.stop ≤ b.span.stop := by
  induction h with
  | nil => cases hb
  | @cons first middle last n ns hn hrest ih =>
    cases ns with
    | nil =>
      obtain rfl : n = b := by simpa using hb
      simp
    | cons m ms =>
      rw [List.getLast?_cons_cons] at hb
      refine List.forall_mem_cons.mpr ⟨?_, ih hb⟩
      have hlast := (hrest.bounds.2 b (List.mem_of_getLast? hb)).1
      exact hn.stop.trans (hlast.trans (Span.start_le_stop _))

end PlacedAll

namespace Placed

/-- A node whose span runs over its first and its last part lies where its parts do. -/
theorem of_parts (h : PlacedAll text first n.parts last) {a b : Node}
    (ha : n.parts.head? = some a) (hb : n.parts.getLast? = some b)
    (hspan : n.span = a.span.union b.span) (hfirm : n.Firm) : n.Placed text first last := by
  have hmema := List.mem_of_mem_head? ha
  have hmemb := List.mem_of_getLast? hb
  have hstart : n.span.start = a.span.start := by
    rw [hspan, Span.start_union, Nat.min_eq_left (h.head_le ha b hmemb)]
  have hstop : n.span.stop = b.span.stop := by
    rw [hspan, Span.stop_union, Nat.max_eq_right (h.le_getLast hb a hmema)]
  have hnests : n.Nests text := by
    refine ⟨?_, fun p hp => ⟨hstart ▸ h.head_le ha p hp, hstop ▸ h.le_getLast hb p hp⟩, h.pairwise,
      ?_⟩
    · rw [hspan]
      exact Span.fitsIn_union (h.all a hmema).here.1.fits (h.all b hmemb).here.1.fits
    · rintro t rfl
      cases ha
  refine ⟨?_, ?_, .of_parts ⟨hnests, hfirm⟩ h.all⟩
  · rw [hstart]
    exact (h.bounds.2 a hmema).1
  · rw [hstop]
    exact (h.bounds.2 b hmemb).2

theorem of_part {p : Node} (h : p.Placed text first last) (hparts : n.parts = [p])
    (hspan : n.span = p.span) (hfirm : n.Firm) : n.Placed text first last := by
  have hall : PlacedAll text first n.parts last := hparts ▸ .single h
  refine of_parts hall (a := p) (b := p) ?_ ?_ ?_ hfirm
  · rw [hparts, List.head?_cons]
  · rw [hparts, List.getLast?_singleton]
  · rw [hspan, Span.union_self]

theorem before (h : n.Placed text first middle) (hle : middle ≤ last) :
    n.Placed text first last := ⟨h.start, h.stop.trans hle, h.all⟩

theorem token {t : Token} (h : t.LiesIn text) (hstart : first ≤ t.span.start)
    (hstop : t.span.stop ≤ last) : (token t).Placed text first last := by
  refine ⟨hstart, hstop, all_token ⟨⟨h.fits, by simp [parts], by simp [parts], ?_⟩, h.blank⟩⟩
  rintro _ ⟨⟩
  exact h.slice

end Placed

end Node

open Node

theorem Cursor.LiesIn.missing {c : Cursor} {text : String} (hc : c.LiesIn text) (kind : TokenKind) :
    (Token.missing kind c.start).LiesIn text where
  fits := Span.fitsIn_emptyAt hc.current.fits
  slice := Span.slice_of_length_eq_zero rfl
  blank _ := rfl

section Courses

variable {text : String} {c c' : Cursor}

theorem Cursor.LiesIn.placed_current (hc : c.LiesIn text) (h : c.kind ≠ .endOfFile) :
    (Node.token c.current.token).Placed text c.start c.advance.start :=
  .token hc.current (Nat.le_refl _) (hc.stop_le h)

theorem Token.Expected.placed {kind : TokenKind} {t : Token} (hkind : kind ≠ .endOfFile)
    (hc : c.LiesIn text) : t.Expected kind c c' → (Node.token t).Placed text c.start c'.start
  | .found h => hc.placed_current (h ▸ hkind)
  | .missing _ => .token (hc.missing kind) (Nat.le_refl _) (c.start_lacking kind).ge

theorem Cursor.LiesIn.placed_nothing (hc : c.LiesIn text) :
    (Node.expression c.nothing).Placed text c.start c.giveUp.start := by
  have hgiveUp := hc.steps (steps_giveUp c)
  have htoken := Node.Placed.token (hgiveUp.missing .identifier) (hc.start_le (steps_giveUp c))
    (Nat.le_refl _)
  exact .of_part htoken rfl rfl (by simp [Firm, nothing, Expression.heads])

/-- Where the expression lies that the passage reads. The operators after an expression that was
read before go on from where that lies. -/
def Passage.Places (text : String) (c : Cursor) (e : Expression) (c' : Cursor) : Passage → Prop
  | .chain _ left => ∀ first, (Node.expression left).Placed text first c.start →
    (Node.expression e).Placed text first c'.start
  | _ => (Node.expression e).Placed text c.start c'.start

theorem Grammar.ne_endOfFile_of_operatorAbove? {least p : Precedence} {kind : TokenKind}
    (h : operatorAbove? least kind = some p) : kind ≠ .endOfFile := by
  rintro rfl
  simp [operatorAbove?_endOfFile] at h

theorem TokenKind.ne_endOfFile_of_unaryPrecedence? {p : Precedence} {kind : TokenKind}
    (h : kind.unaryPrecedence? = some p) : kind ≠ .endOfFile := by
  rintro rfl
  simp [unaryPrecedence?] at h

mutual

theorem Expression.Read.places {p : Passage} {e : Expression} {c c' : Cursor} :
    e.Read p c c' → c.LiesIn text → p.Places text c e c'
  | .tooDeep c h, hc => by
    rcases h with rfl | rfl
    · exact hc.placed_nothing
    · exact hc.placed_nothing
  | .assignment hidentifier hequals h, hc => by
    have hi : c.kind ≠ .endOfFile := by simp [hidentifier]
    have hq : c.advance.kind ≠ .endOfFile := by simp [hequals]
    have hsource := h.places hc.advance.advance
    refine .of_parts (.cons (hc.placed_current hi)
      (.cons (hc.advance.placed_current hq) (.single hsource))) rfl rfl rfl ?_
    simp [Firm, heads, hc.isMissing_current hi, hc.advance.isMissing_current hq]
  | .expression h, hc => h.places hc
  | .operation hleft h, hc => h.places (hc.steps hleft.steps) _ (hleft.places hc)
  | .done _, _ => fun _ hleft => hleft
  | .cut left c, hc => fun _ hleft => hleft.before (hc.start_le c.steps_giveUp)
  | .more hp hright h, hc => by
    intro first hleft
    have hk := Grammar.ne_endOfFile_of_operatorAbove? hp
    have hplaced := hright.places hc.advance
    refine h.places (hc.advance.steps hright.steps) first (.of_parts (.cons hleft
      (.cons (hc.placed_current hk) (.single hplaced))) rfl rfl rfl ?_)
    simp [Firm, heads, hc.isMissing_current hk]
  | .unary hp h, hc => by
    have hk := TokenKind.ne_endOfFile_of_unaryPrecedence? hp
    refine .of_parts (.cons (hc.placed_current hk) (.single (h.places hc.advance))) rfl rfl rfl ?_
    simp [Firm, heads, hc.isMissing_current hk]
  | .primary h, hc => h.places hc
  | .parenthesized hopen h hclose, hc => by
    have hk : c.kind ≠ .endOfFile := by simp [hopen]
    have hinner := h.places hc.advance
    have hlast := hclose.placed (by decide) (hc.advance.steps h.steps)
    refine .of_parts (.cons (hc.placed_current hk) (.cons hinner (.single hlast))) rfl rfl rfl ?_
    simp [Firm, heads, hc.isMissing_current hk]
  | .literal h value, hc =>
    .of_part (hc.placed_current h) rfl rfl (by simp [Firm, heads, hc.isMissing_current h])
  | .call hidentifier hopen h hclose, hc => by
    have hi : c.kind ≠ .endOfFile := by simp [hidentifier]
    have ho : c.advance.kind ≠ .endOfFile := by simp [hopen]
    have harguments := h.placed hc.advance.advance
    have hlast := hclose.placed (by decide) (hc.advance.advance.steps h.steps)
    refine .of_parts (.cons (hc.placed_current hi) (.cons (hc.advance.placed_current ho)
      (harguments.append (.single hlast)))) rfl List.getLast?_concat rfl ?_
    simp [Firm, heads, hc.isMissing_current hi, hc.advance.isMissing_current ho]
  | .name h, hc => .of_part (h.placed (by decide) hc) rfl rfl (by simp [Firm, heads])

theorem Expression.ReadAll.placed {es : List Expression} {c c' : Cursor} :
    ReadAll c es c' → c.LiesIn text → PlacedAll text c.start (es.map Node.expression) c'.start
  | .nil _, _ => .nil (Nat.le_refl _)
  | .last h, hc => .single (h.places hc)
  | .cons h _ hrest, hc => by
    have hc' := hc.steps h.steps
    have hcomma := hc'.start_le (Cursor.steps_advance _)
    exact .cons (h.places hc) ((hrest.placed hc'.advance).behind hcomma)

end

theorem TypeClause.Read.placed {clause : Option TypeClause} (hc : c.LiesIn text) :
    Read c clause c' → PlacedAll text c.start (clause.toList.map Node.typeClause) c'.start
  | .none => .nil (Nat.le_refl _)
  | .some hcolon h => by
    have hk : c.kind ≠ .endOfFile := by simp [hcolon]
    have hidentifier := h.placed (by decide) hc.advance
    refine .single (.of_parts (.cons (hc.placed_current hk) (.single hidentifier)) rfl rfl rfl ?_)
    trivial

mutual

theorem Statement.Read.placed {s : Statement} {c c' : Cursor} :
    s.Read c c' → c.LiesIn text → (Node.statement s).Placed text c.start c'.start
  | .block hopen h hclose, hc => by
    have hk : c.kind ≠ .endOfFile := by simp [hopen]
    have hstatements := h.placed hc.advance
    have hlast := hclose.placed (by decide) (hc.advance.steps h.steps)
    exact .of_parts (.cons (hc.placed_current hk) (hstatements.append (.single hlast))) rfl
      List.getLast?_concat rfl trivial
  | .declaration hkeyword hidentifier hclause hequals h, hc => by
    have hk : c.kind ≠ .endOfFile := by rcases hkeyword with hk | hk <;> simp [hk]
    have hc₁ := hc.advance.steps hidentifier.steps
    have hc₂ := hc₁.steps hclause.steps
    have hc₃ := hc₂.steps hequals.steps
    have hi := hidentifier.placed (by decide) hc.advance
    have hq := hequals.placed (by decide) hc₂
    exact .of_parts (.cons (hc.placed_current hk) (.cons hi ((hclause.placed hc₁).append
      (.cons hq (.single (h.places hc₃)))))) rfl
      (List.getLast?_append_of_ne_nil _ (List.cons_ne_nil _ _)) rfl trivial
  | .ifThen hif hcondition hthen, hc => by
    have hk : c.kind ≠ .endOfFile := by simp [hif]
    have hbranch := hthen.placed (hc.advance.steps hcondition.steps)
    exact .of_parts (.cons (hc.placed_current hk)
      (.cons (hcondition.places hc.advance) (.single hbranch))) rfl rfl rfl trivial
  | .ifThenElse hif hcondition hthen helse hother, hc => by
    have hk : c.kind ≠ .endOfFile := by simp [hif]
    have hc₁ := hc.advance.steps hcondition.steps
    have hc₂ := hc₁.steps hthen.steps
    have hkeyword := hc₂.placed_current (by simp [helse])
    have hclause := Placed.of_parts (n := .elseClause _ _)
      (.cons hkeyword (.single (hother.placed hc₂.advance))) rfl rfl rfl trivial
    exact .of_parts (.cons (hc.placed_current hk) (.cons (hcondition.places hc.advance)
      (.cons (hthen.placed hc₁) (.single hclause)))) rfl rfl rfl trivial
  | .whileLoop hwhile hcondition hbody, hc => by
    have hk : c.kind ≠ .endOfFile := by simp [hwhile]
    have hloop := hbody.placed (hc.advance.steps hcondition.steps)
    exact .of_parts (.cons (hc.placed_current hk)
      (.cons (hcondition.places hc.advance) (.single hloop))) rfl rfl rfl trivial
  | .forLoop hfor hidentifier hequals hlower hto hupper hbody, hc => by
    have hk : c.kind ≠ .endOfFile := by simp [hfor]
    have hc₁ := hc.advance.steps hidentifier.steps
    have hc₂ := hc₁.steps hequals.steps
    have hc₃ := hc₂.steps hlower.steps
    have hc₄ := hc₃.steps hto.steps
    have hc₅ := hc₄.steps hupper.steps
    have hrange := PlacedAll.cons (hlower.places hc₂) (.cons (hto.placed (by decide) hc₃)
      (.cons (hupper.places hc₄) (.single (hbody.placed hc₅))))
    exact .of_parts (.cons (hc.placed_current hk) (.cons (hidentifier.placed (by decide) hc.advance)
      (.cons (hequals.placed (by decide) hc₁) hrange))) rfl rfl rfl trivial
  | .expression h, hc => .of_part (h.places hc) rfl rfl trivial

theorem Statement.ReadAll.placed {ss : List Statement} {c c' : Cursor} :
    ReadAll c ss c' → c.LiesIn text → PlacedAll text c.start (ss.map Node.statement) c'.start
  | .nil _, _ => .nil (Nat.le_refl _)
  | .cons h hrest, hc => .cons (h.placed hc) (hrest.placed (hc.steps h.steps))
  | .skip h hrest, hc => by
    have hc' := hc.steps h.steps
    have hskipped := hc'.start_le (Cursor.steps_advance _)
    exact .cons (h.placed hc) ((hrest.placed hc'.advance).behind hskipped)

end

theorem Tree.Read.all_nests {tree : Tree} (hc : c.LiesIn text) (h : tree.Read c c') :
    (Node.tree tree).All fun m => m.Nests text ∧ m.Firm := by
  cases h with
  | @whole statement endOfFile c' c'' h hend =>
    have hstatement := h.placed hc
    have hc' := hc.steps h.steps
    obtain ⟨hlies, hstart⟩ : endOfFile.LiesIn text ∧ endOfFile.span.start = c'.start := by
      cases hend with
      | found _ => exact ⟨hc'.current, rfl⟩
      | missing _ => exact ⟨hc'.missing .endOfFile, rfl⟩
    have hparts : PlacedAll text c.start (Node.tree ⟨statement, endOfFile⟩).parts
        endOfFile.span.stop :=
      .cons hstatement (.single (.token hlies hstart.ge (Nat.le_refl _)))
    have hstop : (Node.tree ⟨statement, endOfFile⟩).span.stop = endOfFile.span.stop :=
      Span.stop_between (Nat.zero_le _)
    refine .of_parts ⟨⟨⟨?_, ?_⟩, fun p hp => ⟨Nat.zero_le _, ?_⟩, hparts.pairwise, nofun⟩, trivial⟩
      hparts.all
    · exact String.Pos.Raw.isValid_zero
    · rw [hstop]
      exact hlies.fits.2
    · rw [hstop]
      exact (hparts.bounds.2 p hp).2

end Courses

namespace Fragment

theorem all_nests (text : String) :
    (Node.tree (ofText text).tree).All fun m => m.Nests text ∧ m.Firm := by
  obtain ⟨c, h, -⟩ := exists_read text
  exact h.all_nests (.ofText text)

/-- In the tree of any text, every node covers its parts, which lie one after another in it without
going back, and every token, a missing one too, has the text that stands where it lies. -/
theorem spans_nest (text : String) :
    (∀ n, (Node.tree (ofText text).tree).Contains n → n.Nests text) ∧
      ∀ t ∈ (ofText text).tree.tokens, t.span.slice text = t.text := by
  have hall := all_nests text
  refine ⟨fun n hn => (hall n hn).1, fun t ht => ?_⟩
  exact (hall _ (Tree.contains_token ht)).1.slice t rfl

end Fragment

end ScalarScript
