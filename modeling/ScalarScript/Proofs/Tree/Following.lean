import ScalarScript.Proofs.Tree.Course
import ScalarScript.Proofs.Tree.Parser

/-!
What it is that reading with a position follows reading with a cursor. A parser stands where a
cursor is if the lexemes ahead of the cursor are those behind the parser's position. What looks at
tokens, takes them or counts levels takes the parser on to where the reader leaves the cursor, and
so does what is made of such steps.
-/

set_option autoImplicit false

namespace ScalarScript

def Event.Fine (count : Nat) : Event → Prop
  | .moves position depth => position ≤ count ∧ depth ≤ nestingLimit
  | .peeks index => index < count
  | .returns entered left => left = entered
  | .round before after last => before < after ∨ last = true

structure Parser.Stands (tokens : List Lexeme) (depth : Nat) (p : Parser) (c : Cursor) : Prop where
  tokens_eq : p.tokens = tokens
  position : p.position ≤ tokens.length
  ahead : tokens.dropLast.drop p.position = c.ahead
  last : tokens.getLast? = some c.endOfFile
  ends : c.endOfFile.token.kind = .endOfFile
  depth_eq : p.depth = depth
  limit : depth ≤ nestingLimit
  abandoned : p.abandoned = c.abandoned
  diagnostics : p.diagnostics = c.diagnostics
  fine : ∀ e ∈ p.events, e.Fine tokens.length

variable {tokens : List Lexeme} {depth k : Nat} {p p' : Parser} {c c' : Cursor} {e : Event}

namespace Parser.Stands

theorem length_pos (h : p.Stands tokens depth c) : 0 < tokens.length :=
  List.length_pos_of_mem (List.mem_of_getLast? h.last)

theorem length_ahead (h : p.Stands tokens depth c) :
    c.ahead.length = tokens.length - 1 - p.position := by
  rw [← h.ahead, List.length_drop, List.length_dropLast]

theorem peek (h : p.Stands tokens depth c) (k : Nat) :
    tokens[min (p.position + k) (tokens.length - 1)]? = some (c.peek k) := by
  have hpos := h.length_pos
  rw [Cursor.peek, ← h.ahead, List.getElem?_drop]
  by_cases hk : p.position + k < tokens.length - 1
  · rw [Nat.min_eq_left (Nat.le_of_lt hk), List.getElem?_dropLast, if_pos hk,
      List.getElem?_eq_getElem (by omega), Option.getD_some]
  · rw [Nat.min_eq_right (by omega), ← List.getLast?_eq_getElem?, h.last,
      List.getElem?_eq_none (by rw [List.length_dropLast]; omega), Option.getD_none]

theorem lt_of_kind (h : p.Stands tokens depth c) (hk : c.kind ≠ .endOfFile) :
    p.position < tokens.length - 1 := by
  by_contra hge
  have hnil : c.ahead = [] := List.length_eq_zero_iff.mp (by rw [h.length_ahead]; omega)
  exact hk (by rw [Cursor.kind, Cursor.current, Cursor.peek, hnil]; exact h.ends)

theorem length_ahead_le (h : p.Stands tokens depth c) : c.ahead.length ≤ tokens.length := by
  rw [h.length_ahead]
  omega

theorem length_pos_of_kind (h : p.Stands tokens depth c) (hk : c.kind ≠ .endOfFile) :
    0 < c.ahead.length := by
  have hlt := h.lt_of_kind hk
  rw [h.length_ahead]
  omega

theorem kind_of_length (h : p.Stands tokens depth c) (hlength : c.ahead.length ≤ 0) :
    c.kind = .endOfFile := by
  by_contra hk
  exact Nat.not_le_of_lt (h.length_pos_of_kind hk) hlength

theorem length_advance_lt (h : p.Stands tokens depth c) (hk : c.kind ≠ .endOfFile) :
    c.advance.ahead.length < c.ahead.length := by
  have hpos := h.length_pos_of_kind hk
  rw [Cursor.advance, List.length_drop]
  exact Nat.sub_lt hpos Nat.one_pos

theorem position_lt {depth' : Nat} (h : p.Stands tokens depth c) (hk : c.kind ≠ .endOfFile)
    (h' : p'.Stands tokens depth' c') (hless : c'.ahead.length < c.ahead.length) :
    p.position < p'.position := by
  have hlt := h.lt_of_kind hk
  rw [h.length_ahead, h'.length_ahead] at hless
  omega

theorem noted (h : p.Stands tokens depth c) (he : e.Fine tokens.length) :
    ({ p with events := p.events ++ [e] } : Parser).Stands tokens depth c :=
  { h with fine := List.forall_mem_append.mpr ⟨h.fine, List.forall_mem_singleton.mpr he⟩ }

theorem reported (h : p.Stands tokens depth c) (d : Diagnostic) :
    ({ p with diagnostics := p.diagnostics ++ [d] } : Parser).Stands tokens depth (c.report d) :=
  { h with diagnostics := congrArg (· ++ [d]) h.diagnostics }

theorem advanced (h : p.Stands tokens depth c) :
    (if p.position < p.tokens.length then p.moved (p.position + 1) p.depth else p).Stands tokens
      depth c.advance := by
  have hahead : tokens.dropLast.drop (p.position + 1) = c.advance.ahead := by
    rw [Cursor.advance, ← h.ahead, List.drop_drop]
  split
  · rename_i hlt
    rw [h.tokens_eq] at hlt
    have hmoved : (Event.moves (p.position + 1) p.depth).Fine tokens.length :=
      ⟨hlt, h.depth_eq ▸ h.limit⟩
    exact { h.noted hmoved with position := hlt, ahead := hahead }
  · rename_i hge
    rw [h.tokens_eq] at hge
    refine { h with ahead := ?_ }
    have hlength : tokens.dropLast.length ≤ p.position := by
      rw [List.length_dropLast]
      omega
    rw [← hahead, List.drop_eq_nil_of_le hlength, List.drop_eq_nil_of_le (by omega)]

theorem at_depth (h : p.Stands tokens depth c) {other : Nat} (hother : other ≤ nestingLimit) :
    (p.moved p.position other).Stands tokens other c :=
  { h with
    depth_eq := rfl
    limit := hother
    fine := (h.noted ⟨h.position, hother⟩ :
      Stands tokens depth { p with events := p.events ++ [.moves p.position other] } c).fine }

theorem abandon (h : p.Stands tokens depth c) :
    ({ p.moved (p.tokens.length - 1) p.depth with abandoned := true } : Parser).Stands tokens depth
      { c with ahead := [], abandoned := true } := by
  obtain rfl := h.tokens_eq
  have hposition : p.tokens.length - 1 ≤ p.tokens.length := Nat.sub_le _ 1
  have hmoved : (Event.moves (p.tokens.length - 1) p.depth).Fine p.tokens.length :=
    ⟨hposition, h.depth_eq ▸ h.limit⟩
  have hnil : p.tokens.dropLast.drop (p.tokens.length - 1) = [] :=
    List.drop_eq_nil_of_le (Nat.le_of_eq List.length_dropLast)
  exact { h.noted hmoved with position := hposition, ahead := hnil, abandoned := rfl }

end Parser.Stands

namespace Parsing

variable {α β : Type} {Q R : Parser → Cursor → Prop}

/-- From `p` on the parser gives what the reader gives from `c` on, and then they are so. -/
def Follows (x : Parsing α) (p : Parser) (r : Reader α) (c : Cursor)
    (Q : Parser → Cursor → Prop) : Prop :=
  ∃ p', x.run p = .ok ((r.run c).1, p') ∧ Q p' (r.run c).2

section Follows

variable {x : Parsing α} {f : α → Parsing β} {r : Reader α} {g : α → Reader β} {s : Reader β}
  {a : α}

theorem follows_pure (a : α) (h : Q p c) : Follows (pure a) p (pure a) c Q := ⟨p, rfl, h⟩

theorem run_bind (h : x.run p = .ok (a, p')) : (x >>= f).run p = (f a).run p' := by
  rw [StateT.run_bind, h]
  rfl

theorem Follows.bind (hx : Follows x p r c Q)
    (hf : ∀ a p' c', Q p' c' → Follows (f a) p' (g a) c' R) :
    Follows (x >>= f) p (r >>= g) c R := by
  obtain ⟨p', hrun, hQ⟩ := hx
  rw [Follows, run_bind hrun]
  exact hf _ _ _ hQ

theorem Follows.and {S : Cursor → Prop} (hx : Follows x p r c Q) (h : S (r.run c).2) :
    Follows x p r c fun p' c' => Q p' c' ∧ S c' :=
  have ⟨p', hrun, hQ⟩ := hx
  ⟨p', hrun, hQ, h⟩

theorem follows_after (hx : x.run p = .ok (a, p')) (hf : Follows (f a) p' s c Q) :
    Follows (x >>= f) p s c Q := by
  rw [Follows, run_bind hx]
  exact hf

theorem follows_get {h : Parser → Parsing β} (hh : Follows (h p) p s c Q) :
    Follows (get >>= h) p s c Q := hh

theorem follows_readGet {h : Cursor → Reader β} {y : Parsing β} (hy : Follows y p (h c) c Q) :
    Follows y p (get >>= h) c Q := hy

theorem follows_readKind {h : TokenKind → Reader β} {y : Parsing β}
    (hy : Follows y p (h c.kind) c Q) : Follows y p (Reader.kind >>= h) c Q := hy

end Follows

/-- Wherever the parser stands so many levels deep, it follows the reader, and is as deep then. -/
def Keeps (tokens : List Lexeme) (depth : Nat) (x : Parsing α) (r : Reader α) : Prop :=
  ∀ p c, p.Stands tokens depth c → Follows x p r c (Parser.Stands tokens depth)

theorem keeps_pure (a : α) : Keeps tokens depth (pure a) (pure a) := fun _ _ h => follows_pure a h

theorem Keeps.bind {x : Parsing α} {f : α → Parsing β} {r : Reader α} {g : α → Reader β}
    (hx : Keeps tokens depth x r) (hf : ∀ a, Keeps tokens depth (f a) (g a)) :
    Keeps tokens depth (x >>= f) (r >>= g) :=
  fun p c h => (hx p c h).bind fun a p' c' h' => hf a p' c' h'

theorem follows_noteRound {f : Unit → Parsing β} {s : Reader β} (h : p.Stands tokens depth c)
    {before : Nat} {last : Bool} (hround : before < p.position ∨ last = true)
    (hf : ∀ p', p'.Stands tokens depth c → Follows (f ()) p' s c Q) :
    Follows (noteRound before last >>= f) p s c Q :=
  follows_after rfl (hf _ (h.noted (e := .round before p.position last) hround))

theorem Follows.tracked {x : Parsing α} {r : Reader α} (h : p.Stands tokens depth c)
    (hx : Follows x p r c (Parser.Stands tokens depth)) :
    Follows (tracked x) p r c (Parser.Stands tokens depth) := by
  obtain ⟨p', hrun, hp'⟩ := hx
  have hreturns : (Event.returns p.depth p'.depth).Fine tokens.length := by
    rw [h.depth_eq, hp'.depth_eq]
    rfl
  refine ⟨_, ?_, hp'.noted hreturns⟩
  rw [Parsing.tracked, run_bind (a := p) rfl, run_bind hrun]
  rfl

theorem Keeps.tracked {x : Parsing α} {r : Reader α} (hx : Keeps tokens depth x r) :
    Keeps tokens depth (tracked x) r := fun p c h => (hx p c h).tracked h

section Tokens

variable {f : Lexeme → Parsing β} {s : Reader β}

theorem exists_peek (h : p.Stands tokens depth c) (k : Nat) :
    ∃ p', (peek k).run p = .ok (c.peek k, p') ∧ p'.Stands tokens depth c := by
  have hpos := h.length_pos
  have hlt : min (p.position + k) (tokens.length - 1) < tokens.length := by omega
  have hindex := h.peek k
  have hnoted := h.noted (e := .peeks (min (p.position + k) (tokens.length - 1))) hlt
  refine ⟨_, ?_, hnoted⟩
  obtain rfl := h.tokens_eq
  have hne : ¬p.tokens.length = 0 := by omega
  rw [Parsing.peek, run_bind (a := p) rfl, if_neg hne]
  simp only [hindex]
  rfl

theorem follows_peek (h : p.Stands tokens depth c)
    (hf : ∀ p', p'.Stands tokens depth c → Follows (f (c.peek k)) p' s c Q) :
    Follows (peek k >>= f) p s c Q := by
  obtain ⟨p', hrun, hp'⟩ := exists_peek h k
  exact follows_after hrun (hf p' hp')

theorem exists_kind (h : p.Stands tokens depth c) :
    ∃ p', kind.run p = .ok (c.kind, p') ∧ p'.Stands tokens depth c := by
  obtain ⟨p', hrun, hp'⟩ := exists_peek h 0
  refine ⟨p', ?_, hp'⟩
  rw [Parsing.kind, run_bind hrun]
  rfl

theorem follows_kind {f : TokenKind → Parsing β} (h : p.Stands tokens depth c)
    (hf : ∀ p', p'.Stands tokens depth c → Follows (f c.kind) p' s c Q) :
    Follows (kind >>= f) p s c Q := by
  obtain ⟨p', hrun, hp'⟩ := exists_kind h
  exact follows_after hrun (hf p' hp')

theorem keeps_kind : Keeps tokens depth kind Reader.kind := fun _ _ h => exists_kind h

theorem keeps_next : Keeps tokens depth next Reader.take := by
  intro p c h
  obtain ⟨p', hrun, hp'⟩ := exists_peek h 0
  refine ⟨_, ?_, hp'.advanced⟩
  rw [Parsing.next, run_bind hrun]
  rfl

theorem follows_next {g : Lexeme → Reader β} (h : p.Stands tokens depth c)
    (hf : ∀ p', p'.Stands tokens depth c.advance →
      Follows (f c.current) p' (g c.current) c.advance Q) :
    Follows (next >>= f) p (Reader.take >>= g) c Q := by
  obtain ⟨p', hrun, hp'⟩ := keeps_next p c h
  rw [Follows, run_bind hrun]
  exact hf p' hp'

theorem keeps_expect (kind : TokenKind) :
    Keeps tokens depth (expect kind) (Reader.expect kind) := by
  intro p c h
  refine follows_kind h fun p₁ h₁ => ?_
  by_cases hk : c.kind = kind
  · obtain ⟨p₂, hrun, h₂⟩ := keeps_next p₁ c h₁
    refine ⟨p₂, ?_, ?_⟩
    · rw [if_pos hk, run_bind hrun, Reader.run_expect_of_kind hk]
      rfl
    · rw [Reader.run_expect_of_kind hk]
      exact h₂
  · rw [if_neg hk]
    refine follows_peek h₁ fun p₂ h₂ => follows_get ?_
    rw [Follows, Reader.run_expect_of_ne hk, h₂.abandoned]
    cases c.abandoned with
    | true => exact ⟨p₂, rfl, h₂⟩
    | false => exact ⟨_, rfl, h₂.reported _⟩

/-- Nothing was taken if just as much is left; the next token is left out then. -/
theorem exists_skipAt {start : Parser} {begun : Cursor} (hstart : start.Stands tokens depth begun)
    (hk : begun.kind ≠ .endOfFile) (h : p.Stands tokens depth c) :
    ∃ p', (skipAt start.position).run p = .ok ((), p') ∧ p'.Stands tokens depth
      (if c.ahead.length = begun.ahead.length then c.advance else c) := by
  have hlt := hstart.lt_of_kind hk
  have hsame : p.position = start.position ↔ c.ahead.length = begun.ahead.length := by
    rw [h.length_ahead, hstart.length_ahead]
    omega
  by_cases hposition : p.position = start.position
  · obtain ⟨p', hrun, hp'⟩ := keeps_next p c h
    refine ⟨p', ?_, ?_⟩
    · rw [skipAt, run_bind (a := p) rfl, if_pos hposition, run_bind hrun]
      rfl
    · rw [if_pos (hsame.mp hposition)]
      exact hp'
  · refine ⟨p, ?_, ?_⟩
    · rw [skipAt, run_bind (a := p) rfl, if_neg hposition]
      rfl
    · rwa [if_neg (mt hsame.mpr hposition)]

end Tokens

section Levels

variable {x y : Parsing β} {s : Reader β}

theorem follows_enter (h : p.Stands tokens depth c) (hdepth : depth < nestingLimit)
    (hy : ∀ p', p'.Stands tokens (depth + 1) c → Follows y p' s c Q) :
    Follows (enter >>= fun entered => if !entered then x else y) p s c Q := by
  have hlt : p.depth < nestingLimit := h.depth_eq ▸ hdepth
  have hrun : enter.run p = .ok (true, p.moved p.position (depth + 1)) := by
    rw [enter, run_bind (a := p) rfl, if_pos hlt, h.depth_eq]
    rfl
  exact follows_after hrun (hy _ (h.at_depth hdepth))

theorem run_leave (h : p.Stands tokens (depth + 1) c) :
    leave.run p = .ok ((), p.moved p.position depth) := by
  have hne : ¬p.depth = 0 := by
    rw [h.depth_eq]
    exact Nat.succ_ne_zero depth
  have hdepth : p.depth - 1 = depth := by
    rw [h.depth_eq, Nat.add_sub_cancel]
  rw [leave, run_bind (a := p) rfl, if_neg hne, ← hdepth]
  rfl

theorem Follows.leave {x : Parsing α} {r : Reader α} {g : α → β}
    (hx : Follows x p r c (Parser.Stands tokens (depth + 1))) :
    Follows (x >>= fun a => leave >>= fun _ => pure (g a)) p (r >>= fun a => pure (g a)) c
      (Parser.Stands tokens depth) := by
  refine hx.bind fun a p' c' h' => follows_after (run_leave h') (follows_pure _ ?_)
  exact h'.at_depth (Nat.le_of_succ_le h'.limit)

/-- What is done a level deeper is followed as if it were done where it is entered. -/
theorem Keeps.entered {x y : Parsing α} {r : Reader α} (hdepth : depth < nestingLimit)
    (hx : Keeps tokens (depth + 1) x r) :
    Keeps tokens depth (enter >>= fun entered =>
      if !entered then y else x >>= fun a => leave >>= fun _ => pure a) r := by
  refine fun p c h => follows_enter h hdepth fun p' h' => ?_
  have hleave := (hx p' c h').leave (g := id)
  rwa [show (r >>= fun a => pure (id a)) = r from bind_pure r] at hleave

theorem follows_enter_limit (h : p.Stands tokens nestingLimit c)
    (hx : ∀ p', p'.Stands tokens nestingLimit c.giveUp → Follows x p' s c.giveUp Q) :
    Follows (enter >>= fun entered => if !entered then x else y) p
      (Reader.abandon nestingLimit >>= fun _ => s) c Q := by
  have hlt : ¬p.depth < nestingLimit := by
    rw [h.depth_eq]
    exact Nat.lt_irrefl _
  have hreader : (Reader.abandon nestingLimit >>= fun _ => s).run c = s.run c.giveUp := rfl
  rw [Follows, hreader]
  cases ha : c.abandoned with
  | true =>
    have hrun : enter.run p = .ok (false, p) := by
      rw [enter, run_bind (a := p) rfl, if_neg hlt, h.abandoned, ha]
      rfl
    rw [show c.giveUp = c by rw [Cursor.giveUp, if_pos ha]] at hx ⊢
    exact follows_after hrun (hx _ h)
  | false =>
    obtain ⟨p', hpeek, hp'⟩ := exists_peek h 0
    have hgiveUp : c.giveUp = { c.report ⟨c.current.token.span, .nestingTooDeep nestingLimit⟩ with
      ahead := [], abandoned := true } := by rw [Cursor.giveUp, if_neg (by simp [ha])]
    rw [hgiveUp] at hx ⊢
    refine follows_after (a := false) ?_ (hx _ (hp'.reported _).abandon)
    rw [enter, run_bind (a := p) rfl, if_neg hlt, h.abandoned, ha, Bool.not_false, if_pos rfl,
      run_bind hpeek]
    rfl

end Levels

end Parsing

end ScalarScript
