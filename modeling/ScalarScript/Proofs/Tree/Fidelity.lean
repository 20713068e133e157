import ScalarScript.Proofs.Tree.Reading

set_option autoImplicit false

namespace ScalarScript

def Cursor.words (c : Cursor) : List Token := c.ahead.map Lexeme.token ++ [c.endOfFile.token]

theorem Lexeme.words_eq (text : String) : words text = (Cursor.ofLexemes (ofText text)).words := by
  obtain ⟨ls, position, h, -⟩ := ofText_eq text
  have hlast : (endOfFile position).isSeparator = false := rfl
  simp [words, Cursor.words, Cursor.ofLexemes, h, List.filter_append, hlast]

theorem Cursor.endOfFile_ofText (text : String) :
    (Lexeme.ofText text).getLast? = some (Cursor.ofLexemes (Lexeme.ofText text)).endOfFile := by
  obtain ⟨ls, position, h, -⟩ := Lexeme.ofText_eq text
  simp [Cursor.ofLexemes, h]

namespace Grammar

def whole (statement : Reader Statement) : Reader Tree := do
  let first ← statement
  return ⟨first, ← Reader.expect .endOfFile⟩

theorem tree_eq : tree = whole (Level.ofDepth nestingLimit).statement := rfl

variable {statement : Reader Statement} {c : Cursor}

theorem run_whole (statement : Reader Statement) (c : Cursor) :
    (whole statement).run c =
      (⟨(statement.run c).1, ((Reader.expect .endOfFile).run (statement.run c).2).1⟩,
        ((Reader.expect .endOfFile).run (statement.run c).2).2) := rfl

theorem kept_whole (hs : ReadsStatements statement) (hc : c.Sound) :
    Kept ((whole statement).run c).1.tokens c.words := by
  have hread := hs c hc
  obtain ⟨ls, hls, hkept, -⟩ := hread.takes
  -- the end of the file has no text, whether it was found or is missing
  have hlast : ((Reader.expect .endOfFile).run (statement.run c).2).1.isMissing = true := by
    by_cases hk : (statement.run c).2.kind = .endOfFile
    · rw [Reader.run_expect_of_kind hk, (Cursor.ahead_of_endOfFile hread.sound hk).2]
      exact hread.sound.blank
    · rw [Reader.run_expect_of_ne hk]
      exact Token.isMissing_missing _ _
  have hend : Kept [_] (statement.run c).2.words := .missing hlast
  have hboth := hkept.append hend
  rw [Tree.tokens_eq, Cursor.words, hls, run_whole]
  simpa [Cursor.words, hread.endOfFile] using hboth

/-- The end of the file must follow the statement; whatever else does is noted. -/
theorem derives_whole (hs : ReadsStatements statement) (hc : c.Sound)
    (h : ((whole statement).run c).2.diagnostics = []) :
    ((whole statement).run c).1.statement.Derives true (c.ahead.map Lexeme.token) ∧
      ((whole statement).run c).1.endOfFile = c.endOfFile.token := by
  have hread := hs c hc
  obtain ⟨ls, hls, -, hderives⟩ := hread.takes
  rw [run_whole] at h ⊢
  by_cases hk : (statement.run c).2.kind = .endOfFile
  · obtain ⟨hahead, hcurrent⟩ := Cursor.ahead_of_endOfFile hread.sound hk
    rw [Reader.run_expect_of_kind hk] at h ⊢
    refine ⟨?_, by rw [hcurrent, hread.endOfFile]⟩
    rw [hls, hahead, List.append_nil]
    exact hderives h
  · rw [Reader.run_expect_of_ne hk] at h
    cases ha : (statement.run c).2.abandoned with
    | true => exact absurd (by simpa [ha] using h) (hread.sound.noted ha)
    | false => simp [ha, Cursor.report] at h

theorem kept_tree (hc : c.Sound) : Kept (tree.run c).1.tokens c.words := by
  have hkept := kept_whole (Level.sound_ofDepth nestingLimit).statement hc
  rwa [← tree_eq] at hkept

theorem derives_tree (hc : c.Sound) (h : (tree.run c).2.diagnostics = []) :
    (tree.run c).1.statement.Derives true (c.ahead.map Lexeme.token) ∧
      (tree.run c).1.endOfFile = c.endOfFile.token := by
  have hderives := derives_whole (Level.sound_ofDepth nestingLimit).statement hc
  rw [← tree_eq] at hderives
  exact hderives h

end Grammar

namespace Fragment

theorem reading_faultless {text : String}
    (h : (ofText text).diagnostics = Lexeme.diagnostics (Lexeme.ofText text)) :
    (Grammar.tree.run (.ofLexemes (Lexeme.ofText text))).2.diagnostics = [] := by
  rw [ofText_eq] at h
  exact List.append_right_eq_self.mp h

/-- What a fragment's statement is a derivation of, where reading notes no fault of its own. -/
theorem derives_of_faultless {text : String}
    (h : (ofText text).diagnostics = Lexeme.diagnostics (Lexeme.ofText text)) :
    (ofText text).tree.statement.Derives true
        ((Cursor.ofLexemes (Lexeme.ofText text)).ahead.map Lexeme.token) ∧
      (ofText text).tree.endOfFile = (Cursor.ofLexemes (Lexeme.ofText text)).endOfFile.token := by
  have hderives := Grammar.derives_tree (Cursor.sound_ofText text) (reading_faultless h)
  simpa only [ofText_eq] using hderives

theorem spelled_of_faultless {text : String}
    (h : (ofText text).diagnostics = Lexeme.diagnostics (Lexeme.ofText text)) :
    (ofText text).tree.statement.Spelled
        ((Cursor.ofLexemes (Lexeme.ofText text)).ahead.map Lexeme.token) ∧
      (ofText text).tree.endOfFile = (Cursor.ofLexemes (Lexeme.ofText text)).endOfFile.token :=
  have h := derives_of_faultless h
  ⟨h.1.spelled, h.2⟩

theorem present_of_own_faultless {text : String}
    (h : (ofText text).diagnostics = Lexeme.diagnostics (Lexeme.ofText text)) :
    Present (ofText text).tree.statement.tokens := by
  intro t ht
  obtain ⟨l, hl, rfl⟩ := List.mem_map.mp ((spelled_of_faultless h).1.sublist.subset ht)
  exact ((Cursor.sound_ofText text).ahead l hl).1

theorem present_of_faultless {text : String} (h : (ofText text).diagnostics = []) :
    Present (ofText text).tree.statement.tokens := by
  refine present_of_own_faultless ?_
  rw [ofText_eq] at h ⊢
  rw [(List.append_eq_nil_iff.mp h).2, List.append_nil]

/-- The tokens of a text's tree, save the missing ones, are tokens of the text in their order, each
at most once. Where reading adds no fault to those of the lexemes, no token of the tree is missing,
its end of the file is that of the text, and the tokens of the text spell the tree out: beyond those
of the tree there are only commas between and after the arguments of calls. -/
theorem tokens_of_text (text : String) :
    ((ofText text).tree.tokens.filter fun t => !t.isMissing).Sublist (Lexeme.words text) ∧
    (Lexeme.words text).Nodup ∧
    ((ofText text).diagnostics = Lexeme.diagnostics (Lexeme.ofText text) →
      Present (ofText text).tree.statement.tokens ∧
      (Lexeme.ofText text).getLast?.map Lexeme.token = some (ofText text).tree.endOfFile ∧
      ∃ ts, Lexeme.words text = ts ++ [(ofText text).tree.endOfFile] ∧
        (ofText text).tree.statement.Spelled ts) := by
  refine ⟨?_, Lexeme.nodup_words text, fun h => ?_⟩
  · have hkept := Grammar.kept_tree (Cursor.sound_ofText text)
    simpa only [Kept, Lexeme.words_eq, ofText_eq] using hkept
  · obtain ⟨hspelled, hlast⟩ := spelled_of_faultless h
    refine ⟨present_of_own_faultless h, ?_, _, ?_, hspelled⟩
    · rw [Cursor.endOfFile_ofText, hlast, Option.map_some]
    · rw [Lexeme.words_eq, hlast, Cursor.words]

/-- A bad character beside two calls, of which one has a comma after its last argument. -/
theorem tokens_of_text_commas :
    (ofText "# max(1, abs(2,))").diagnostics =
      Lexeme.diagnostics (Lexeme.ofText "# max(1, abs(2,))") ∧
    Present (ofText "# max(1, abs(2,))").tree.statement.tokens ∧
    ∃ ts, Lexeme.words "# max(1, abs(2,))" =
        ts ++ [(ofText "# max(1, abs(2,))").tree.endOfFile] ∧
      (ofText "# max(1, abs(2,))").tree.statement.Spelled ts := by
  have h : (ofText "# max(1, abs(2,))").diagnostics =
      Lexeme.diagnostics (Lexeme.ofText "# max(1, abs(2,))") := by decide +kernel
  have hall := (tokens_of_text "# max(1, abs(2,))").2.2 h
  exact ⟨h, hall.1, hall.2.2⟩

end Fragment

end ScalarScript
