import ScalarScript.Token.Lexeme

set_option autoImplicit false

namespace ScalarScript

open Text

theorem TokenKind.ofKeyword?_ne_endOfFile (word : String) :
    ofKeyword? word ≠ some .endOfFile := by
  unfold ofKeyword?
  split <;> simp

namespace Munch

def Proper (m : Munch) : Prop := m.taken ≠ [] ∧ m.kind ≠ .endOfFile

theorem proper_plain {kind : TokenKind} (hk : kind ≠ .endOfFile) (c : Char)
    (more rest : List Char) : (plain kind (c :: more) rest).Proper :=
  ⟨List.cons_ne_nil _ _, hk⟩

theorem proper_bad (c : Char) (rest : List Char) : (bad c rest).Proper :=
  ⟨List.cons_ne_nil _ _, nofun⟩

theorem proper_withEquals {alone followed : TokenKind} (ha : alone ≠ .endOfFile)
    (hf : followed ≠ .endOfFile) (c : Char) (rest : List Char) :
    (withEquals alone followed c rest).Proper := by
  unfold withEquals
  split
  · exact proper_plain hf _ _ _
  · exact proper_plain ha _ _ _

theorem proper_doubled {kind : TokenKind} (hk : kind ≠ .endOfFile) (c : Char) (rest : List Char) :
    (doubled kind c rest).Proper := by
  unfold doubled
  split
  · exact proper_bad _ _
  · split
    · exact proper_plain hk _ _ _
    · exact proper_bad _ _

theorem proper_number (c : Char) (rest : List Char) : (number c rest).Proper := by
  unfold number
  dsimp only
  split <;> exact ⟨List.cons_ne_nil _ _, nofun⟩

theorem proper_word (c : Char) (rest : List Char) : (word c rest).Proper := by
  refine proper_plain ?_ _ _ _
  cases h : TokenKind.ofKeyword? (String.ofList (c :: rest.takeWhile isIdentifierPart)) with
  | none => simp
  | some kind =>
    rintro rfl
    exact TokenKind.ofKeyword?_ne_endOfFile _ h

theorem text?_of_single? {c : Char} {kind : TokenKind} (h : single? c = some kind) :
    kind.text? = some (String.ofList [c]) := by
  unfold single? at h
  split at h <;> first | cases h; rfl | cases h

section Cases

variable {c : Char} {P : (List Char → Munch) → Prop}

theorem of_ite {p : Prop} [Decidable p] {f g : List Char → Munch} (hf : p → P f) (hg : P g) :
    P fun rest => if p then f rest else g rest := by
  by_cases h : p
  · simpa only [if_pos h] using hf h
  · simpa only [if_neg h] using hg

/-- The ways of taking a token that begins with a character, with what is known of the character and
of the kinds of token in each. -/
theorem ofText_cases
    (hsingle : ∀ kind, kind.text? = some (String.ofList [c]) → P (plain kind [c]))
    (hequals : ∀ alone followed, alone.text? = some (String.ofList [c]) →
      followed.text? = some (String.ofList [c, '=']) → P (withEquals alone followed c))
    (hdoubled : ∀ kind, kind.text? = some (String.ofList [c, c]) → P (doubled kind c))
    (hstring : c = '"' → P string) (hnumber : isDigit c = true → P (number c))
    (hwhitespace : isBlank c = true → P (whitespace c))
    (hword : isIdentifierStart c = true → P (word c)) (hbad : P (bad c)) : P (ofText c) := by
  unfold ofText
  cases h : single? c with
  | some kind => exact hsingle kind (text?_of_single? h)
  | none =>
    refine of_ite (fun hc => hequals _ _ (by rw [hc]; rfl) (by rw [hc]; rfl)) ?_
    refine of_ite (fun hc => hequals _ _ (by rw [hc]; rfl) (by rw [hc]; rfl)) ?_
    refine of_ite (fun hc => hequals _ _ (by rw [hc]; rfl) (by rw [hc]; rfl)) ?_
    refine of_ite (fun hc => hequals _ _ (by rw [hc]; rfl) (by rw [hc]; rfl)) ?_
    refine of_ite (fun hc => hdoubled _ (by rw [hc]; rfl)) ?_
    refine of_ite (fun hc => hdoubled _ (by rw [hc]; rfl)) ?_
    exact of_ite hstring (of_ite hnumber (of_ite hwhitespace (of_ite hword hbad)))

end Cases

theorem ne_endOfFile_of_text? {kind : TokenKind} {text : String} (h : kind.text? = some text) :
    kind ≠ .endOfFile := by
  rintro rfl
  cases h

theorem proper_ofText (c : Char) : ∀ rest, (ofText c rest).Proper := by
  refine ofText_cases (P := fun f => ∀ rest, (f rest).Proper) ?_ ?_ ?_ ?_ ?_ ?_ ?_ ?_
  · exact fun kind h rest => proper_plain (ne_endOfFile_of_text? h) _ _ _
  · exact fun alone followed ha hf rest =>
      proper_withEquals (ne_endOfFile_of_text? ha) (ne_endOfFile_of_text? hf) _ _
  · exact fun kind h rest => proper_doubled (ne_endOfFile_of_text? h) _ _
  · exact fun _ rest => ⟨List.cons_ne_nil _ _, nofun⟩
  · exact fun _ rest => proper_number _ _
  · exact fun _ rest => proper_plain (by decide) _ _ _
  · exact fun _ rest => proper_word _ _
  · exact fun rest => proper_bad _ _

end Munch

theorem Text.byteLength_pos {cs : List Char} (h : cs ≠ []) : 0 < byteLength cs := by
  cases cs with
  | nil => exact absurd rfl h
  | cons c cs => exact Nat.add_pos_left c.utf8Size_pos _

namespace Scanner

theorem next_proper {s : Scanner} (h : s.rest ≠ []) :
    s.next.1.token.isMissing = false ∧ s.next.1.token.kind ≠ .endOfFile := by
  obtain ⟨position, rest⟩ := s
  cases rest with
  | nil => exact absurd rfl h
  | cons c rest =>
    have hm := Munch.proper_ofText c rest
    exact ⟨by simp [next, Munch.lexeme, Token.isMissing, hm.1], hm.2⟩

theorem start_next (s : Scanner) : s.next.1.token.span.start = s.position := by
  obtain ⟨position, rest⟩ := s
  cases rest <;> rfl

theorem position_lt_next {s : Scanner} (h : s.rest ≠ []) : s.position < s.next.2.position := by
  obtain ⟨position, rest⟩ := s
  cases rest with
  | nil => exact absurd rfl h
  | cons c rest =>
    exact Nat.lt_add_of_pos_right (Text.byteLength_pos (Munch.proper_ofText c rest).1)

theorem lexemesWithin_eq (fuel : Nat) (s : Scanner) :
    ∃ ls position, s.lexemesWithin fuel = ls ++ [.endOfFile position] ∧
      ∀ l ∈ ls, l.token.isMissing = false ∧ l.token.kind ≠ .endOfFile := by
  induction fuel generalizing s with
  | zero => exact ⟨[], s.position, rfl, by simp⟩
  | succ fuel ih =>
    unfold lexemesWithin
    split
    · exact ⟨[], s.position, rfl, by simp⟩
    · rename_i h
      obtain ⟨ls, position, hls, hproper⟩ := ih s.next.2
      refine ⟨s.next.1 :: ls, position, by rw [hls, List.cons_append], ?_⟩
      intro l hl
      rcases List.mem_cons.mp hl with rfl | hl
      · exact next_proper (by simpa using h)
      · exact hproper l hl

theorem start_lexemesWithin (fuel : Nat) (s : Scanner) :
    ∀ l ∈ s.lexemesWithin fuel, s.position ≤ l.token.span.start := by
  induction fuel generalizing s with
  | zero => simp [lexemesWithin, Lexeme.endOfFile, Span.emptyAt]
  | succ fuel ih =>
    unfold lexemesWithin
    split
    · simp [Lexeme.endOfFile, Span.emptyAt]
    · rename_i h
      intro l hl
      rcases List.mem_cons.mp hl with rfl | hl
      · exact Nat.le_of_eq s.start_next.symm
      · exact Nat.le_trans (Nat.le_of_lt (position_lt_next (by simpa using h))) (ih _ l hl)

theorem sorted_lexemesWithin (fuel : Nat) (s : Scanner) :
    (s.lexemesWithin fuel).Pairwise fun l m => l.token.span.start < m.token.span.start := by
  induction fuel generalizing s with
  | zero => exact List.pairwise_singleton _ _
  | succ fuel ih =>
    unfold lexemesWithin
    split
    · exact List.pairwise_singleton _ _
    · rename_i h
      refine List.pairwise_cons.mpr ⟨fun m hm => ?_, ih _⟩
      rw [s.start_next]
      exact Nat.lt_of_lt_of_le (position_lt_next (by simpa using h))
        (start_lexemesWithin _ _ m hm)

end Scanner

namespace Lexeme

theorem ofText_eq (text : String) :
    ∃ ls position, ofText text = ls ++ [endOfFile position] ∧
      ∀ l ∈ ls, l.token.isMissing = false ∧ l.token.kind ≠ .endOfFile :=
  Scanner.lexemesWithin_eq ..

/-- The tokens of a text that make up its structure, the end of the file last. -/
def words (text : String) : List Token :=
  ((ofText text).filter fun l => !l.isSeparator).map Lexeme.token

theorem nodup_words (text : String) : (words text).Nodup := by
  refine List.pairwise_map.mpr (List.Pairwise.filter _ ?_)
  refine (Scanner.sorted_lexemesWithin _ _).imp fun {l m} hlt heq => ?_
  rw [heq] at hlt
  exact Nat.lt_irrefl _ hlt

end Lexeme

end ScalarScript
