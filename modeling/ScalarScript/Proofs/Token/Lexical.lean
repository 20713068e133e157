import ScalarScript.Proofs.Token.Lexemes

/-!
Which characters make which token, told kind by kind and without the scanner. A token before nothing
or before a space is scanned as itself; and all that is scanned without a fault, separators aside,
is such a token.
-/

set_option autoImplicit false

namespace ScalarScript

open Text

def Text.quotesDoubled (content : List Char) : List Char :=
  content.flatMap fun c => if c = '"' then ['"', '"'] else [c]

theorem Text.quotesDoubled_quote (content : List Char) :
    quotesDoubled ('"' :: content) = '"' :: '"' :: quotesDoubled content := rfl

theorem Text.quotesDoubled_cons {c : Char} (hc : c ≠ '"') (content : List Char) :
    quotesDoubled (c :: content) = c :: quotesDoubled content := by
  simp [quotesDoubled, hc]

/-- The characters are a token of this kind, and it denotes this value. -/
inductive Lexical : TokenKind → List Char → Option Value → Prop where
  | fixed {kind : TokenKind} {text : String} (h : kind.text? = some text) :
    Lexical kind text.toList none
  | number {digits : List Char} {n : Int64} (hdigits : ∀ c ∈ digits, isDigit c = true)
    (h : int64OfNumeral? digits = some n) : Lexical .number digits (some (.int n))
  | string {content : List Char} (h : ∀ c ∈ content, c ≠ '\r' ∧ c ≠ '\n') :
    Lexical .string ('"' :: quotesDoubled content ++ ['"'])
      (some (.string (String.ofList content)))
  | identifier {c : Char} {more : List Char} (hstart : isIdentifierStart c = true)
    (hmore : ∀ d ∈ more, isIdentifierPart d = true)
    (h : TokenKind.ofKeyword? (String.ofList (c :: more)) = none) :
    Lexical .identifier (c :: more) none

section Characters

variable {c : Char}

theorem Text.isDigit_iff : isDigit c = true ↔ 48 ≤ c.toNat ∧ c.toNat ≤ 57 := by
  simp only [isDigit, Bool.and_eq_true, decide_eq_true_eq]
  exact Iff.rfl

def Text.blankCodes : List Nat :=
  [0x9, 0xA, 0xB, 0xC, 0xD, 0x20, 0x85, 0xA0, 0x1680, 0x2000, 0x2001, 0x2002, 0x2003, 0x2004,
    0x2005, 0x2006, 0x2007, 0x2008, 0x2009, 0x200A, 0x2028, 0x2029, 0x202F, 0x205F, 0x3000]

theorem Text.toNat_of_isBlank (h : isBlank c = true) : c.toNat ∈ blankCodes := by
  simp [isBlank, blankCodes] at *
  omega

theorem Text.isIdentifierStart_of_isBlank (h : isBlank c = true) : isIdentifierStart c = false := by
  have hcodes : ∀ n ∈ blankCodes, isIdentifierStart (Char.ofNat n) = false := by decide +kernel
  simpa [Char.ofNat_toNat] using hcodes c.toNat (toNat_of_isBlank h)

theorem Text.isDigit_of_isBlank (h : isBlank c = true) : isDigit c = false := by
  have hcodes : ∀ n ∈ blankCodes, isDigit (Char.ofNat n) = false := by decide
  simpa [Char.ofNat_toNat] using hcodes c.toNat (toNat_of_isBlank h)

theorem Text.isIdentifierStart_of_isDigit (h : isDigit c = true) : isIdentifierStart c = false := by
  have hcodes : ∀ n ∈ List.range' 48 10, isIdentifierStart (Char.ofNat n) = false := by decide
  have hmem : c.toNat ∈ List.range' 48 10 := by
    simp [isDigit_iff] at *
    omega
  simpa [Char.ofNat_toNat] using hcodes c.toNat hmem

end Characters

def Apart (rest : List Char) : Prop := rest = [] ∨ ∃ more, rest = ' ' :: more

variable {rest : List Char}

theorem Apart.head?_ne_quote (h : Apart rest) : rest.head? ≠ some '"' := by
  rcases h with rfl | ⟨more, rfl⟩ <;> simp

theorem Apart.span_append (h : Apart rest) {p : Char → Bool} (hp : p ' ' = false) {cs : List Char}
    (hcs : ∀ c ∈ cs, p c = true) :
    (cs ++ rest).takeWhile p = cs ∧ (cs ++ rest).dropWhile p = rest := by
  induction cs with
  | nil => rcases h with rfl | ⟨more, rfl⟩ <;> simp [hp]
  | cons c cs ih =>
    have hrest := ih fun d hd => hcs d (List.mem_cons_of_mem c hd)
    simp [hcs c List.mem_cons_self, hrest]

namespace Munch

def marks : List Char :=
  ['(', ')', '{', '}', ',', ':', '+', '-', '*', '/', '=', '!', '<', '>', '&', '|', '"']

theorem ofText_of_not_mark {c : Char} (h : c ∉ marks) (rest : List Char) :
    ofText c rest = if isDigit c then number c rest
      else if isBlank c then whitespace c rest
      else if isIdentifierStart c then word c rest
      else bad c rest := by
  simp only [marks, List.mem_cons, List.not_mem_nil, or_false, not_or] at h
  simp [ofText, single?, h]

theorem not_mark_of_true {p : Char → Bool} (hp : marks.any p = false) {c : Char}
    (hc : p c = true) : c ∉ marks :=
  fun h => List.any_eq_false.mp hp c h hc

theorem ofText_digit {c : Char} (h : isDigit c = true) (rest : List Char) :
    ofText c rest = number c rest := by
  rw [ofText_of_not_mark (not_mark_of_true rfl h), if_pos h]

theorem ofText_start {c : Char} (h : isIdentifierStart c = true) (rest : List Char) :
    ofText c rest = word c rest := by
  have hdigit : ¬isDigit c = true := fun hd => by simp [isIdentifierStart_of_isDigit hd] at h
  have hblank : ¬isBlank c = true := fun hb => by simp [isIdentifierStart_of_isBlank hb] at h
  rw [ofText_of_not_mark (not_mark_of_true rfl h), if_neg hdigit, if_neg hblank, if_pos h]

theorem ofText_fixed {kind : TokenKind} {text : String} (h : kind.text? = some text)
    (hrest : Apart rest) :
    ∃ c more, text.toList = c :: more ∧ isBlank c = false ∧
      ofText c (more ++ rest) = ⟨kind, text.toList, none, none, rest⟩ := by
  cases kind <;> simp [TokenKind.text?, TokenKind.punctuationText?, TokenKind.keywordText?] at h <;>
    subst h <;> refine ⟨_, _, rfl, rfl, ?_⟩ <;>
    rcases hrest with rfl | ⟨more, rfl⟩ <;> rfl

theorem body_quote (hrest : rest.head? ≠ some '"') : body ('"' :: rest) = ⟨['"'], [], true, rest⟩ := by
  rw [body]
  · simp
  · rintro more - rfl
    exact hrest rfl

theorem body_quotesDoubled (hrest : rest.head? ≠ some '"') {content : List Char}
    (h : ∀ c ∈ content, c ≠ '\r' ∧ c ≠ '\n') :
    body (quotesDoubled content ++ '"' :: rest) =
      ⟨quotesDoubled content ++ ['"'], content, true, rest⟩ := by
  induction content with
  | nil => exact body_quote hrest
  | cons c content ih =>
    have hih := ih fun d hd => h d (List.mem_cons_of_mem c hd)
    have hc := h c List.mem_cons_self
    by_cases hq : c = '"'
    · subst hq
      rw [quotesDoubled_quote, List.cons_append, List.cons_append, body, hih]
      rfl
    · rw [quotesDoubled_cons hq, List.cons_append, body, hih]
      · simp [hq, hc]
      · simp [hq]

theorem string_quotesDoubled (hrest : rest.head? ≠ some '"') {content : List Char}
    (h : ∀ c ∈ content, c ≠ '\r' ∧ c ≠ '\n') :
    string (quotesDoubled content ++ '"' :: rest) =
      ⟨.string, '"' :: quotesDoubled content ++ ['"'], some (.string (String.ofList content)), none,
        rest⟩ := by
  simp [string, body_quotesDoubled hrest h]

end Munch

theorem Text.head_of_int64OfNumeral? {digits : List Char} {n : Int64}
    (hdigits : ∀ c ∈ digits, isDigit c = true) (h : int64OfNumeral? digits = some n) :
    ∃ c more, digits = c :: more ∧ isDigit c = true := by
  cases digits with
  | nil => exact nomatch (show none = some n from h)
  | cons c more => exact ⟨c, more, rfl, hdigits c List.mem_cons_self⟩

/-- A token before nothing or before a space is scanned as itself. It does not begin with a blank
character. -/
theorem Lexical.munch {kind : TokenKind} {cs : List Char} {value : Option Value}
    (h : Lexical kind cs value) (hrest : Apart rest) :
    ∃ c more, cs = c :: more ∧ isBlank c = false ∧
      Munch.ofText c (more ++ rest) = ⟨kind, cs, value, none, rest⟩ := by
  cases h with
  | fixed h => exact Munch.ofText_fixed h hrest
  | number hdigits h =>
    obtain ⟨c, more, rfl, hc⟩ := head_of_int64OfNumeral? hdigits h
    have hspan := hrest.span_append (p := isDigit) rfl fun d hd =>
      hdigits d (List.mem_cons_of_mem c hd)
    refine ⟨c, more, rfl, Bool.eq_false_iff.mpr fun hb => ?_, ?_⟩
    · simp [isDigit_of_isBlank hb] at hc
    · rw [Munch.ofText_digit hc, Munch.number, hspan.1, hspan.2]
      simp [h]
  | string h =>
    refine ⟨'"', _, rfl, rfl, ?_⟩
    have hstring := Munch.string_quotesDoubled hrest.head?_ne_quote h
    simp [Munch.ofText, Munch.single?, hstring]
  | identifier hstart hmore h =>
    rename_i c more
    have hspan := hrest.span_append (p := isIdentifierPart) rfl hmore
    refine ⟨c, more, rfl, Bool.eq_false_iff.mpr fun hb => ?_, ?_⟩
    · simp [isIdentifierStart_of_isBlank hb] at hstart
    · rw [Munch.ofText_start hstart, Munch.word, hspan.1, hspan.2, h]
      rfl

theorem Lexical.value_unique {kind : TokenKind} {cs : List Char} {value other : Option Value}
    (h : Lexical kind cs value) (h' : Lexical kind cs other) : value = other := by
  -- both are what is scanned from the characters when nothing follows
  obtain ⟨c, more, hcs, -, hm⟩ := h.munch (.inl rfl : Apart [])
  obtain ⟨c', more', hcs', -, hm'⟩ := h'.munch (.inl rfl : Apart [])
  obtain ⟨rfl, rfl⟩ := List.cons.inj (hcs.symm.trans hcs')
  exact congrArg Munch.value (hm.symm.trans hm')

theorem Lexical.kind_of_value {kind : TokenKind} {cs : List Char} {value : Value}
    (h : Lexical kind cs (some value)) : kind = .number ∨ kind = .string := by
  cases h <;> simp

theorem Lexical.not_separator {kind : TokenKind} {cs : List Char} {value : Option Value}
    (h : Lexical kind cs value) : kind.isSeparator = false := by
  cases h with
  | fixed h =>
    cases kind <;> first | rfl | cases h
  | _ => rfl

theorem TokenKind.text?_of_ofKeyword? {word : String} {kind : TokenKind}
    (h : ofKeyword? word = some kind) : kind.text? = some word := by
  unfold ofKeyword? at h
  split at h <;> first | cases h; rfl | cases h

namespace Munch

def Sane (m : Munch) : Prop :=
  m.fault = none → m.kind.isSeparator = false → Lexical m.kind m.taken m.value

theorem sane_fixed {kind : TokenKind} {taken : List Char}
    (h : kind.text? = some (String.ofList taken)) (rest : List Char) :
    (plain kind taken rest).Sane := by
  intro _ _
  simpa [plain] using Lexical.fixed h

theorem sane_bad (c : Char) (rest : List Char) : (bad c rest).Sane := nofun

theorem sane_withEquals {alone followed : TokenKind} {c : Char}
    (ha : alone.text? = some (String.ofList [c]))
    (hf : followed.text? = some (String.ofList [c, '='])) (rest : List Char) :
    (withEquals alone followed c rest).Sane := by
  unfold withEquals
  split
  · exact sane_fixed hf _
  · exact sane_fixed ha _

theorem sane_doubled {kind : TokenKind} {c : Char}
    (h : kind.text? = some (String.ofList [c, c])) (rest : List Char) :
    (doubled kind c rest).Sane := by
  unfold doubled
  split
  · exact sane_bad _ _
  · split
    · exact sane_fixed h _
    · exact sane_bad _ _

/-- What is taken of a literal is its content with the quotes doubled, and the closing quote if there
is one. -/
theorem taken_body (cs : List Char) :
    (body cs).taken =
      quotesDoubled (body cs).content ++ if (body cs).closed then ['"'] else [] := by
  fun_induction body cs with
  | case1 => rfl
  | case2 rest b ih => exact congrArg (fun cs => '"' :: '"' :: cs) ih
  | case3 rest => rfl
  | case4 c rest => rfl
  | case5 c rest _ hq _ b ih => exact (congrArg (c :: ·) ih).trans (by rw [quotesDoubled_cons hq]; rfl)

theorem content_body (cs : List Char) : ∀ d ∈ (body cs).content, d ≠ '\r' ∧ d ≠ '\n' := by
  fun_induction body cs with
  | case1 => nofun
  | case2 rest b ih => exact List.forall_mem_cons.mpr ⟨by decide, ih⟩
  | case3 rest => nofun
  | case4 c rest => nofun
  | case5 c rest _ hq hline b ih => exact List.forall_mem_cons.mpr ⟨not_or.mp hline, ih⟩

theorem sane_string (rest : List Char) : (string rest).Sane := by
  intro hfault _
  have hclosed : (body rest).closed = true := by
    cases h : (body rest).closed with
    | true => rfl
    | false => simp [string, h] at hfault
  have htaken := taken_body rest
  rw [if_pos hclosed] at htaken
  simpa [string, htaken] using Lexical.string (content_body rest)

theorem sane_number {c : Char} (hc : isDigit c = true) (rest : List Char) :
    (number c rest).Sane := by
  unfold number
  dsimp only
  split
  · rename_i n h
    intro _ _
    refine .number (List.forall_mem_cons.mpr ⟨hc, fun d hd => ?_⟩) h
    exact List.all_eq_true.mp List.all_takeWhile d hd
  · exact nofun

theorem sane_word {c : Char} (hc : isIdentifierStart c = true) (rest : List Char) :
    (word c rest).Sane := by
  unfold word
  dsimp only
  cases h : TokenKind.ofKeyword? (String.ofList (c :: rest.takeWhile isIdentifierPart)) with
  | some kind => exact sane_fixed (TokenKind.text?_of_ofKeyword? h) _
  | none =>
    intro _ _
    exact .identifier hc (fun d hd => List.all_eq_true.mp List.all_takeWhile d hd) h

theorem sane_ofText (c : Char) : ∀ rest, (ofText c rest).Sane := by
  refine ofText_cases (P := fun f => ∀ rest, (f rest).Sane) ?_ ?_ ?_ ?_ ?_ ?_ ?_ ?_
  · exact fun kind h rest => sane_fixed h rest
  · exact fun alone followed ha hf rest => sane_withEquals ha hf rest
  · exact fun kind h rest => sane_doubled h rest
  · exact fun _ rest => sane_string rest
  · exact fun hc rest => sane_number hc rest
  · exact fun _ rest => nofun
  · exact fun hc rest => sane_word hc rest
  · exact fun rest => sane_bad c rest

end Munch

/-- The tokens are what is scanned as itself when it stands alone, separators aside. -/
theorem lexical_iff {kind : TokenKind} {cs : List Char} {value : Option Value} :
    Lexical kind cs value ↔ kind.isSeparator = false ∧
      ∃ c more, cs = c :: more ∧ Munch.ofText c more = ⟨kind, cs, value, none, []⟩ := by
  refine ⟨fun h => ⟨h.not_separator, ?_⟩, ?_⟩
  · obtain ⟨c, more, hcs, -, hm⟩ := h.munch (.inl rfl : Apart [])
    exact ⟨c, more, hcs, by simpa using hm⟩
  · rintro ⟨hsep, c, more, rfl, hm⟩
    have hsane := Munch.sane_ofText c more
    rw [hm] at hsane
    exact hsane rfl hsep

end ScalarScript
