import Mathlib.Data.List.TakeWhile
import ScalarScript.Proofs.Text.Numerals
import ScalarScript.Proofs.Token.Lexical
import ScalarScript.Run.Convert
import ScalarScript.Typing.Conversion

set_option autoImplicit false

namespace ScalarScript

namespace Text

/-- The text is blank at its ends and this in between, which neither begins nor ends with a blank
character. -/
def Trimmed (cs core : List Char) : Prop :=
  ∃ left right, cs = left ++ core ++ right ∧ (∀ c ∈ left ++ right, isBlank c = true) ∧
    (∀ c ∈ core.head?, isBlank c = false) ∧ ∀ c ∈ core.getLast?, isBlank c = false

section Trimmed

variable {cs core : List Char}

theorem dropWhile_append_of_head? {p : Char → Bool} {left : List Char}
    (hleft : ∀ c ∈ left, p c = true) (hcore : ∀ c ∈ core.head?, p c = false) :
    (left ++ core).dropWhile p = core := by
  rw [List.dropWhile_append_of_pos hleft]
  cases core with
  | nil => rfl
  | cons c core => exact List.dropWhile_cons_of_neg (by simp [hcore c rfl])

theorem trimRight_append {right : List Char} (hright : ∀ c ∈ right, isBlank c = true)
    (hcore : ∀ c ∈ core.getLast?, isBlank c = false) : trimRight (core ++ right) = core := by
  rw [trimRight, List.reverse_append, dropWhile_append_of_head?, List.reverse_reverse]
  · simpa using hright
  · simpa using hcore

theorem Trimmed.eq_trim (h : Trimmed cs core) : core = trim cs := by
  obtain ⟨left, right, rfl, hblank, hhead, hlast⟩ := h
  obtain ⟨hleft, hright⟩ := List.forall_mem_append.mp hblank
  cases core with
  | nil =>
    have hall : ∀ c ∈ left ++ [] ++ right, isBlank c = true := by simpa using hblank
    rw [trim, List.dropWhile_eq_nil_iff.mpr hall]
    rfl
  | cons c core =>
    rw [trim, List.append_assoc, dropWhile_append_of_head? hleft (by simpa using hhead),
      trimRight_append hright hlast]

theorem trimmed_trim (cs : List Char) : Trimmed cs (trim cs) := by
  have hdrop {p : Char → Bool} {ds : List Char} : ∀ c ∈ (ds.dropWhile p).head?, p c = false := by
    intro c hc
    have hstop := List.head?_dropWhile_not p ds
    rwa [Option.mem_def.mp hc] at hstop
  have hsplit : trim cs ++ ((cs.dropWhile isBlank).reverse.takeWhile isBlank).reverse =
      cs.dropWhile isBlank := by
    rw [trim, trimRight, ← List.reverse_append, List.takeWhile_append_dropWhile,
      List.reverse_reverse]
  refine ⟨cs.takeWhile isBlank, ((cs.dropWhile isBlank).reverse.takeWhile isBlank).reverse,
    ?_, ?_, ?_, ?_⟩
  · rw [List.append_assoc, hsplit, List.takeWhile_append_dropWhile]
  · refine List.forall_mem_append.mpr ⟨fun c hc => List.mem_takeWhile_imp hc, fun c hc => ?_⟩
    exact List.mem_takeWhile_imp (List.mem_reverse.mp hc)
  · intro c hc
    refine hdrop c (show c ∈ (cs.dropWhile isBlank).head? from ?_)
    rw [← hsplit, List.head?_append, Option.mem_def.mp hc]
    rfl
  · rw [trim, trimRight, List.getLast?_reverse]
    exact hdrop

theorem trimmed_self (h : ∀ c ∈ cs, isBlank c = false) : Trimmed cs cs :=
  ⟨[], [], by simp, nofun, fun c hc => h c (List.mem_of_mem_head? hc),
    fun c hc => h c (List.mem_of_mem_getLast? hc)⟩

theorem Numeral.trimmed {i : Int} (h : Numeral cs i) : Trimmed cs cs := by
  have hdigits {ds : List Char} (h : Digits ds) : ∀ c ∈ ds, isBlank c = false := by
    intro c hc
    rw [← Bool.not_eq_true]
    intro hblank
    have hdigit := h.2 c hc
    rw [isDigit_of_isBlank hblank] at hdigit
    cases hdigit
  refine trimmed_self ?_
  cases h with
  | unsigned h => exact hdigits h
  | plus h => exact List.forall_mem_cons.mpr ⟨rfl, hdigits h⟩
  | minus h => exact List.forall_mem_cons.mpr ⟨rfl, hdigits h⟩

end Trimmed

theorem lowerChar_eq (c : Char) : lowerChar c = c.toLower := by
  unfold lowerChar
  split
  · rename_i h
    have hcodes : ∀ n ∈ List.range' 65 26, Char.ofNat (n + 32) = (Char.ofNat n).toLower := by decide
    have hmem : c.toNat ∈ List.range' 65 26 := List.mem_range'_1.mpr ⟨h.1, Nat.lt_succ_of_le h.2⟩
    simpa [Char.ofNat_toNat] using hcodes c.toNat hmem
  · rename_i h
    have hnone : ¬(c.val ≥ 'A'.val ∧ c.val ≤ 'Z'.val) := h
    exact (dif_neg (e := fun _ => c) hnone).symm

theorem boolOfWord?_eq_some {cs : List Char} {b : Bool} :
    boolOfWord? cs = some b ↔ cs.map Char.toLower = (Value.bool b).text.toList := by
  have hlower : cs.map lowerChar = cs.map Char.toLower :=
    List.map_congr_left fun c _ => lowerChar_eq c
  rw [boolOfWord?, hlower]
  cases b with
  | true => simp [Value.text]
  | false =>
    by_cases h : cs.map Char.toLower = ['t', 'r', 'u', 'e'] <;> simp [h, Value.text]

end Text

namespace Value

variable {target : Ty}

theorem eq_of_convert_error {v : Value} {e : RunError} (h : v.convert target = .error e) :
    e = .invalidConversion v.text target.name := by
  unfold convert at h
  dsimp only at h
  split at h
  · cases h
  · cases h
  · cases h
  · split at h
    · cases h
    · cases h
      rfl
  · split at h
    · cases h
    · cases h
      rfl
  · cases h
    rfl

theorem convert_of_classify_none {v : Value} (h : Conversion.classify v.ty target = .none) :
    v.convert target = .error (.invalidConversion v.text target.name) := by
  cases v <;> cases target <;> first | rfl | cases h

theorem convert_of_classify_identity {v : Value}
    (h : Conversion.classify v.ty target = .identity) : v.convert target = .ok v := by
  cases v <;> cases target <;> first | rfl | cases h

theorem convert_string (v : Value) : v.convert .string = .ok (.string v.text) := by
  cases v <;> rfl

/-- A text is converted into an integer if without the blank characters around it it is a numeral,
into the integer the numeral denotes. -/
theorem convert_string_int {s : String} {v : Value} :
    (string s).convert .int = .ok v ↔
      ∃ cs n, Text.Trimmed s.toList cs ∧ Text.Numeral cs n.toInt ∧ v = .int n := by
  have hread : (string s).convert .int = .ok v ↔
      ∃ n, Text.int64OfNumeral? (Text.trim s.toList) = some n ∧ v = .int n := by
    simp only [convert]
    cases Text.int64OfNumeral? (Text.trim s.toList) <;> simp [eq_comm]
  rw [hread]
  constructor
  · rintro ⟨n, hn, rfl⟩
    exact ⟨_, n, Text.trimmed_trim _, Text.int64OfNumeral?_eq_some.mp hn, rfl⟩
  · rintro ⟨cs, n, hcs, hn, rfl⟩
    exact ⟨n, Text.int64OfNumeral?_eq_some.mpr (hcs.eq_trim ▸ hn), rfl⟩

/-- A text is converted into a boolean if without the blank characters around it it is the word of
one in letters of either case. -/
theorem convert_string_bool {s : String} {v : Value} :
    (string s).convert .bool = .ok v ↔ ∃ cs b, Text.Trimmed s.toList cs ∧
      cs.map Char.toLower = (bool b).text.toList ∧ v = .bool b := by
  have hread : (string s).convert .bool = .ok v ↔
      ∃ b, Text.boolOfWord? (Text.trim s.toList) = some b ∧ v = .bool b := by
    simp only [convert]
    cases Text.boolOfWord? (Text.trim s.toList) <;> simp [eq_comm]
  rw [hread]
  constructor
  · rintro ⟨b, hb, rfl⟩
    exact ⟨_, b, Text.trimmed_trim _, Text.boolOfWord?_eq_some.mp hb, rfl⟩
  · rintro ⟨cs, b, hcs, hb, rfl⟩
    exact ⟨b, Text.boolOfWord?_eq_some.mpr (hcs.eq_trim ▸ hb), rfl⟩

theorem convert_text {v : Value} (h : v.ty ≠ .string) : (string v.text).convert v.ty = .ok v := by
  cases v with
  | int n =>
    have hn := Text.numeral_toString n.toInt
    exact convert_string_int.mpr ⟨_, n, hn.trimmed, hn, rfl⟩
  | bool b => cases b <;> decide
  | string s => exact absurd rfl h

/-- Converting follows the table of conversions: where the table has none it fails, within a type
nothing changes, and into texts it never fails. The text of an integer or a boolean is converted back
into it. And of a text, what decides is what is left of it without the blank characters at both ends:
it is converted into an integer exactly if that is one digit or more behind at most one sign and
denotes a number of 64 bits with sign, and into a boolean exactly if that is `true` or `false` in
letters of either case. -/
theorem convert_exact :
    (∀ (v : Value) (target : Ty),
      (Conversion.classify v.ty target = .none →
        v.convert target = .error (.invalidConversion v.text target.name)) ∧
      (Conversion.classify v.ty target = .identity → v.convert target = .ok v) ∧
      (target = .string → ∃ s, v.convert target = .ok (.string s)) ∧
      ∀ e, v.convert target = .error e → e = .invalidConversion v.text target.name) ∧
    (∀ v : Value, v.ty ≠ .string →
      ∃ s, v.convert .string = .ok (.string s) ∧ (string s).convert v.ty = .ok v) ∧
    ∀ (s : String) (v : Value),
      ((string s).convert .int = .ok v ↔ ∃ cs i, Text.Trimmed s.toList cs ∧ Text.Numeral cs i ∧
        -2 ^ 63 ≤ i ∧ i < 2 ^ 63 ∧ ∃ n : Int64, n.toInt = i ∧ v = .int n) ∧
      ((string s).convert .bool = .ok v ↔ ∃ cs, Text.Trimmed s.toList cs ∧
        (cs.map Char.toLower = "true".toList ∧ v = .bool true ∨
          cs.map Char.toLower = "false".toList ∧ v = .bool false)) := by
  refine ⟨fun v target => ⟨convert_of_classify_none, convert_of_classify_identity, ?_, ?_⟩, ?_, ?_⟩
  · rintro rfl
    exact ⟨v.text, convert_string v⟩
  · exact fun e => eq_of_convert_error
  · exact fun v h => ⟨v.text, convert_string v, convert_text h⟩
  · intro s v
    rw [convert_string_int, convert_string_bool]
    constructor
    · constructor
      · rintro ⟨cs, n, hcs, hn, rfl⟩
        exact ⟨cs, n.toInt, hcs, hn, n.le_toInt, n.toInt_lt, n, rfl, rfl⟩
      · rintro ⟨cs, _, hcs, hn, -, -, n, rfl, rfl⟩
        exact ⟨cs, n, hcs, hn, rfl⟩
    · constructor
      · rintro ⟨cs, b, hcs, hb, rfl⟩
        cases b with
        | true => exact ⟨cs, hcs, .inl ⟨hb, rfl⟩⟩
        | false => exact ⟨cs, hcs, .inr ⟨hb, rfl⟩⟩
      · rintro ⟨cs, hcs, ⟨hb, rfl⟩ | ⟨hb, rfl⟩⟩
        · exact ⟨cs, true, hcs, hb, rfl⟩
        · exact ⟨cs, false, hcs, hb, rfl⟩

/-- The least number has no boolean, and is found again behind zeros and between blank characters. -/
theorem convert_exact_least :
    let least : Value := .int Int64.minValue
    (Conversion.classify least.ty .bool = .none ∧
      least.convert .bool = .error (.invalidConversion "-9223372036854775808" "bool")) ∧
    (Conversion.classify least.ty .int = .identity ∧ least.convert .int = .ok least) ∧
    (least.ty ≠ .string ∧
      ∃ s, least.convert .string = .ok (.string s) ∧ (string s).convert .int = .ok least) ∧
    (string "\u2003-0009223372036854775808\n").convert .int = .ok least ∧
    (string "\ttRuE").convert .bool = .ok (.bool true) := by
  intro least
  obtain ⟨htable, hback, hread⟩ := convert_exact
  refine ⟨⟨rfl, ?_⟩, ⟨rfl, (htable least .int).2.1 rfl⟩, ⟨by decide, hback least (by decide)⟩, ?_, ?_⟩
  · exact (htable least .bool).1 rfl
  · have hdigits : Text.Digits "0009223372036854775808".toList :=
      ⟨by simp, List.all_eq_true.mp (by decide)⟩
    have hdecimal : Text.decimal "0009223372036854775808".toList = 9223372036854775808 := by
      decide +kernel
    have hnumeral := Text.Numeral.minus hdigits
    rw [hdecimal] at hnumeral
    have htrimmed : Text.Trimmed "\u2003-0009223372036854775808\n".toList
        ('-' :: "0009223372036854775808".toList) :=
      ⟨['\u2003'], ['\n'], by decide +kernel, List.all_eq_true.mp (by decide), by simp; decide,
        by simp; decide⟩
    exact (hread _ _).1.mpr
      ⟨_, _, htrimmed, hnumeral, by decide, by decide, Int64.minValue, rfl, rfl⟩
  · have htrimmed : Text.Trimmed "\ttRuE".toList "tRuE".toList :=
      ⟨['\t'], [], by decide +kernel, List.all_eq_true.mp (by decide), by simp; decide,
        by simp; decide⟩
    exact (hread _ _).2.mpr ⟨_, htrimmed, .inl ⟨by decide +kernel, rfl⟩⟩

end Value

end ScalarScript
