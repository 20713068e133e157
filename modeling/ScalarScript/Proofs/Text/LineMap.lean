import Mathlib.Data.List.DropRight
import ScalarScript.Text.LineMap

set_option autoImplicit false

namespace ScalarScript

namespace Text

def bytes (text : String) : List UInt8 := text.toUTF8.data.toList

def lineFeed : UInt8 := 10

theorem bytes_eq (text : String) : bytes text = text.toList.flatMap String.utf8EncodeChar := by
  rw [bytes, String.toUTF8_eq_toByteArray, ← String.utf8Encode_toList, List.utf8Encode]
  exact List.toList_data_toByteArray

theorem lineFeed_notMem_map (ns : List Nat) (h : ∀ n ∈ ns, n ≠ 10 ∧ n < 256) :
    lineFeed ∉ ns.map UInt8.ofNat := by
  intro hmem
  obtain ⟨n, hn, heq⟩ := List.mem_map.mp hmem
  have hnat := congrArg UInt8.toNat heq
  rw [UInt8.toNat_ofNat_of_lt' (h n hn).2] at hnat
  exact (h n hn).1 hnat

theorem lineFeed_notMem_encode {c : Char} (h : c ≠ '\n') :
    lineFeed ∉ String.utf8EncodeChar c := by
  have hc : c.val.toNat ≠ 10 := fun heq => h (Char.ext (UInt32.toNat_inj.mp heq))
  unfold String.utf8EncodeChar
  generalize c.val.toNat = n at hc
  simp only
  -- from the second case on every byte is 128 or more
  split
  · exact lineFeed_notMem_map [n] (by simp; omega)
  · split
    · exact lineFeed_notMem_map [n / 64 % 32 + 192, n % 64 + 128] (by simp; omega)
    · split
      · exact lineFeed_notMem_map [n / 4096 % 16 + 224, n / 64 % 64 + 128, n % 64 + 128]
          (by simp; omega)
      · exact lineFeed_notMem_map
          [n / 262144 % 8 + 240, n / 4096 % 64 + 128, n / 64 % 64 + 128, n % 64 + 128]
          (by simp; omega)

end Text

open Text

namespace LineMap

theorem startsAfter_eq (position : Nat) (cs : List Char) :
    startsAfter position cs =
      (cs.flatMap String.utf8EncodeChar).idxsOf lineFeed (position + 1) := by
  induction cs generalizing position with
  | nil => rfl
  | cons c cs ih =>
    rw [startsAfter, List.flatMap_cons, List.idxsOf_append, String.length_utf8EncodeChar, ih,
      Nat.add_right_comm]
    split
    · rename_i hc
      subst hc
      rfl
    · rename_i hc
      have hnone : (String.utf8EncodeChar c).idxsOf lineFeed (position + 1) = [] :=
        List.idxsOf_eq_nil_iff.mpr fun b hb =>
          beq_eq_false_iff_ne.mpr fun heq => lineFeed_notMem_encode hc (heq ▸ hb)
      rw [hnone, List.nil_append]

theorem laterStarts_ofText (text : String) :
    (ofText text).laterStarts = (bytes text).idxsOf lineFeed 1 := by
  rw [bytes_eq]
  exact startsAfter_eq 0 text.toList

theorem mem_laterStarts {text : String} {start : Nat} :
    start ∈ (ofText text).laterStarts ↔ 0 < start ∧ (bytes text)[start - 1]? = some lineFeed := by
  rw [laterStarts_ofText, List.mem_idxsOf_iff_getElem_sub_pos]
  simp [List.getElem?_eq_some_iff, Nat.succ_le_iff]

theorem takeWhile_idxsOf (position : Nat) (bs : List UInt8) :
    (bs.idxsOf lineFeed 1).takeWhile (· ≤ position) = (bs.take position).idxsOf lineFeed 1 := by
  have hlater (s : Nat) (hs : s = 1 + (bs.take position).length) :
      ((bs.drop position).idxsOf lineFeed s).takeWhile (· ≤ position) = [] := by
    rw [List.length_take] at hs
    refine List.takeWhile_eq_nil_iff.mpr fun hlength => ?_
    obtain ⟨hstart, hdrop, -⟩ := List.mem_idxsOf_iff_getElem_sub_pos.mp (List.getElem_mem hlength)
    rw [List.length_drop] at hdrop
    simp only [List.get_eq_getElem, decide_eq_true_eq]
    omega
  conv_lhs => rw [← List.take_append_drop position bs, List.idxsOf_append]
  rw [List.takeWhile_append_of_pos, hlater _ rfl, List.append_nil]
  intro start hstart
  obtain ⟨-, hlength, -⟩ := List.mem_idxsOf_iff_getElem_sub_pos.mp hstart
  rw [List.length_take] at hlength
  simp only [decide_eq_true_eq]
  omega

theorem getLast?_idxsOf (bs : List UInt8) :
    (bs.idxsOf lineFeed 1).getLast?.getD 0 + (bs.rtakeWhile (· != lineFeed)).length =
      bs.length := by
  induction bs using List.reverseRecOn with
  | nil => rfl
  | append_singleton bs b ih =>
    rw [List.idxsOf_append, List.rtakeWhile_concat, List.idxsOf_cons, List.idxsOf_nil,
      List.length_append, List.length_singleton]
    by_cases hb : b = lineFeed
    · simp [hb, Nat.add_comm]
    · simp [hb, ← ih, Nat.add_assoc]

/-- The place of a position by the bytes before it, and its distance from the end if it is beyond
that. -/
theorem place_ofText (text : String) (position : Nat) :
    (ofText text).place position = ⟨((bytes text).take position).count lineFeed,
      (((bytes text).take position).rtakeWhile (· != lineFeed)).length +
        (position - (bytes text).length)⟩ := by
  have hlast := getLast?_idxsOf ((bytes text).take position)
  rw [List.length_take] at hlast
  rw [place, laterStarts_ofText, takeWhile_idxsOf, List.length_idxsOf]
  refine congrArg (Place.mk _) ?_
  omega

theorem lineCount_ofText (text : String) :
    (ofText text).lineCount = (bytes text).count lineFeed + 1 := by
  rw [lineCount, laterStarts_ofText, List.length_idxsOf]

theorem line_beyond (text : String) (beyond : Nat) :
    ((ofText text).place ((bytes text).length + beyond)).line + 1 = (ofText text).lineCount := by
  rw [place_ofText, lineCount_ofText, List.take_of_length_le (Nat.le_add_right _ _)]

theorem starts_ascend (text : String) : (0 :: (ofText text).laterStarts).Pairwise (· < ·) := by
  refine List.pairwise_cons.mpr ⟨fun start hstart => (mem_laterStarts.mp hstart).1, ?_⟩
  rw [laterStarts_ofText]
  exact List.pairwise_idxsOf

variable (lines : LineMap)

def position? (place : Place) : Option Nat :=
  (0 :: lines.laterStarts)[place.line]?.map (· + place.column)

theorem getElem?_length {begun starts : List Nat} (h : begun <+: starts) :
    (0 :: starts)[begun.length]? = some (begun.getLast?.getD 0) := by
  obtain ⟨later, rfl⟩ := h
  obtain rfl | ⟨earlier, last, rfl⟩ := List.eq_nil_or_concat begun
  · rfl
  · simp

theorem last_begun_le (starts : List Nat) (position : Nat) :
    (starts.takeWhile (· ≤ position)).getLast?.getD 0 ≤ position := by
  cases hlast : (starts.takeWhile (· ≤ position)).getLast? with
  | none => exact Nat.zero_le position
  | some last =>
    have hlast := List.mem_takeWhile_imp (List.mem_of_getLast? hlast)
    exact of_decide_eq_true hlast

theorem exists_start (position : Nat) :
    ∃ start, (0 :: lines.laterStarts)[(lines.place position).line]? = some start ∧
      start + (lines.place position).column = position :=
  ⟨_, getElem?_length (List.takeWhile_prefix _),
    Nat.add_sub_cancel' (last_begun_le lines.laterStarts position)⟩

theorem position?_place (position : Nat) :
    lines.position? (lines.place position) = some position := by
  obtain ⟨start, hstart, hposition⟩ := lines.exists_start position
  rw [position?, hstart, Option.map_some, hposition]

theorem line_lt_lineCount (position : Nat) : (lines.place position).line < lines.lineCount :=
  Nat.lt_succ_of_le (List.takeWhile_prefix _).length_le

theorem line_le_line {p q : Nat} (h : p ≤ q) : (lines.place p).line ≤ (lines.place q).line := by
  have hboth : lines.laterStarts.takeWhile (· ≤ p) =
      (lines.laterStarts.takeWhile (· ≤ q)).takeWhile (· ≤ p) := by
    rw [List.takeWhile_takeWhile]
    refine congrArg (lines.laterStarts.takeWhile ·) (funext fun start => ?_)
    simp only [decide_eq_true_eq, decide_eq_decide]
    omega
  rw [place, hboth]
  exact (List.takeWhile_prefix _).length_le

end LineMap

/-- The order in which a reader meets places. -/
def Place.Before (p q : Place) : Prop := p.line < q.line ∨ p.line = q.line ∧ p.column < q.column

namespace LineMap

variable (lines : LineMap)

theorem before_of_lt {p q : Nat} (h : p < q) : (lines.place p).Before (lines.place q) := by
  obtain ⟨start, hstart, hp⟩ := lines.exists_start p
  obtain ⟨start', hstart', hq⟩ := lines.exists_start q
  obtain hline | hline := Nat.lt_or_eq_of_le (lines.line_le_line (Nat.le_of_lt h))
  · exact .inl hline
  · rw [hline, hstart'] at hstart
    obtain rfl := Option.some.inj hstart
    exact .inr ⟨hline, by omega⟩

theorem lt_iff_before (p q : Nat) : p < q ↔ (lines.place p).Before (lines.place q) := by
  refine ⟨lines.before_of_lt, fun hbefore => ?_⟩
  by_contra hlt
  obtain rfl | hlt := Nat.eq_or_lt_of_le (Nat.not_lt.mp hlt)
  · unfold Place.Before at hbefore
    omega
  · have hafter := lines.before_of_lt hlt
    unfold Place.Before at hbefore hafter
    omega

/-- The line of a position is the number of line feeds before it, and the column is the number of
bytes behind the last of these, or behind the start; beyond the end it counts on in the last line.
A place gives its position back, positions are in the order of their places, and lines are below the
number of lines. The table ascends and holds the ends of the line feeds. -/
theorem places_of_text (text : String) :
    let bytes := Text.bytes text
    let lines := ofText text
    (∀ position, lines.place position = ⟨(bytes.take position).count lineFeed,
          ((bytes.take position).rtakeWhile (· != lineFeed)).length + (position - bytes.length)⟩ ∧
        lines.position? (lines.place position) = some position ∧
        (lines.place position).line < lines.lineCount) ∧
      (∀ beyond, (lines.place (bytes.length + beyond)).line + 1 = lines.lineCount) ∧
      (∀ p q, p < q ↔ (lines.place p).Before (lines.place q)) ∧
      (0 :: lines.laterStarts).Pairwise (· < ·) ∧
      ∀ start, start ∈ lines.laterStarts ↔ 0 < start ∧ bytes[start - 1]? = some lineFeed :=
  ⟨fun position => ⟨place_ofText text position, position?_place _ position,
      line_lt_lineCount _ position⟩,
    line_beyond text, lt_iff_before _, starts_ascend text, fun _ => mem_laterStarts⟩

example : [0, 10, 11, 13, 22].map (ofText "let a = 1\r\nwrite(\"x\")\nfor").place =
    [⟨0, 0⟩, ⟨0, 10⟩, ⟨1, 0⟩, ⟨1, 2⟩, ⟨2, 0⟩] := by decide

end LineMap

end ScalarScript
