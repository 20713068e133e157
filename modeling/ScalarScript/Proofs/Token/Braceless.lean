import Mathlib.Data.List.TakeWhile
import ScalarScript.Proofs.Text.Numerals
import ScalarScript.Proofs.Token.Cutting

set_option autoImplicit false

namespace ScalarScript

open Text

def Text.Braceless (cs : List Char) : Prop := ∀ c ∈ cs, c ≠ '{' ∧ c ≠ '}'

instance (cs : List Char) : Decidable (Braceless cs) :=
  List.decidableBAll (fun c => c ≠ '{' ∧ c ≠ '}') cs

namespace Text.Braceless

variable {c : Char} {cs : List Char} {p : Char → Bool}

theorem nil : Braceless [] := List.forall_mem_nil _

theorem cons : Braceless (c :: cs) ↔ (c ≠ '{' ∧ c ≠ '}') ∧ Braceless cs := List.forall_mem_cons

theorem single (hc : c ≠ '{' ∧ c ≠ '}') : Braceless [c] := cons.mpr ⟨hc, nil⟩

theorem of_forall (hopen : p '{' = false) (hclose : p '}' = false) (h : ∀ c ∈ cs, p c = true) :
    Braceless cs := by
  intro c hc
  have hp := h c hc
  constructor <;> rintro rfl
  · rw [hopen] at hp
    cases hp
  · rw [hclose] at hp
    cases hp

theorem takeWhile (hopen : p '{' = false) (hclose : p '}' = false) (cs : List Char) :
    Braceless (cs.takeWhile p) := of_forall hopen hclose fun _ hc => List.mem_takeWhile_imp hc

theorem toDigits (n : Nat) : Braceless (Nat.toDigits 10 n) :=
  of_forall (by decide) (by decide) (digits_toDigits n).2

end Text.Braceless

def TokenKind.hasBraces : TokenKind → Bool
  | .openBrace | .closeBrace | .string => true
  | _ => false

def Fault.Braceless (fault : Fault) : Prop := ∀ a ∈ fault.arguments, Text.Braceless a.toList

namespace Munch

/-- The token has no brace, if it is of no kind that may have them, nor has what its fault is of. -/
structure Braceless (m : Munch) : Prop where
  taken : m.kind.hasBraces = false → Text.Braceless m.taken
  fault : ∀ fault ∈ m.fault, fault.Braceless

variable {c : Char} (hc : c ≠ '{' ∧ c ≠ '}')

theorem braceless_plain {taken : List Char} (h : Text.Braceless taken) (kind : TokenKind)
    (rest : List Char) : (plain kind taken rest).Braceless := ⟨fun _ => h, nofun⟩

include hc

theorem braceless_bad (rest : List Char) : (bad c rest).Braceless := by
  have htaken : Text.Braceless [c] := Text.Braceless.single hc
  refine ⟨fun _ => htaken, fun fault hfault => ?_⟩
  obtain rfl := Option.mem_some.mp hfault
  simpa [Fault.Braceless, Fault.arguments] using htaken

theorem braceless_withEquals (alone followed : TokenKind) (rest : List Char) :
    (withEquals alone followed c rest).Braceless := by
  unfold withEquals
  split
  · exact braceless_plain (Text.Braceless.cons.mpr ⟨hc, by decide⟩) _ _
  · exact braceless_plain (.single hc) _ _

theorem braceless_doubled (kind : TokenKind) (rest : List Char) :
    (doubled kind c rest).Braceless := by
  unfold doubled
  split
  · exact braceless_bad hc _
  · split
    · exact braceless_plain (Text.Braceless.cons.mpr ⟨hc, .single hc⟩) _ _
    · exact braceless_bad hc _

theorem braceless_number (rest : List Char) : (number c rest).Braceless := by
  have hdigits : Text.Braceless (c :: rest.takeWhile isDigit) :=
    Text.Braceless.cons.mpr ⟨hc, .takeWhile (by decide) (by decide) rest⟩
  unfold number
  dsimp only
  split
  · exact ⟨fun _ => hdigits, nofun⟩
  · refine ⟨fun _ => hdigits, fun fault hfault => ?_⟩
    obtain rfl := Option.mem_some.mp hfault
    simp only [Fault.Braceless, Fault.arguments, List.forall_mem_cons, String.toList_ofList]
    exact ⟨hdigits, by decide, nofun⟩

omit hc in
theorem braceless_string (rest : List Char) : (string rest).Braceless := by
  refine ⟨nofun, fun fault hfault => ?_⟩
  unfold string at hfault
  dsimp only at hfault
  split at hfault
  · cases hfault
  · obtain rfl := Option.mem_some.mp hfault
    exact nofun

theorem braceless_ofText_of_ne : ∀ rest, (ofText c rest).Braceless := by
  refine ofText_cases (P := fun f => ∀ rest, (f rest).Braceless) ?_ ?_ ?_ ?_ ?_ ?_ ?_ ?_
  · exact fun kind _ rest => braceless_plain (.single hc) kind rest
  · exact fun alone followed _ _ rest => braceless_withEquals hc alone followed rest
  · exact fun kind _ rest => braceless_doubled hc kind rest
  · exact fun _ rest => braceless_string rest
  · exact fun _ rest => braceless_number hc rest
  · refine fun _ rest => braceless_plain (Text.Braceless.cons.mpr ⟨hc, ?_⟩) _ _
    exact .takeWhile (by decide) (by decide) rest
  · refine fun _ rest => braceless_plain (Text.Braceless.cons.mpr ⟨hc, ?_⟩) _ _
    exact .takeWhile (by decide) (by decide) rest
  · exact fun rest => braceless_bad hc rest

omit hc in
theorem braceless_ofText (c : Char) (rest : List Char) : (ofText c rest).Braceless := by
  by_cases hopen : c = '{'
  · subst hopen
    exact ⟨nofun, nofun⟩
  by_cases hclose : c = '}'
  · subst hclose
    exact ⟨nofun, nofun⟩
  exact braceless_ofText_of_ne ⟨hopen, hclose⟩ rest

end Munch

namespace Lexeme

variable {text : String} {l : Lexeme}

theorem braceless_text (hl : l ∈ ofText text) (hkind : l.token.kind.hasBraces = false) :
    Braceless l.token.text.toList := by
  rcases exists_of_mem hl with rfl | ⟨before, c, rest, -, rfl⟩
  · exact nofun
  · rw [Munch.lexeme, String.toList_ofList]
    exact (Munch.braceless_ofText c rest).taken hkind

theorem braceless_fault {d : Diagnostic} (hd : d ∈ diagnostics (ofText text)) :
    d.fault.Braceless := by
  obtain ⟨l, hl, hdl⟩ := List.mem_filterMap.mp hd
  rcases exists_of_mem hl with rfl | ⟨before, c, rest, -, rfl⟩
  · cases hdl
  · obtain ⟨fault, hfault, rfl⟩ := Option.map_eq_some_iff.mp hdl
    exact (Munch.braceless_ofText c rest).fault fault hfault

end Lexeme

end ScalarScript
