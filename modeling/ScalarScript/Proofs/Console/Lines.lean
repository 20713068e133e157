import ScalarScript.Console.Repl
import ScalarScript.Proofs.Running.Effects
import ScalarScript.Proofs.Session.Steps

/-!
What the loop does with its input. It takes the lines block by block: a blank line, a line for the
loop itself, or the lines of one submission together with those that its program reads. What is left
at the end are lines that were never complete, the line that ends the loop and all behind it, or a
submission that is left off because its program takes more rounds than it was given.
-/

set_option autoImplicit false

namespace ScalarScript

theorem Session.pending_run (s : Session) (rounds : Nat) (c : Compilation) :
    (s.run rounds c).2.host.pending <:+ s.host.pending := by
  have hreads := c.snapshot.action.reads_run rounds s.machine
  obtain ⟨-, hrun⟩ | ⟨-, m, haction, hrun⟩ | ⟨-, halt, m, haction, hrun⟩ := s.run_cases rounds c
  · simp only [hrun, List.suffix_rfl]
  · rw [hrun]
    rwa [haction] at hreads
  · rw [hrun]
    rwa [haction] at hreads

namespace Console

variable {console : Console}

def pending (console : Console) : List String := console.session.host.pending

def facing (console : Console) (lines : List String) : Console :=
  let host := { console.session.host with pending := lines }
  { console with session := { console.session with host } }

@[simp] theorem pending_facing (lines : List String) : (console.facing lines).pending = lines := rfl

theorem submit_suffix (console : Console) (origin : Origin) (name : String)
    (fragment : Fragment) :
    (console.submit origin name fragment).2.2.pending <:+ console.pending := by
  have hrun := console.session.pending_run console.rounds (console.session.compile fragment)
  simp only [submit]
  exact hrun

/-- The marks before as many lines: only that before the first says that nothing was gathered. -/
def prompts (console : Console) (n : Nat) : List Printed :=
  (List.range n).map fun i => .text (console.style.paint .green (if i = 0 then "» " else "· "))

theorem prompts_succ (n : Nat) : console.prompts (n + 1) =
    console.prompts n ++ [.text (console.style.paint .green (if n = 0 then "» " else "· "))] := by
  simp [prompts, List.range_succ]

end Console

/-! Which lines make a submission. -/

namespace Repl

def textOf (lines : List String) : String := String.join (lines.map (· ++ "\n"))

inductive Opening where
  | blank
  | command
  | text
  deriving DecidableEq, Repr

def opening (line : String) : Opening :=
  if Text.allBlank line then .blank
  else if line.toList.head? = some '#' then .command
  else .text

def Opens (kind : Opening) (lines : List String) : Prop :=
  ∃ line ∈ lines.head?, opening line = kind

def Complete (lines : List String) : Prop :=
  (Fragment.ofText (textOf lines)).diagnostics = [] ∨
    ∃ line ∈ lines.getLast?, Text.allBlank line = true

/-- The lines begin a submission and were not complete so far. -/
def Awaiting (lines : List String) : Prop :=
  ∀ front, front <+: lines → front ≠ [] → Opens .text front ∧ ¬Complete front

/-- The lines make one submission: they are complete with the last of them, and not before. -/
structure Submitted (lines : List String) : Prop where
  opens : Opens .text lines
  complete : Complete lines
  least : ∀ front, front <+: lines → front ≠ [] → front ≠ lines → ¬Complete front

variable {front : List String} {line : String}

theorem textOf_concat : textOf (front ++ [line]) = textOf front ++ line ++ "\n" := by
  simp [textOf, String.append_assoc]

theorem textOf_isEmpty : (textOf front).isEmpty = front.isEmpty := by
  cases front with
  | nil => rfl
  | cons line rest => simp [textOf, String.join_cons]

theorem awaiting_nil : Awaiting [] := fun _ h hne => absurd (List.prefix_nil.mp h) hne

theorem Awaiting.concat (h : Awaiting front) (hopens : Opens .text (front ++ [line]))
    (hcomplete : ¬Complete (front ++ [line])) : Awaiting (front ++ [line]) := by
  intro lines hlines hne
  obtain rfl | hlines := List.prefix_concat_iff.mp hlines
  · exact ⟨hopens, hcomplete⟩
  · exact h lines hlines hne

theorem Awaiting.submitted (h : Awaiting front) (hopens : Opens .text (front ++ [line]))
    (hcomplete : Complete (front ++ [line])) : Submitted (front ++ [line]) := by
  refine ⟨hopens, hcomplete, fun lines hlines hne hshort => ?_⟩
  obtain rfl | hlines := List.prefix_concat_iff.mp hlines
  · exact absurd rfl hshort
  · exact (h lines hlines hne).2

theorem isComplete_iff : (Fragment.ofText (textOf (front ++ [line]))).isComplete
    (Text.allBlank line) = true ↔ Complete (front ++ [line]) := by
  simp [Fragment.isComplete, Fragment.hasErrors, Complete, or_comm]

theorem ofLine_of_blank (h : opening line = .blank) :
    LineUse.ofLine (textOf []) line = .skipped := by
  have hblank : Text.allBlank line = true := by
    by_contra hblank
    rw [opening, if_neg hblank] at h
    split at h <;> cases h
  simp [LineUse.ofLine, textOf_isEmpty, hblank]

theorem ofLine_of_command (h : opening line = .command) :
    LineUse.ofLine (textOf []) line = .command line (MetaCommand.ofLine? line) := by
  unfold opening at h
  split at h
  · cases h
  · rename_i hblank
    split at h
    · rename_i hcommand
      simp [LineUse.ofLine, textOf_isEmpty, hblank, hcommand]
    · cases h

theorem ofLine_of_text (h : Opens .text (front ++ [line])) :
    LineUse.ofLine (textOf front) line =
      if (Fragment.ofText (textOf (front ++ [line]))).isComplete (Text.allBlank line) then
        .submitted (.ofText (textOf (front ++ [line])))
      else .gathered (textOf (front ++ [line])) := by
  have hline (hfront : front = []) :
      ¬Text.allBlank line = true ∧ ¬line.toList.head? = some '#' := by
    subst hfront
    obtain ⟨first, hhead, h⟩ := h
    obtain rfl : line = first := Option.some.inj hhead
    unfold opening at h
    split at h
    · cases h
    · split at h
      · cases h
      · exact ⟨‹_›, ‹_›⟩
  simp only [LineUse.ofLine, textOf_isEmpty, List.isEmpty_iff, textOf_concat]
  rw [if_neg fun hblank => (hline hblank.1).1 hblank.2,
    if_neg fun hcommand => (hline hcommand.1).2 hcommand.2]

theorem ofLine_cases (h : Awaiting front) (line : String) :
    (front = [] ∧ opening line = .blank ∧ LineUse.ofLine (textOf front) line = .skipped) ∨
      (front = [] ∧ opening line = .command ∧
        LineUse.ofLine (textOf front) line = .command line (MetaCommand.ofLine? line)) ∨
      (Submitted (front ++ [line]) ∧ LineUse.ofLine (textOf front) line =
        .submitted (.ofText (textOf (front ++ [line])))) ∨
      (Awaiting (front ++ [line]) ∧
        LineUse.ofLine (textOf front) line = .gathered (textOf (front ++ [line]))) := by
  have hgathered (hopens : Opens .text (front ++ [line])) :
      (Submitted (front ++ [line]) ∧ LineUse.ofLine (textOf front) line =
        .submitted (.ofText (textOf (front ++ [line])))) ∨
      (Awaiting (front ++ [line]) ∧
        LineUse.ofLine (textOf front) line = .gathered (textOf (front ++ [line]))) := by
    rw [ofLine_of_text hopens]
    split
    · rename_i hcomplete
      exact .inl ⟨h.submitted hopens (isComplete_iff.mp hcomplete), rfl⟩
    · rename_i hcomplete
      exact .inr ⟨h.concat hopens (mt isComplete_iff.mpr hcomplete), rfl⟩
  by_cases hfront : front = []
  · subst hfront
    cases hopening : opening line with
    | blank => exact .inl ⟨rfl, rfl, ofLine_of_blank hopening⟩
    | command => exact .inr (.inl ⟨rfl, rfl, ofLine_of_command hopening⟩)
    | text => exact .inr (.inr (hgathered ⟨line, rfl, hopening⟩))
  · obtain ⟨first, hhead, hopening⟩ := (h front List.prefix_rfl hfront).1
    have hopens : Opens .text (front ++ [line]) :=
      ⟨first, by rwa [List.head?_append_of_ne_nil front hfront], hopening⟩
    exact .inr (.inr (hgathered hopens))

/-! The blocks. -/

end Repl

namespace MetaCommand

def word : MetaCommand → String
  | .showTree => "showTree"
  | .showProgram => "showProgram"
  | .reset => "reset"
  | .clear => "cls"
  | .exit => "exit"

theorem ofWord?_eq_some {word : String} {command : MetaCommand} :
    ofWord? word = some command ↔ word = command.word := by
  constructor
  · intro h
    unfold ofWord? at h
    split at h <;> cases h <;> rfl
  · rintro rfl
    cases command <;> rfl

theorem ofLine?_eq_some {line : String} {command : MetaCommand} :
    ofLine? line = some command ↔ Text.trimmed line = "#" ++ command.word := by
  have hword (word : List Char) :
      String.ofList ('#' :: word) = "#" ++ command.word ↔ String.ofList word = command.word := by
    simp [← String.toList_inj]
  unfold ofLine? Text.trimmed
  split
  · rename_i word htrim
    rw [htrim, hword, ofWord?_eq_some]
  · rename_i hother
    refine iff_of_false nofun fun h => ?_
    have hlist := String.toList_inj.mpr h
    rw [String.toList_ofList, String.toList_append] at hlist
    exact hother _ hlist

theorem ofLine?_eq_exit {line : String} :
    ofLine? line = some .exit ↔ Text.trimmed line = "#" ++ "exit" := ofLine?_eq_some

end MetaCommand

namespace Repl

variable {front : List String} {line : String}

def heed (console : Console) (line : String) : List Printed × Console :=
  match MetaCommand.ofLine? line with
  | some command => apply console command
  | none => ([console.style.error ("invalid command " ++ Text.trimmed line)], console)

theorem pending_heed (console : Console) (line : String) :
    (heed console line).2.pending = console.pending := by
  unfold heed
  split
  · rename_i command _
    cases command <;> rfl
  · rfl

theorem step_heed {console : Console} (huse : LineUse.ofLine "" line =
      .command line (MetaCommand.ofLine? line)) (hexit : Text.trimmed line ≠ "#" ++ "exit") :
    step ⟨console, ""⟩ line = ((heed console line).1, some ⟨(heed console line).2, ""⟩) := by
  have hexit : MetaCommand.ofLine? line ≠ some .exit := mt MetaCommand.ofLine?_eq_exit.mp hexit
  rw [step, huse, heed]
  cases hcommand : MetaCommand.ofLine? line with
  | none => rfl
  | some command =>
    cases command with
    | exit => exact absurd hcommand hexit
    | _ => rfl

/-- What lines that make a submission do: what is shown, and the console behind it, unless the
program is left off. -/
def submit (console : Console) (lines : List String) : List Printed × Option Console :=
  let (verdict, shown, console) := console.submit .typed "repl" (.ofText (textOf lines))
  (shown, if verdict = .unfinished then none else some console)

theorem pending_submit {console console' : Console} {lines : List String} {shown : List Printed}
    (h : submit console lines = (shown, some console')) :
    console'.pending <:+ console.pending := by
  have hsuffix := console.submit_suffix .typed "repl" (.ofText (textOf lines))
  simp only [submit, Prod.mk.injEq, ite_eq_iff, Option.some.injEq, reduceCtorEq, and_false,
    false_or] at h
  rwa [h.2.2] at hsuffix

theorem step_submitted (console : Console)
    (huse : LineUse.ofLine (textOf front) line = .submitted (.ofText (textOf (front ++ [line])))) :
    step ⟨console, textOf front⟩ line =
      ((submit console (front ++ [line])).1,
        (submit console (front ++ [line])).2.map fun console => ⟨console, ""⟩) := by
  rw [step, huse, submit]
  dsimp only
  split <;> rfl

inductive Block where
  | skipped (line : String)
  | command (line : String)
  /-- The lines of a submission, and those behind them that its program reads. -/
  | submission (lines taken : List String)
  deriving DecidableEq, Repr

namespace Block

def read : Block → List String
  | .skipped line | .command line => [line]
  | .submission lines _ => lines

def taken : Block → List String
  | .skipped _ | .command _ => []
  | .submission _ taken => taken

inductive Proper : Block → Prop where
  | skipped {line : String} (h : opening line = .blank) : Proper (.skipped line)
  | command {line : String} (h : opening line = .command)
      (hexit : Text.trimmed line ≠ "#" ++ "exit") : Proper (.command line)
  | submission {lines : List String} (h : Submitted lines) (taken : List String) :
      Proper (.submission lines taken)

/-- What a block that was read does at the console: what is shown, and the console behind it, unless
the loop does not come to it. -/
def serve (console : Console) : Block → List Printed × Option Console
  | .skipped _ => ([], some console)
  | .command line => ((heed console line).1, some (heed console line).2)
  | .submission lines _ => submit console lines

end Block

inductive Ending where
  | exhausted (gathered : List String)
  | exit (line : String) (unread : List String)
  /-- In a submission whose program is left off. It alone can read the lines behind. -/
  | unfinished (lines behind : List String)
  deriving DecidableEq, Repr

namespace Ending

def lines : Ending → List String
  | .exhausted gathered => gathered
  | .exit line unread => line :: unread
  | .unfinished lines behind => lines ++ behind

def promptCount : Ending → Nat
  | .exhausted gathered => gathered.length + 1
  | .exit _ _ => 1
  | .unfinished lines _ => lines.length

inductive Proper (console : Console) : Ending → List Printed → Prop where
  | exhausted {gathered : List String} (h : Awaiting gathered) :
      Proper console (.exhausted gathered) []
  | exit {line : String} (h : opening line = .command) (hexit : Text.trimmed line = "#" ++ "exit")
      (unread : List String) : Proper console (.exit line unread) []
  | unfinished {lines behind : List String} {shown : List Printed} (h : Submitted lines)
      (hsubmit : submit (console.facing behind) lines = (shown, none)) :
      Proper console (.unfinished lines behind) shown

end Ending

/-- The console serves these blocks one after another and ends so, and this is what is shown. Each
block begins where the one before it ended, behind the lines that a program read. -/
inductive Serves : Console → List Block → Ending → List Printed → Prop where
  | last {console : Console} {ending : Ending} {shown : List Printed}
      (hproper : ending.Proper console shown) (hpending : console.pending = ending.lines) :
      Serves console [] ending (console.prompts ending.promptCount ++ shown)
  | next {console console' : Console} {block : Block} {blocks : List Block} {ending : Ending}
      {shown printed : List Printed} (hproper : block.Proper)
      (hpending : console.pending = block.read ++ (block.taken ++ console'.pending))
      (hserve : block.serve (console.facing (block.taken ++ console'.pending)) =
        (shown, some console'))
      (hrest : Serves console' blocks ending printed) :
      Serves console (block :: blocks) ending
        (console.prompts block.read.length ++ shown ++ printed)

theorem Serves.lines {console : Console} {blocks : List Block} {ending : Ending}
    {printed : List Printed} (h : Serves console blocks ending printed) :
    console.pending = (blocks.flatMap fun block => block.read ++ block.taken) ++ ending.lines := by
  induction h with
  | last _ hpending => exact hpending
  | next _ hpending _ _ ih => rw [hpending, ih]; simp

/-! The loop serves blocks. -/

section

variable {console : Console} {gathered : String} {rest : List String}

theorem runWithin_nil (h : console.pending = []) (fuel : Nat) :
    runWithin fuel ⟨console, gathered⟩ = [prompt ⟨console, gathered⟩] := by
  cases fuel with
  | zero => rfl
  | succ fuel =>
    have htake : takeLine? ⟨console, gathered⟩ = none := by
      unfold takeLine?
      rw [show console.session.host.pending = [] from h]
    rw [runWithin, htake]

theorem takeLine?_cons (h : console.pending = line :: rest) :
    takeLine? ⟨console, gathered⟩ = some (line, ⟨console.facing rest, gathered⟩) := by
  unfold takeLine?
  rw [show console.session.host.pending = line :: rest from h]
  rfl

theorem prompts_concat (console : Console) (front : List String) :
    console.prompts (front.length + 1) =
      console.prompts front.length ++ [prompt ⟨console, textOf front⟩] := by
  rw [Console.prompts_succ, prompt, textOf_isEmpty]
  cases front <;> rfl

theorem runWithin_of_end (h : console.pending = line :: rest) {printed : List Printed}
    (hstep : step ⟨console.facing rest, textOf front⟩ line = (printed, none)) (fuel : Nat) :
    console.prompts front.length ++ runWithin (fuel + 1) ⟨console, textOf front⟩ =
      console.prompts (front.length + 1) ++ printed := by
  rw [prompts_concat]
  simp [runWithin, takeLine?_cons h, hstep]

theorem runWithin_of_step (h : console.pending = line :: rest) {printed : List Printed}
    {repl : Repl} (hstep : step ⟨console.facing rest, textOf front⟩ line = (printed, some repl))
    (fuel : Nat) :
    console.prompts front.length ++ runWithin (fuel + 1) ⟨console, textOf front⟩ =
      console.prompts (front.length + 1) ++ printed ++ runWithin fuel repl := by
  rw [prompts_concat]
  simp [runWithin, takeLine?_cons h, hstep]

end

section

variable {console : Console} {rest : List String} {blocks : List Block} {ending : Ending}

theorem append_pending (h : console.pending = line :: rest) :
    front ++ console.pending = front ++ [line] ++ rest := by
  rw [h, List.append_assoc, List.singleton_append]

theorem serves_exhausted (h : Awaiting front) (hpending : console.pending = []) (fuel : Nat) :
    Serves (console.facing (front ++ console.pending)) [] (.exhausted front)
      (console.prompts front.length ++ runWithin fuel ⟨console, textOf front⟩) := by
  have hlast : Serves (console.facing front) [] (.exhausted front)
      (console.prompts (front.length + 1) ++ []) := .last (.exhausted h) rfl
  rw [List.append_nil] at hlast
  rw [runWithin_nil hpending, ← prompts_concat, hpending, List.append_nil]
  exact hlast

theorem serves_block {block : Block} (hproper : block.Proper) (hread : block.read = front ++ [line])
    (hpending : console.pending = line :: rest) {shown : List Printed} {console' : Console}
    (hserve : block.serve (console.facing rest) = (shown, some console'))
    (hstep : step ⟨console.facing rest, textOf front⟩ line = (shown, some ⟨console', ""⟩))
    (htaken : rest = block.taken ++ console'.pending) {fuel : Nat}
    (hserves : Serves console' blocks ending (runWithin fuel ⟨console', ""⟩)) :
    Serves (console.facing (front ++ console.pending)) (block :: blocks) ending
      (console.prompts front.length ++ runWithin (fuel + 1) ⟨console, textOf front⟩) := by
  have hinput : (console.facing (front ++ console.pending)).pending =
      block.read ++ (block.taken ++ console'.pending) := by
    rw [Console.pending_facing, append_pending hpending, hread, ← htaken]
  rw [htaken] at hserve
  have hnext := Serves.next hproper hinput hserve hserves
  rw [hread, List.length_append] at hnext
  rw [runWithin_of_step hpending hstep]
  exact hnext

theorem serves_gathered (hpending : console.pending = line :: rest)
    (huse : LineUse.ofLine (textOf front) line = .gathered (textOf (front ++ [line]))) {fuel : Nat}
    (hserves : Serves ((console.facing rest).facing (front ++ [line] ++ rest)) blocks ending
      ((console.facing rest).prompts (front ++ [line]).length ++
        runWithin fuel ⟨console.facing rest, textOf (front ++ [line])⟩)) :
    Serves (console.facing (front ++ console.pending)) blocks ending
      (console.prompts front.length ++ runWithin (fuel + 1) ⟨console, textOf front⟩) := by
  have hstep : step ⟨console.facing rest, textOf front⟩ line =
      ([], some ⟨console.facing rest, textOf (front ++ [line])⟩) := by
    rw [step, huse]
  rw [runWithin_of_step hpending hstep, append_pending hpending, List.append_nil]
  rw [List.length_append] at hserves
  exact hserves

variable {fuel : Nat} (hagain : ∀ console' : Console, console'.pending <:+ rest →
  ∃ blocks ending, Serves console' blocks ending (runWithin fuel ⟨console', ""⟩))

include hagain

theorem serves_skipped (hpending : console.pending = line :: rest) (hblank : opening line = .blank)
    (huse : LineUse.ofLine (textOf []) line = .skipped) :
    ∃ blocks ending, Serves (console.facing ([] ++ console.pending)) blocks ending
      (console.prompts 0 ++ runWithin (fuel + 1) ⟨console, textOf []⟩) := by
  have hstep : step ⟨console.facing rest, textOf []⟩ line =
      ([], some ⟨console.facing rest, ""⟩) := by
    rw [step, huse]
    rfl
  obtain ⟨blocks, ending, hserves⟩ := hagain (console.facing rest) List.suffix_rfl
  exact ⟨_, _, serves_block (.skipped hblank) rfl hpending rfl hstep rfl hserves⟩

theorem serves_command (hpending : console.pending = line :: rest)
    (hcommand : opening line = .command)
    (huse : LineUse.ofLine (textOf []) line = .command line (MetaCommand.ofLine? line)) :
    ∃ blocks ending, Serves (console.facing ([] ++ console.pending)) blocks ending
      (console.prompts 0 ++ runWithin (fuel + 1) ⟨console, textOf []⟩) := by
  by_cases hexit : Text.trimmed line = "#" ++ "exit"
  · have hstep : step ⟨console.facing rest, textOf []⟩ line = ([], none) := by
      rw [step, huse, MetaCommand.ofLine?_eq_exit.mpr hexit]
    have hend : console.prompts 0 ++ runWithin (fuel + 1) ⟨console, textOf []⟩ =
        console.prompts 1 ++ [] := runWithin_of_end hpending hstep fuel
    rw [hend, hpending]
    exact ⟨[], .exit line rest, .last (.exit hcommand hexit rest) rfl⟩
  · have hrest : (heed (console.facing rest) line).2.pending = rest := pending_heed _ line
    obtain ⟨blocks, ending, hserves⟩ := hagain _ ⟨[], hrest⟩
    exact ⟨_, _, serves_block (.command hcommand hexit) rfl hpending rfl (step_heed huse hexit)
      hrest.symm hserves⟩

theorem serves_submission (hpending : console.pending = line :: rest)
    (hsubmitted : Submitted (front ++ [line]))
    (huse : LineUse.ofLine (textOf front) line = .submitted (.ofText (textOf (front ++ [line])))) :
    ∃ blocks ending, Serves (console.facing (front ++ console.pending)) blocks ending
      (console.prompts front.length ++ runWithin (fuel + 1) ⟨console, textOf front⟩) := by
  have hstep := step_submitted (console.facing rest) huse
  cases hsubmit : submit (console.facing rest) (front ++ [line]) with
  | mk shown console? =>
    rw [hsubmit] at hstep
    cases console? with
    | none =>
      have hlast : Serves (console.facing (front ++ [line] ++ rest)) []
          (.unfinished (front ++ [line]) rest)
          (console.prompts (front ++ [line]).length ++ shown) :=
        .last (.unfinished hsubmitted hsubmit) rfl
      rw [runWithin_of_end hpending hstep, append_pending hpending]
      rw [List.length_append] at hlast
      exact ⟨_, _, hlast⟩
    | some console' =>
      obtain ⟨taken, htaken⟩ : console'.pending <:+ rest := pending_submit hsubmit
      obtain ⟨blocks, ending, hserves⟩ := hagain console' ⟨taken, htaken⟩
      exact ⟨_, _, serves_block (.submission hsubmitted taken) rfl hpending hsubmit hstep
        htaken.symm hserves⟩

end

/-- Between two lines the loop shows what is left to be shown of the blocks that begin with the lines
gathered so far. -/
theorem serves_runWithin (fuel : Nat) (console : Console) (front : List String)
    (h : Awaiting front) (hfuel : console.pending.length ≤ fuel) :
    ∃ blocks ending, Serves (console.facing (front ++ console.pending)) blocks ending
      (console.prompts front.length ++ runWithin fuel ⟨console, textOf front⟩) := by
  induction fuel generalizing console front with
  | zero =>
    have hpending : console.pending = [] := List.eq_nil_of_length_eq_zero (Nat.le_zero.mp hfuel)
    exact ⟨_, _, serves_exhausted h hpending 0⟩
  | succ fuel ih =>
    cases hpending : console.pending with
    | nil =>
      rw [← hpending]
      exact ⟨_, _, serves_exhausted h hpending (fuel + 1)⟩
    | cons line rest =>
      have hrest : rest.length ≤ fuel := by
        rw [hpending] at hfuel
        exact Nat.le_of_succ_le_succ hfuel
      have hagain (console' : Console) (hpending' : console'.pending <:+ rest) :
          ∃ blocks ending, Serves console' blocks ending (runWithin fuel ⟨console', ""⟩) :=
        ih console' [] awaiting_nil (Nat.le_trans hpending'.length_le hrest)
      rw [← hpending]
      obtain ⟨rfl, hblank, huse⟩ | ⟨rfl, hcommand, huse⟩ | ⟨hdone, huse⟩ | ⟨hawaiting, huse⟩ :=
        ofLine_cases h line
      · exact serves_skipped hagain hpending hblank huse
      · exact serves_command hagain hpending hcommand huse
      · exact serves_submission hagain hpending hdone huse
      · obtain ⟨blocks, ending, hserves⟩ :=
          ih (console.facing rest) (front ++ [line]) hawaiting hrest
        exact ⟨blocks, ending, serves_gathered hpending huse hserves⟩

def Block.opening : Block → Opening
  | .skipped _ => .blank
  | .command _ => .command
  | .submission _ _ => .text

theorem Block.Proper.opens {block : Block} (h : block.Proper) : Opens block.opening block.read := by
  cases h with
  | skipped h => exact ⟨_, rfl, h⟩
  | command h => exact ⟨_, rfl, h⟩
  | submission h => exact h.opens

theorem Opens.unique {lines lines' : List String} {kind kind' : Opening} (h : Opens kind lines)
    (h' : Opens kind' lines') (hbegins : lines <+: lines') : kind = kind' := by
  obtain ⟨line, hline, rfl⟩ := h
  obtain ⟨line', hline', rfl⟩ := h'
  obtain ⟨rest, rfl⟩ := hbegins
  rw [List.head?_append, Option.mem_def.mp hline, Option.some_or] at hline'
  rw [Option.some.inj hline']

theorem Opens.ne_nil {lines : List String} {kind : Opening} (h : Opens kind lines) :
    lines ≠ [] := by
  rintro rfl
  obtain ⟨line, hline, -⟩ := h
  cases hline

theorem Block.Proper.eq_of_prefix {b b' : Block} (h : b.Proper) (h' : b'.Proper)
    (hbegins : b.read <+: b'.read) :
    b.read = b'.read ∧ (∀ console, b.serve console = b'.serve console) ∧
      (b.taken = b'.taken → b = b') := by
  have hopening := h.opens.unique h'.opens hbegins
  cases h with
  | skipped _ =>
    cases h' with
    | skipped _ =>
      obtain ⟨rfl, -⟩ := List.cons_prefix_cons.mp hbegins
      exact ⟨rfl, fun _ => rfl, fun _ => rfl⟩
    | command _ _ => cases hopening
    | submission _ _ => cases hopening
  | command _ _ =>
    cases h' with
    | skipped _ => cases hopening
    | command _ _ =>
      obtain ⟨rfl, -⟩ := List.cons_prefix_cons.mp hbegins
      exact ⟨rfl, fun _ => rfl, fun _ => rfl⟩
    | submission _ _ => cases hopening
  | @submission lines h taken =>
    cases h' with
    | skipped _ => cases hopening
    | command _ _ => cases hopening
    | @submission lines' h' taken' =>
      have heq : lines = lines' :=
        Classical.not_not.mp fun hne => h'.least lines hbegins h.opens.ne_nil hne h.complete
      subst heq
      exact ⟨rfl, fun _ => rfl, congrArg (Block.submission lines)⟩

theorem Block.Proper.eq_of_append {b b' : Block} (h : b.Proper) (h' : b'.Proper)
    {rest rest' : List String} (heq : b.read ++ rest = b'.read ++ rest') :
    b.read = b'.read ∧ (∀ console, b.serve console = b'.serve console) ∧
      (b.taken = b'.taken → b = b') := by
  obtain hbegins | hbegins := List.prefix_or_prefix_of_prefix (List.prefix_append b.read rest)
    (heq ▸ List.prefix_append b'.read rest')
  · exact h.eq_of_prefix h' hbegins
  · obtain ⟨hread, hserve, htaken⟩ := h'.eq_of_prefix h hbegins
    exact ⟨hread.symm, fun console => (hserve console).symm, fun heq => (htaken heq.symm).symm⟩

theorem Awaiting.ne_of_command (h : Awaiting front) (hline : opening line = .command)
    (unread : List String) : line :: unread ≠ front := by
  rintro rfl
  have hopens := (h _ List.prefix_rfl (List.cons_ne_nil line unread)).1
  cases Opens.unique ⟨line, rfl, hline⟩ hopens List.prefix_rfl

theorem Awaiting.not_prefix (h : Awaiting front) {block : Block} (hblock : block.Proper) :
    ¬block.read <+: front := by
  intro hbegins
  obtain ⟨hopens, hcomplete⟩ := h block.read hbegins hblock.opens.ne_nil
  have hopening := hblock.opens.unique hopens List.prefix_rfl
  cases hblock with
  | skipped _ => cases hopening
  | command _ _ => cases hopening
  | submission h _ => exact hcomplete h.complete

theorem not_prefix_of_exit (h : opening line = .command) (hexit : Text.trimmed line = "#" ++ "exit")
    {unread : List String} {block : Block} (hblock : block.Proper) :
    ¬block.read <+: line :: unread := by
  intro hbegins
  have hopening := hblock.opens.unique ⟨line, rfl, h⟩ hbegins
  cases hblock with
  | skipped _ => cases hopening
  | command _ hexit' =>
    obtain ⟨rfl, -⟩ := List.cons_prefix_cons.mp hbegins
    exact hexit' hexit
  | submission _ _ => cases hopening

namespace Ending.Proper

variable {console : Console} {ending ending' : Ending} {shown shown' : List Printed}

/-- If the lines behind the last block begin with another one, the loop does not come to its end. -/
theorem serve_none (h : ending.Proper console shown) {block : Block} (hblock : block.Proper)
    {behind : List String} (hlines : ending.lines = block.read ++ behind) :
    (block.serve (console.facing behind)).2 = none := by
  cases h with
  | exhausted h => exact absurd ⟨behind, hlines.symm⟩ (h.not_prefix hblock)
  | exit h hexit unread =>
    exact absurd ⟨behind, hlines.symm⟩ (not_prefix_of_exit h hexit hblock)
  | @unfinished lines behind' shown h hsubmit =>
    obtain ⟨hread, hserve, -⟩ := (Block.Proper.submission h []).eq_of_append hblock hlines
    rw [← hread] at hlines
    rw [← hserve, ← List.append_cancel_left hlines, Block.serve, hsubmit]

theorem eq_of_lines (h : ending.Proper console shown) (h' : ending'.Proper console shown')
    (hlines : ending.lines = ending'.lines) : ending' = ending ∧ shown' = shown := by
  cases h with
  | exhausted h =>
    cases h' with
    | exhausted _ => exact ⟨congrArg Ending.exhausted hlines.symm, rfl⟩
    | exit h' _ unread => exact absurd hlines.symm (h.ne_of_command h' unread)
    | unfinished h' _ => exact absurd ⟨_, hlines.symm⟩ (h.not_prefix (.submission h' []))
  | exit h hexit unread =>
    cases h' with
    | exhausted h' => exact absurd hlines (h'.ne_of_command h unread)
    | exit _ _ _ =>
      cases hlines
      exact ⟨rfl, rfl⟩
    | unfinished h' _ =>
      exact absurd ⟨_, hlines.symm⟩ (not_prefix_of_exit h hexit (.submission h' []))
  | unfinished h hsubmit =>
    cases h' with
    | exhausted h' => exact absurd ⟨_, hlines⟩ (h'.not_prefix (.submission h []))
    | exit h' hexit _ =>
      exact absurd ⟨_, hlines⟩ (not_prefix_of_exit h' hexit (.submission h []))
    | unfinished h' hsubmit' =>
      obtain ⟨hread, -, -⟩ :=
        (Block.Proper.submission h []).eq_of_append (.submission h' []) hlines
      simp only [Block.read] at hread
      subst hread
      obtain rfl := List.append_cancel_left hlines
      exact ⟨rfl, (Prod.mk.inj (hsubmit'.symm.trans hsubmit)).1⟩

end Ending.Proper

theorem Serves.unique {console : Console} {blocks blocks' : List Block} {ending ending' : Ending}
    {printed printed' : List Printed} (h : Serves console blocks ending printed)
    (h' : Serves console blocks' ending' printed') :
    blocks' = blocks ∧ ending' = ending ∧ printed' = printed := by
  induction h generalizing blocks' ending' printed' with
  | last hproper hpending =>
    cases h' with
    | last hproper' hpending' =>
      obtain ⟨rfl, rfl⟩ := hproper.eq_of_lines hproper' (hpending.symm.trans hpending')
      exact ⟨rfl, rfl, rfl⟩
    | next hblock hpending' hserve _ =>
      have hnone := hproper.serve_none hblock (hpending.symm.trans hpending')
      rw [hserve] at hnone
      cases hnone
  | @next console next block blocks ending shown printed hblock hpending hserve _ ih =>
    cases h' with
    | last hproper hpending' =>
      have hnone := hproper.serve_none hblock (hpending'.symm.trans hpending)
      rw [hserve] at hnone
      cases hnone
    | @next _ next' block' blocks' _ shown' printed' hblock' hpending' hserve' hrest' =>
      have hinput := hpending.symm.trans hpending'
      obtain ⟨hread, hsame, htaken⟩ := hblock.eq_of_append hblock' hinput
      rw [hread] at hinput
      have hbehind := List.append_cancel_left hinput
      rw [hsame, hbehind, hserve'] at hserve
      obtain ⟨rfl, hnext⟩ := Prod.mk.inj hserve
      obtain rfl := Option.some.inj hnext
      obtain rfl := htaken (List.append_cancel_right hbehind)
      obtain ⟨rfl, rfl, rfl⟩ := ih hrest'
      exact ⟨rfl, rfl, rfl⟩

/-- The loop uses every line of its input once. The input divides, in one way only, into blocks and
what is left behind them: blank lines that are skipped, lines for the loop itself, and submissions.
A submission goes from a line that is neither up to the first one with which the lines can be read
without faults, or which is blank; its text is submitted, and the lines that its program reads are
the next ones behind it. What is left at the end was never complete, or begins with the command that
ends the loop, or with a submission whose program is left off. That is so for any number of rounds
after which the console leaves a program off. -/
theorem run_uses_lines_once (console : Console) :
    ∃ blocks ending, Serves console blocks ending (run console) ∧
      console.pending =
        (blocks.flatMap fun block => block.read ++ block.taken) ++ ending.lines ∧
      ∀ blocks' ending' printed, Serves console blocks' ending' printed →
        blocks' = blocks ∧ ending' = ending := by
  obtain ⟨blocks, ending, hserves⟩ : ∃ blocks ending, Serves console blocks ending (run console) :=
    serves_runWithin console.pending.length console [] awaiting_nil (Nat.le_refl _)
  refine ⟨blocks, ending, hserves, hserves.lines, fun blocks' ending' printed h' => ?_⟩
  obtain ⟨hblocks, hending, -⟩ := hserves.unique h'
  exact ⟨hblocks, hending⟩

end Repl

end ScalarScript
