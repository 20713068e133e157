import Mathlib.Logic.Function.Iterate
import ScalarScript.Proofs.Running.Counting

/-!
Programs one node at a time. What is left to do of a program is a list of tasks, and a step looks at
one node of it and puts the tasks that are left of that node in its place; how often a loop is gone
through is nowhere bounded. Running a program is stepping through it: a run that comes to an end
gives what the steps come to, and one that runs out of rounds breaks off where the steps pass by.
-/

set_option autoImplicit false

namespace ScalarScript

/-- Something that is left to do: a node that was not looked at, or what follows when the term
before it has given its value. -/
inductive Task where
  | term (t : Term)
  | action (a : Action)
  | assign (v : Variable)
  | unary (operator : UnaryOperator)
  | right (operator : BinaryOperator) (next : Term)
  | binary (left : Value) (operator : BinaryOperator)
  | write
  | draw
  | convert (target : Ty)
  | declare (v : Variable)
  | choose (yes no : List Action)
  | upTo (v : Variable) (upper : Term) (body : Action)
  | range (v : Variable) (lower : Int64) (body : Action)
  | count (v : Variable) (next last : Int64) (body : Action)
  | conclude

namespace Task

open Eval

def giving (x : Eval (Option Value)) : Eval (Option Value × List Task) := do return (← x, [])

def doing (x : Eval Unit) : Eval (Option Value × List Task) := do
  x
  return (none, [])

def leaving (tasks : List Task) : Eval (Option Value × List Task) := return (none, tasks)

def applying (task : Task) : List Term → Eval (Option Value × List Task)
  | [] => fail .errorNodeReached
  | first :: _ => leaving [.term first, task]

/-- One step of a task, by the value that the task before it gave: the value for the next task, and
the tasks that take the place of this one. -/
def advance (given : Option Value) : Task → Eval (Option Value × List Task)
  | .term (.literal value) => giving (return some value)
  | .term (.variable v) => giving do return some (← load v)
  | .term (.assignment v source) => leaving [.term source, .assign v]
  | .term (.unary operator operand) => leaving [.term operand, .unary operator]
  | .term (.binary left operator second) => leaving [.term left, .right operator second]
  | .term (.call function arguments) =>
    if function = .read then giving do return some (.string (← readLine))
    else if function = .write then applying .write arguments
    else if function = .rnd then applying .draw arguments
    else fail (.unknownFunction function.name)
  | .term (.conversion target source) => leaving [.term source, .convert target]
  | .term .error => fail .errorNodeReached
  | .action (.block actions) => leaving (actions.map .action)
  | .action (.declaration v initializer) => leaving [.term initializer, .declare v]
  | .action (.ifThen condition thenAction) => leaving [.term condition, .choose [thenAction] []]
  | .action (.ifThenElse condition thenAction elseAction) =>
    leaving [.term condition, .choose [thenAction] [elseAction]]
  | .action (.whileLoop condition body) =>
    leaving [.term condition, .choose [body, .whileLoop condition body] []]
  | .action (.forLoop v lower upper body) => leaving [.term lower, .upTo v upper body]
  | .action (.expression t) => leaving [.term t, .conclude]
  | .assign v => giving do
    let value ← value (return given)
    save v value
    return some value
  | .unary operator => giving do
    let operand ← value (return given)
    return some (← lift (operator.operation.apply operand))
  | .right operator next => do
    let left ← value (return given)
    leaving [.term next, .binary left operator]
  | .binary left operator => giving do
    let right ← value (return given)
    return some (← lift (operator.operation.apply left right))
  | .write => giving do
    let line ← lift (← value (return given)).expectString
    writeLine line
    return none
  | .draw => giving do return some (.int (← randomBelow (← int (return given))))
  | .convert target => giving do
    let value ← value (return given)
    return some (← lift (value.convert target))
  | .declare v => doing do
    let value ← value (return given)
    save v value
    Eval.conclude (some value)
  | .choose yes no => do leaving ((if ← bool (return given) then yes else no).map .action)
  | .upTo v upper body => do leaving [.term upper, .range v (← int (return given)) body]
  | .range v lower body => do
    let upper ← int (return given)
    leaving (if lower ≤ upper then [.count v lower upper body] else [])
  | .count v next last body => do
    save v (.int next)
    leaving (.action body :: if next < last then [.count v (next + 1) last body] else [])
  | .conclude => doing (Eval.conclude given)

theorem advance_call (given : Option Value) (function : Function) (arguments : List Term) :
    advance given (.term (.call function arguments)) =
      if function = .read then giving do return some (.string (← readLine))
      else if function = .write then applying .write arguments
      else if function = .rnd then applying .draw arguments
      else fail (.unknownFunction function.name) := rfl

end Task

inductive Progress where
  | going (tasks : List Task) (given : Option Value) (m : Machine)
  | over (result : Except Halt Unit) (m : Machine)

namespace Progress

def start (a : Action) (m : Machine) : Progress := .going [.action a] none m

def machine : Progress → Machine
  | .going _ _ m => m
  | .over _ m => m

def step : Progress → Progress
  | .over result m => .over result m
  | .going [] _ m => .over (.ok ()) m
  | .going (task :: rest) given m =>
    match task.advance given m with
    | (.ok (given, tasks), m) => .going (tasks ++ rest) given m
    | (.error halt, m) => .over (.error halt) m

section Step

variable {task : Task} {given o : Option Value} {m n : Machine}

theorem step_of_ok {tasks : List Task} (h : task.advance given m = (.ok (o, tasks), n))
    (rest : List Task) : step (.going (task :: rest) given m) = .going (tasks ++ rest) o n := by
  rw [step, h]

theorem step_of_error {halt : Halt} (h : task.advance given m = (.error halt, n))
    (rest : List Task) : step (.going (task :: rest) given m) = .over (.error halt) n := by
  rw [step, h]

theorem machine_step (task : Task) (rest : List Task) (given : Option Value) (m : Machine) :
    (step (.going (task :: rest) given m)).machine = (task.advance given m).2 := by
  rcases h : task.advance given m with ⟨_ | _, n⟩
  · rw [step_of_error h]
    rfl
  · rw [step_of_ok h]
    rfl

end Step

def Reaches (p q : Progress) : Prop := ∃ n, step^[n] p = q

theorem Reaches.refl (p : Progress) : p.Reaches p := ⟨0, rfl⟩

theorem Reaches.trans {p q r : Progress} (hpq : p.Reaches q) (hqr : q.Reaches r) :
    p.Reaches r := by
  obtain ⟨n, rfl⟩ := hpq
  obtain ⟨k, rfl⟩ := hqr
  exact ⟨k + n, Function.iterate_add_apply step k n p⟩

/-- What the steps from a place come to, behind which these tasks are left: they have a value, or
are over with the same error. Where a run has no rounds left they pass by its state. -/
def ComesTo {α : Type} (p : Progress) (rest : List Task) (shows : α → Option Value → Prop) :
    Except Halt α × Machine → Prop
  | (.ok a, m) => ∃ o, shows a o ∧ p.Reaches (.going rest o m)
  | (.error (.failed e), m) => p.Reaches (.over (.error (.failed e)) m)
  | (.error .outOfFuel, m) => ∃ q, p.Reaches q ∧ q.machine = m

theorem ComesTo.behind {α : Type} {p q : Progress} {rest : List Task}
    {shows : α → Option Value → Prop} {outcome : Except Halt α × Machine}
    (h : q.ComesTo rest shows outcome) (hpq : p.Reaches q) : p.ComesTo rest shows outcome := by
  match outcome, h with
  | (.ok a, m), ⟨o, ho, hr⟩ => exact ⟨o, ho, hpq.trans hr⟩
  | (.error (.failed e), m), h => exact hpq.trans h
  | (.error .outOfFuel, m), ⟨r, hr, hm⟩ => exact ⟨r, hpq.trans hr, hm⟩

end Progress

namespace Eval

variable {α β γ : Type}

theorem bind_assoc (x : Eval α) (f : α → Eval β) (g : β → Eval γ) :
    x >>= f >>= g = x >>= fun a => f a >>= g := by
  funext m
  change Eval.bind (Eval.bind x f) g m = Eval.bind x (fun a => Eval.bind (f a) g) m
  unfold Eval.bind
  match x m with
  | (.ok a, m') => rfl
  | (.error halt, m') => rfl

theorem bind_pure (x : Eval α) : x >>= pure = x := by
  funext m
  change Eval.bind x Eval.pure m = x m
  unfold Eval.bind
  match x m with
  | (.ok a, m') => rfl
  | (.error halt, m') => rfl

theorem bind_of_error {x : Eval α} (f : α → Eval β) {m n : Machine} {halt : Halt}
    (h : x m = (.error halt, n)) : (x >>= f) m = (.error halt, n) := by
  change Eval.bind x f m = (.error halt, n)
  rw [Eval.bind, h]

open Progress

/-- Whatever tasks come behind these, the steps through these come to what the computation gives. -/
def Carries (tasks : List Task) (given : Option Value) (x : Eval α)
    (shows : α → Option Value → Prop) : Prop :=
  ∀ rest m, (going (tasks ++ rest) given m).ComesTo rest shows (x m)

section Carrying

variable {tasks tasks' : List Task} {task : Task} {given : Option Value}
  {shows : α → Option Value → Prop}

theorem carries_pure {a : α} (h : shows a given) : Carries [] given (pure a : Eval α) shows :=
  fun _ _ => ⟨given, h, .refl _⟩

theorem Carries.bind {shows' : β → Option Value → Prop} {x : Eval α} {f : α → Eval β}
    (hx : Carries tasks given x shows) (hf : ∀ a o, shows a o → Carries tasks' o (f a) shows') :
    Carries (tasks ++ tasks') given (x >>= f) shows' := by
  intro rest m
  rw [List.append_assoc]
  have h := hx (tasks' ++ rest) m
  match hxm : x m, h with
  | (.ok a, n), h =>
    obtain ⟨o, ho, hr⟩ := h
    rw [bind_of_ok hxm]
    exact (hf a o ho rest n).behind hr
  | (.error (.failed e), n), h =>
    rw [bind_of_error f hxm]
    exact h
  | (.error .outOfFuel, n), h =>
    rw [bind_of_error f hxm]
    exact h

/-- A step of a task that is a computation, and then the tasks that it leaves. -/
theorem carries_of_advance {y : Eval β} {g : β → Option Value × List Task} {f : β → Eval α}
    (hy : task.advance given = y >>= fun b => pure (g b))
    (hf : ∀ b, Carries (g b).2 (g b).1 (f b) shows) :
    Carries [task] given (y >>= f) shows := by
  intro rest m
  have hreach : (going (task :: rest) given m).Reaches (step (going (task :: rest) given m)) :=
    ⟨1, rfl⟩
  cases hym : y m with
  | mk result n =>
    cases result with
    | ok b =>
      have ha : task.advance given m = (.ok (g b), n) := by rw [hy, bind_of_ok hym]; rfl
      rw [bind_of_ok hym]
      rw [step_of_ok ha] at hreach
      exact (hf b rest n).behind hreach
    | error halt =>
      have ha : task.advance given m = (.error halt, n) := by rw [hy, bind_of_error _ hym]
      rw [bind_of_error f hym]
      rw [step_of_error ha] at hreach
      cases halt with
      | failed e => exact hreach
      | outOfFuel => exact ⟨_, hreach, rfl⟩

theorem carries_giving {x : Eval (Option Value)} (h : task.advance given = Task.giving x) :
    Carries [task] given x fun a o => o = a := by
  have hx : Carries [task] given (x >>= pure) fun a o => o = a :=
    carries_of_advance h fun _ => carries_pure rfl
  rwa [bind_pure] at hx

theorem carries_doing {x : Eval Unit} (h : task.advance given = Task.doing x) :
    Carries [task] given x fun _ _ => True := by
  have hx : Carries [task] given (x >>= pure) fun _ _ => True :=
    carries_of_advance h fun _ => carries_pure trivial
  rwa [bind_pure] at hx

theorem carries_leaving {x : Eval α} (h : task.advance given = Task.leaving tasks)
    (hx : Carries tasks none x shows) : Carries [task] given x shows :=
  carries_of_advance (y := pure ()) (g := fun _ => (none, tasks)) h fun _ => hx

theorem carries_fail {e : RunError} (h : task.advance given = fail e) :
    Carries [task] given (fail e : Eval α) shows :=
  carries_of_advance (y := (fail e : Eval Empty)) (g := Empty.elim) (f := Empty.elim) h nofun

theorem Carries.operand {t : Term} {y : Eval α}
    (ht : Carries [.term t] given t.evaluate fun a o => o = a)
    {f : Option Value → Eval α} (hy : y = t.evaluate >>= f)
    (hf : ∀ o, Carries tasks o (f o) shows) : Carries (.term t :: tasks) given y shows := by
  rw [hy]
  exact ht.bind fun a o h => h ▸ hf o

end Carrying

/-- The computations that go on with a value, an integer or a boolean ask for it when the term has
been evaluated. -/
theorem value_bind (x : Eval (Option Value)) (f : Value → Eval α) :
    value x >>= f = x >>= fun o => value (pure o) >>= f :=
  bind_assoc _ _ _

theorem int_bind (x : Eval (Option Value)) (f : Int64 → Eval α) :
    int x >>= f = x >>= fun o => int (pure o) >>= f := by
  change (value x >>= fun v => lift v.expectInt) >>= f = _
  rw [bind_assoc, value_bind]
  congr 1
  funext o
  exact (bind_assoc _ _ _).symm

theorem bool_bind (x : Eval (Option Value)) (f : Bool → Eval α) :
    bool x >>= f = x >>= fun o => bool (pure o) >>= f := by
  change (value x >>= fun v => lift v.expectBool) >>= f = _
  rw [bind_assoc, value_bind]
  congr 1
  funext o
  exact (bind_assoc _ _ _).symm

end Eval

open Eval

theorem carries_call (function : Function) {arguments : List Term} {given : Option Value}
    (h : ∀ t, arguments.head? = some t → Carries [.term t] none t.evaluate fun a o => o = a) :
    Carries [.term (.call function arguments)] given
      (Eval.call function (arguments.head?.map Term.evaluate)) fun a o => o = a := by
  have hadvance := Task.advance_call given function arguments
  unfold Eval.call
  split <;> rename_i hread
  · exact carries_giving (hadvance.trans (if_pos hread))
  rw [if_neg hread] at hadvance
  split <;> rename_i hwrite
  · rw [if_pos hwrite] at hadvance
    cases arguments with
    | nil => exact carries_fail hadvance
    | cons first rest =>
      exact carries_leaving hadvance <| (h first rfl).operand (value_bind _ _) fun _ =>
        carries_giving rfl
  rw [if_neg hwrite] at hadvance
  split <;> rename_i hrnd
  · rw [if_pos hrnd] at hadvance
    cases arguments with
    | nil => exact carries_fail hadvance
    | cons first rest =>
      exact carries_leaving hadvance <| (h first rfl).operand (int_bind _ _) fun _ =>
        carries_giving rfl
  · rw [if_neg hrnd] at hadvance
    exact carries_fail hadvance

theorem Term.carries : (t : Term) → ∀ given, Carries [.term t] given t.evaluate fun a o => o = a
  | .literal _, _ => carries_giving rfl
  | .variable _, _ => carries_giving rfl
  | .assignment _ source, _ =>
    carries_leaving rfl <| (source.carries _).operand (value_bind _ _) fun _ => carries_giving rfl
  | .unary _ operand, _ =>
    carries_leaving rfl <| (operand.carries _).operand (value_bind _ _) fun _ => carries_giving rfl
  | .binary left operator right, _ => by
    refine carries_leaving rfl ((left.carries _).operand (value_bind _ _) fun o => ?_)
    refine carries_of_advance (g := fun l => (none, [.term right, .binary l operator])) rfl ?_
    exact fun l => (right.carries _).operand (value_bind _ _) fun _ => carries_giving rfl
  | .call function [], _ => carries_call function nofun
  | .call function (first :: _), _ => carries_call function fun t h => by
    cases h
    exact first.carries none
  | .conversion _ source, _ =>
    carries_leaving rfl <| (source.carries _).operand (value_bind _ _) fun _ => carries_giving rfl
  | .error, _ => carries_fail rfl

theorem repeatWhile_succ (condition : Eval Bool) (body : Eval Unit) (rounds : Nat) :
    repeatWhile condition body (rounds + 1) =
      condition >>= fun b =>
        if b then body >>= fun _ => repeatWhile condition body rounds else pure () := by
  funext m
  rw [repeatWhile]
  rcases hc : condition m with ⟨_ | b, n⟩
  · rw [bind_of_error _ hc]
  rw [bind_of_ok hc]
  cases b with
  | false => rfl
  | true =>
    simp only [if_true]
    rcases hb : body n with ⟨_ | _, k⟩
    · exact (bind_of_error _ hb).symm
    · exact (bind_of_ok (f := fun _ => repeatWhile condition body rounds) hb).symm

theorem countUp_succ (v : Variable) (body : Eval Unit) (rounds : Nat) (n : Int64) :
    countUp v body (rounds + 1) n =
      save v (.int n) >>= fun _ => body >>= fun _ => countUp v body rounds (n + 1) := by
  funext m
  have hsave : save v (.int n) m = (.ok (), { m with store := m.store.insert v (.int n) }) := rfl
  rw [countUp, bind_of_ok hsave]
  rcases hb : body { m with store := m.store.insert v (.int n) } with ⟨_ | _, k⟩
  · exact (bind_of_error _ hb).symm
  · exact (bind_of_ok (f := fun _ => countUp v body rounds (n + 1)) hb).symm

/-- A loop under a condition comes back to its own task, whatever number of rounds is left. -/
theorem carries_repeatWhile {condition : Term} {body : Action} {x : Eval Unit}
    (hb : ∀ given, Carries [.action body] given x fun _ _ => True) (rounds : Nat) (given) :
    Carries [.action (.whileLoop condition body)] given
      (repeatWhile (bool condition.evaluate) x rounds) fun _ _ => True := by
  induction rounds generalizing given with
  | zero => exact fun rest m => ⟨_, .refl _, rfl⟩
  | succ rounds ih =>
    rw [repeatWhile_succ]
    refine carries_leaving rfl ((condition.carries _).operand (bool_bind _ _) fun o => ?_)
    refine carries_of_advance (g := fun b =>
      (none, (if b then [body, .whileLoop condition body] else []).map .action)) rfl fun b => ?_
    cases b with
    | true => exact (hb none).bind fun _ o _ => ih o
    | false => exact carries_pure trivial

theorem carries_countUp {v : Variable} {body : Action} {x : Eval Unit}
    (hb : ∀ given, Carries [.action body] given x fun _ _ => True) {rounds : Nat}
    {n last : Int64} (hlast : n.toInt + rounds = last.toInt) (given) :
    Carries [.count v n last body] given (countUp v x (rounds + 1) n) fun _ _ => True := by
  induction rounds generalizing n given with
  | zero =>
    have hn : ¬n < last := by
      rw [Int64.lt_iff_toInt_lt]
      omega
    rw [countUp_succ]
    refine carries_of_advance (g := fun _ => (none, .action body ::
      if n < last then [.count v (n + 1) last body] else [])) rfl fun _ => ?_
    rw [if_neg hn]
    exact (hb none).bind fun _ _ _ => carries_pure trivial
  | succ rounds ih =>
    have hn : n < last := by
      rw [Int64.lt_iff_toInt_lt]
      omega
    have hnext : (n + 1).toInt + rounds = last.toInt := by
      have hmax := last.toInt_lt
      rw [toInt_add_one (by rw [Int64.toInt_maxValue]; omega)]
      omega
    rw [countUp_succ]
    refine carries_of_advance (g := fun _ => (none, .action body ::
      if n < last then [.count v (n + 1) last body] else [])) rfl fun _ => ?_
    rw [if_pos hn]
    exact (hb none).bind fun _ o _ => ih hnext o

mutual

theorem Action.carries (rounds : Nat) : (a : Action) → ∀ given,
    Carries [.action a] given (a.run rounds) fun _ _ => True
  | .block actions, _ => carries_leaving rfl (Action.carriesAll rounds actions none)
  | .declaration v initializer, _ =>
    carries_leaving rfl <| (initializer.carries _).operand (value_bind _ _) fun _ =>
      carries_doing rfl
  | .ifThen condition thenAction, _ => by
    refine carries_leaving rfl ((condition.carries _).operand (bool_bind _ _) fun o => ?_)
    refine carries_of_advance (g := fun b => (none, (if b then [thenAction] else []).map .action))
      rfl fun b => ?_
    cases b with
    | true => exact thenAction.carries rounds none
    | false => exact carries_pure trivial
  | .ifThenElse condition thenAction elseAction, _ => by
    refine carries_leaving rfl ((condition.carries _).operand (bool_bind _ _) fun o => ?_)
    refine carries_of_advance
      (g := fun b => (none, (if b then [thenAction] else [elseAction]).map .action)) rfl fun b => ?_
    cases b with
    | true => exact thenAction.carries rounds none
    | false => exact elseAction.carries rounds none
  | .whileLoop _ body, given => carries_repeatWhile (body.carries rounds) rounds given
  | .forLoop v lower upper body, _ => by
    refine carries_leaving rfl ((lower.carries _).operand (int_bind _ _) fun o => ?_)
    refine carries_of_advance (g := fun first => (none, [.term upper, .range v first body])) rfl ?_
    refine fun first => (upper.carries _).operand (int_bind _ _) fun o => ?_
    refine carries_of_advance (g := fun last =>
      (none, if first ≤ last then [.count v first last body] else [])) rfl fun last => ?_
    by_cases h : first ≤ last
    · obtain ⟨rounds', hrounds⟩ : ∃ n : Nat, first.toInt + n = last.toInt :=
        ⟨(last.toInt - first.toInt).toNat, by rw [Int64.le_iff_toInt_le] at h; omega⟩
      have hlength : rangeLength first last = rounds' + 1 := by
        rw [rangeLength]
        omega
      rw [if_pos h, hlength]
      exact carries_countUp (body.carries rounds) hrounds none
    · have hlength : rangeLength first last = 0 := by
        rw [rangeLength]
        rw [Int64.le_iff_toInt_le] at h
        omega
      rw [if_neg h, hlength]
      exact carries_pure trivial
  | .expression t, _ =>
    carries_leaving rfl <| (t.carries _).operand rfl fun _ => carries_doing rfl

theorem Action.carriesAll (rounds : Nat) : (actions : List Action) → ∀ given,
    Carries (actions.map .action) given (Action.runAll rounds actions) fun _ _ => True
  | [], _ => carries_pure trivial
  | a :: rest, given => (a.carries rounds given).bind fun _ o _ => Action.carriesAll rounds rest o

end

namespace Progress

theorem comesTo_run (a : Action) (rounds : Nat) (m : Machine) :
    (start a m).ComesTo [] (fun _ _ => True) (a.run rounds m) := a.carries rounds none [] m

/-- A run that has rounds enough ends where the steps end, with the same result. -/
theorem reaches_over {a : Action} {rounds : Nat} {m n : Machine} {result : Except Halt Unit}
    (h : a.run rounds m = (result, n)) (hends : result ≠ .error .outOfFuel) :
    (start a m).Reaches (.over result n) := by
  have hrun := comesTo_run a rounds m
  rw [h] at hrun
  match result, hrun with
  | .ok _, ⟨o, _, hr⟩ => exact hr.trans ⟨1, rfl⟩
  | .error (.failed e), hr => exact hr
  | .error .outOfFuel, _ => exact absurd rfl hends

theorem reaches_machine (a : Action) (rounds : Nat) (m : Machine) :
    ∃ p, (start a m).Reaches p ∧ p.machine = (a.run rounds m).2 := by
  have hrun := comesTo_run a rounds m
  match hresult : a.run rounds m, hrun with
  | (.ok _, n), ⟨o, _, hr⟩ => exact ⟨_, hr, rfl⟩
  | (.error (.failed e), n), hr => exact ⟨_, hr, rfl⟩
  | (.error .outOfFuel, n), hr => exact hr

theorem Reaches.keeps {I : Progress → Prop} (hstep : ∀ p, I p → I p.step) {p q : Progress}
    (h : p.Reaches q) (hp : I p) : I q := by
  obtain ⟨n, rfl⟩ := h
  induction n generalizing p with
  | zero => exact hp
  | succ n ih => exact ih (hstep p hp)

end Progress

end ScalarScript
