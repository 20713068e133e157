import ScalarScript.Program.Basic
import ScalarScript.Run.Convert
import ScalarScript.Run.Host
import ScalarScript.Run.Operation
import ScalarScript.Run.Random
import ScalarScript.Run.Store

/-!
Running programs. Terms are evaluated from left to right, both operands of every operator; what was
stored and written before an error remains. The value of a run is the one that its last declaration
or expression gave. A loop under a condition has no bound of its own, so a run is given one: the
number of rounds that each such loop may take.
-/

set_option autoImplicit false

namespace ScalarScript

structure Machine where
  store : Store
  host : Host
  seed : Option UInt64
  /-- The source of random numbers, once one was drawn. -/
  generator : Option Generator
  lastValue : Option Value
  deriving DecidableEq, Repr

def Eval (α : Type) : Type := Machine → Except Halt α × Machine

namespace Eval

protected def pure {α : Type} (a : α) : Eval α := fun m => (.ok a, m)

protected def bind {α β : Type} (x : Eval α) (f : α → Eval β) : Eval β := fun m =>
  match x m with
  | (.ok a, m) => f a m
  | (.error halt, m) => (.error halt, m)

instance : Monad Eval where
  pure := Eval.pure
  bind := Eval.bind

def fail {α : Type} (error : RunError) : Eval α := fun m => (.error (.failed error), m)

def lift {α : Type} (result : Except RunError α) : Eval α := fun m => (result.mapError .failed, m)

def load (v : Variable) : Eval Value := fun m =>
  match m.store.get? v with
  | some value => (.ok value, m)
  | none => (.error (.failed (.unassignedVariable v.name)), m)

def save (v : Variable) (value : Value) : Eval Unit := fun m =>
  (.ok (), { m with store := m.store.insert v value })

def conclude (value : Option Value) : Eval Unit := fun m => (.ok (), { m with lastValue := value })

def readLine : Eval String := fun m =>
  let (line, host) := m.host.readLine
  (.ok line, { m with host })

def writeLine (line : String) : Eval Unit := fun m =>
  (.ok (), { m with host := m.host.writeLine line })

/-- The source of random numbers. The first time it is made from the seed, or from one that the host
draws. -/
def generator : Eval Generator := fun m =>
  match m.generator, m.seed with
  | some g, _ => (.ok g, m)
  | none, some seed => (.ok (.ofSeed seed), m)
  | none, none =>
    let (seed, host) := m.host.drawSeed
    (.ok (.ofSeed seed), { m with host })

/-- A number from 0 up to, not including, the bound; for the bound 0 it is 0, and nothing is
drawn. -/
def randomBelow (bound : Int64) : Eval Int64 :=
  if bound < 0 then fail (.negativeRandomBound bound)
  else if bound = 0 then Eval.pure 0
  else do
    let (n, next) := (← generator).below bound.toInt.toNat
    fun m => (.ok (Int64.ofNat n), { m with generator := some next })

def value (x : Eval (Option Value)) : Eval Value := do
  match ← x with
  | some value => return value
  | none => fail (.typeMismatch "value" Ty.void.name)

def int (x : Eval (Option Value)) : Eval Int64 := do lift (← value x).expectInt

def bool (x : Eval (Option Value)) : Eval Bool := do lift (← value x).expectBool

/-- A call of a built-in function, given how to evaluate its first argument. Others are not looked
at. -/
def call (function : Function) (first : Option (Eval (Option Value))) : Eval (Option Value) :=
  if function = .read then do return some (.string (← readLine))
  else if function = .write then
    match first with
    | none => fail .errorNodeReached
    | some argument => do
      let line ← lift (← value argument).expectString
      writeLine line
      return none
  else if function = .rnd then
    match first with
    | none => fail .errorNodeReached
    | some argument => do return some (.int (← randomBelow (← int argument)))
  else fail (.unknownFunction function.name)

def repeatWhile (condition : Eval Bool) (body : Eval Unit) (rounds : Nat) (m : Machine) :
    Except Halt Unit × Machine :=
  match rounds with
  | 0 => (.error .outOfFuel, m)
  | rounds + 1 =>
    match condition m with
    | (.ok true, m) =>
      match body m with
      | (.ok _, m) => repeatWhile condition body rounds m
      | (.error halt, m) => (.error halt, m)
    | (.ok false, m) => (.ok (), m)
    | (.error halt, m) => (.error halt, m)

/-- Repeats a body for so many rounds, with a variable set to `n` in the first and one more in each
further round. -/
def countUp (v : Variable) (body : Eval Unit) (rounds : Nat) (n : Int64) (m : Machine) :
    Except Halt Unit × Machine :=
  match rounds with
  | 0 => (.ok (), m)
  | rounds + 1 =>
    match body { m with store := m.store.insert v (.int n) } with
    | (.ok _, m) => countUp v body rounds (n + 1) m
    | (.error halt, m) => (.error halt, m)

def rangeLength (lower upper : Int64) : Nat := (upper.toInt - lower.toInt + 1).toNat

end Eval

def Term.evaluate : Term → Eval (Option Value)
  | .literal value => return some value
  | .variable v => do return some (← Eval.load v)
  | .assignment v source => do
    let value ← Eval.value source.evaluate
    Eval.save v value
    return some value
  | .unary operator operand => do
    let operand ← Eval.value operand.evaluate
    return some (← Eval.lift (operator.operation.apply operand))
  | .binary left operator right => do
    let left ← Eval.value left.evaluate
    let right ← Eval.value right.evaluate
    return some (← Eval.lift (operator.operation.apply left right))
  | .call function [] => Eval.call function none
  | .call function (first :: _) => Eval.call function (some first.evaluate)
  | .conversion target source => do
    let value ← Eval.value source.evaluate
    return some (← Eval.lift (value.convert target))
  | .error => Eval.fail .errorNodeReached

mutual

def Action.run (rounds : Nat) : Action → Eval Unit
  | .block actions => Action.runAll rounds actions
  | .declaration v initializer => do
    let value ← Eval.value initializer.evaluate
    Eval.save v value
    Eval.conclude (some value)
  | .ifThen condition thenAction => do
    if ← Eval.bool condition.evaluate then thenAction.run rounds
  | .ifThenElse condition thenAction elseAction => do
    if ← Eval.bool condition.evaluate then thenAction.run rounds else elseAction.run rounds
  | .whileLoop condition body =>
    Eval.repeatWhile (Eval.bool condition.evaluate) (body.run rounds) rounds
  | .forLoop v lower upper body => do
    let lower ← Eval.int lower.evaluate
    let upper ← Eval.int upper.evaluate
    Eval.countUp v (body.run rounds) (Eval.rangeLength lower upper) lower
  | .expression term => do Eval.conclude (← term.evaluate)

def Action.runAll (rounds : Nat) : List Action → Eval Unit
  | [] => return
  | a :: rest => do
    a.run rounds
    Action.runAll rounds rest

end

/-- More rounds than a loop can take in practice. -/
def Eval.amply : Nat := 0x4000000000000000

structure Outcome (α : Type) where
  result : Except Halt α
  store : Store
  host : Host

def Action.execute (action : Action) (rounds : Nat) (store : Store) (host : Host)
    (seed : Option UInt64) : Outcome (Option Value) :=
  let (result, m) := action.run rounds ⟨store, host, seed, none, none⟩
  ⟨result.map fun _ => m.lastValue, m.store, m.host⟩

end ScalarScript
