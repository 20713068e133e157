import ScalarScript.Session.Compilation

set_option autoImplicit false

namespace ScalarScript

structure Session where
  /-- The seed of random numbers for the first fragment; later ones count up from it. -/
  seed : Option UInt64
  store : Store
  host : Host
  chain : List Compilation

namespace Session

def start (host : Host) (seed : Option UInt64) : Session := ⟨seed, .empty, host, []⟩

def ordinal (s : Session) : Nat := s.chain.length

def compile (s : Session) (fragment : Fragment) : Compilation := .after s.chain fragment

/-- Evaluates a compilation made in this session. One that succeeds joins the chain. -/
def run (s : Session) (rounds : Nat) (c : Compilation) : Except Halt Evaluation × Session :=
  let seed := s.seed.map fun seed => seed + UInt64.ofNat s.ordinal
  let outcome := c.evaluate rounds s.store s.host seed
  let succeeded :=
    match outcome.result with
    | .ok evaluation => evaluation.isSuccess
    | .error _ => false
  (outcome.result,
    { s with
      store := outcome.store
      host := outcome.host
      chain := if succeeded then c :: s.chain else s.chain })

def submit (s : Session) (rounds : Nat) (text : String) : Except Halt Evaluation × Session :=
  s.run rounds (s.compile (.ofText text))

def reset (s : Session) : Session := { s with store := .empty, chain := [] }

def head? (s : Session) : Option Nat :=
  match s.chain with
  | [] => none
  | _ :: rest => some rest.length

end Session

end ScalarScript
