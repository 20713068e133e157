set_option autoImplicit false

namespace ScalarScript

structure Host where
  pending : List String
  written : Array String
  entropy : UInt64
  deriving DecidableEq, Repr

namespace Host

def ofLines (pending : List String) : Host := ⟨pending, #[], 0⟩

/-- The next line; after the last one, empty lines. -/
def readLine (host : Host) : String × Host :=
  match host.pending with
  | [] => ("", host)
  | line :: rest => (line, { host with pending := rest })

def writeLine (host : Host) (line : String) : Host :=
  { host with written := host.written.push line }

def drawSeed (host : Host) : UInt64 × Host :=
  (host.entropy, { host with entropy := host.entropy + 1 })

def writtenSince (host : Host) (n : Nat) : List String := host.written.toList.drop n

end Host

end ScalarScript
