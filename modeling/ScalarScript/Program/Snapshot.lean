import ScalarScript.Program.Bind

set_option autoImplicit false

namespace ScalarScript

structure Snapshot where
  ordinal : Nat
  /-- What is wrong with the meaning of all fragments so far, the earliest first. -/
  diagnostics : List Diagnostic
  exported : List Variable
  action : Action

namespace Snapshot

def nextFragment (earlier : List Snapshot) : Nat := earlier.length

def replay (snapshot : Snapshot) (chain : ScopeChain) : ScopeChain :=
  snapshot.exported.foldl (fun chain v => (chain.import? v).getD chain) chain.push

/-- The scopes around the fragment that comes after these: one for each fragment, the earliest
outermost. -/
def scopesAfter (earlier : List Snapshot) : ScopeChain :=
  earlier.foldr replay (.ofFragment (nextFragment earlier))

def bind (earlier : List Snapshot) (tree : Tree) : Snapshot :=
  let (action, binding) := tree.statement.bind.run ⟨(scopesAfter earlier).push, []⟩
  let ordinal := (earlier.head?.map fun previous => previous.ordinal + 1).getD 0
  let before := (earlier.head?.map Snapshot.diagnostics).getD []
  ⟨ordinal, before ++ binding.diagnostics, binding.scopes.current.vars, action⟩

end Snapshot

end ScalarScript
