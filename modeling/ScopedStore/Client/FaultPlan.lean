/-!
# Fault plans

A fault plan makes the next calls of a kind fail, for each kind a number of them. `take` says whether
a call fails and counts it.
-/

namespace ScopedStore

/-- The calls that can be made to fail. -/
inductive FaultKind where
  | sessionStart
  | transactionStart
  | commit
  | abort
deriving DecidableEq

/-- How many of the next calls of each kind fail. -/
structure FaultPlan where
  sessionStarts : Nat := 0
  transactionStarts : Nat := 0
  commits : Nat := 0
  aborts : Nat := 0
deriving DecidableEq, Inhabited

namespace FaultPlan

def armed (p : FaultPlan) : FaultKind → Nat
  | .sessionStart => p.sessionStarts
  | .transactionStart => p.transactionStarts
  | .commit => p.commits
  | .abort => p.aborts

def arm (p : FaultPlan) (kind : FaultKind) (n : Nat) : FaultPlan :=
  match kind with
  | .sessionStart => { p with sessionStarts := n }
  | .transactionStart => { p with transactionStarts := n }
  | .commit => { p with commits := n }
  | .abort => { p with aborts := n }

/-- Whether a call of a kind fails, and the plan after it. -/
def take (p : FaultPlan) (kind : FaultKind) : Bool × FaultPlan :=
  match p.armed kind with
  | 0 => (false, p)
  | n + 1 => (true, p.arm kind n)

end FaultPlan

end ScopedStore
