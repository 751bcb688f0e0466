import ScopedStore.Fixture

/-!
# Many scopes on one client

Several workers run scopes one after the other. Each scope inserts documents that carry the number of
its worker and checks that it sees the documents of its worker and no others: those committed before
and its own. The workers take their turns one after the other here; their documents do not meet, so
no other order gives other counts.
-/

namespace ScopedStore

namespace Stress

structure Plan where
  workers : Nat
  scopes : Nat
  operations : Nat

structure Tally where
  successful : Nat := 0
  failed : Nat := 0
deriving DecidableEq

def Tally.total (t : Tally) : Nat := t.successful + t.failed

def document (worker scope operation : Nat) : Document :=
  SortedMap.ofList
    [(Document.idField,
        .text (toString worker ++ "-" ++ toString scope ++ "-" ++ toString operation)),
      ("thread", .ofInt worker)]

/-- Inserts the documents of a scope through the fixture's facade. -/
def insertAll (f : Fixture) (ns : Namespace) (cx : Context) :
    List Document → System → Except TxError Unit × System
  | [], sys => (.ok (), sys)
  | d :: rest, sys =>
    match sys.requestThrough f.client f.binding cx (.documents { ns := ns } (.insertOne d)) with
    | (.ok _, sys) => insertAll f ns cx rest sys
    | (.error e, sys) => (.error e, sys)

/-- Fails unless the scope sees as many documents of its worker as it should. -/
def checkSeen (id : TxId) (expected : Nat) : Reply → Except TxError Unit
  | .count seen =>
    if seen = expected then .ok ()
    else
      .error (.aborted id
        ("saw " ++ toString seen ++ " documents, expected " ++ toString expected))
  | _ => .ok ()

/-- What a worker does inside a scope. -/
def body (f : Fixture) (ns : Namespace) (plan : Plan) (worker scope : Nat) (cx : Context)
    (sys : System) : Except TxError Unit × System :=
  let docs := (List.range plan.operations).map (document worker scope)
  match insertAll f ns cx docs sys with
  | (.error e, sys) => (.error e, sys)
  | (.ok (), sys) =>
    let own : Filter := .eq "thread" (.ofInt worker)
    match sys.requestThrough f.client f.binding cx (.documents { ns := ns } (.count own)) with
    | (.error e, sys) => (.error e, sys)
    | (.ok reply, sys) => (checkSeen (sys.txId (cx.transaction.getD 0))
        ((scope + 1) * plan.operations) reply, sys)

/-- Runs one scope of a worker and counts its outcome. -/
def runScope (f : Fixture) (ns : Namespace) (plan : Plan) (worker scope : Nat)
    (state : Tally × System) : Tally × System :=
  let run : StateM System (Except TxError Unit) :=
    runScoped f.root .required (body f ns plan worker scope)
  match run state.2 with
  | (.ok (), sys) => ({ state.1 with successful := state.1.successful + 1 }, sys)
  | (.error _, sys) => ({ state.1 with failed := state.1.failed + 1 }, sys)

def run (f : Fixture) (ns : Namespace) (plan : Plan) (sys : System) : Tally × System :=
  (List.range plan.workers).foldl
    (fun state worker =>
      (List.range plan.scopes).foldl (fun state scope => runScope f ns plan worker scope state)
        state)
    ({}, sys)

/-- Runs a plan several times on one fixture. Each run gives its tally, the number of documents that
are committed after it, and the statistics so far. -/
def series (f : Fixture) (ns : Namespace) (plan : Plan) :
    Nat → System → List (Tally × Nat × Statistics)
  | 0, _ => []
  | n + 1, sys =>
    let (tally, sys) := run f ns plan sys
    let (committed, sys) := f.committedCount sys ns
    (tally, committed.toOption.getD 0, (sys.client f.client).stats) :: series f ns plan n sys

end Stress

end ScopedStore
