import ScopedStore.Proofs.Ordered
import ScopedStore.Scope.Facade

/-!
# Programs of nested scopes

A program makes calls through one facade and runs other programs in scopes, nested to any depth; what it
does next may depend on every outcome, so it passes errors on or swallows them as it likes (`Program`).
Executing it records all that occurs, with the system as it is afterwards (`Program.execute`).
-/

namespace ScopedStore

/-- A program that gives a result. Contexts are those of the scopes around a place; they are counted from
the inside, and the last is the root. -/
inductive Program : Type → Type 1 where
  | done {α : Type} (result : α) : Program α
  | wait {α : Type} (seconds : Nat) (next : Program α) : Program α
  /-- An operation on documents in a context. -/
  | call {α : Type} (reach : Nat) (handle : Handle) (op : DocumentOp)
      (ordered : (Request.documents handle op).Ordered) (next : Except TxError Reply → Program α) :
      Program α
  /-- A run of a program in a scope under a context. -/
  | run {α β : Type} (reach : Nat) (option : ScopeOption) (body : Program (Except TxError β))
      (next : Except TxError β → Program α) : Program α

/-- Something that occurs while a program is executed, and the system after it. -/
inductive Occurrence where
  | waited (after : System)
  | called (cx : Context) (handle : Handle) (op : DocumentOp) (outcome : Except TxError Reply)
      (after : System)
  /-- The scope of a run has been begun. -/
  | begun (scope : Scope) (after : System)
  /-- The body of a run has given its result; the scope is closed next. -/
  | returned (scope : Scope) (succeeded : Bool) (after : System)
  /-- A run has given its result. -/
  | ended (scope : Scope) (succeeded : Bool) (after : System)

def Occurrence.after : Occurrence → System
  | .waited after | .called _ _ _ _ after | .begun _ after | .returned _ _ after | .ended _ _ after => after

/-- What acts on a system, with a record of what occurs. -/
abbrev Recorded := StateT System (StateM (List Occurrence))

def record (occurrence : System → Occurrence) : Recorded Unit := fun sys history =>
  (((), sys), history ++ [occurrence sys])

/-- Executes a program with a facade of a client where these contexts are in reach. -/
def Program.execute (client : ClientKey) (registry : RegistryKey) :
    {α : Type} → Program α → List Context → Recorded α
  | _, .done result, _ => pure result
  | _, .wait seconds next, contexts => do
    modify fun sys => { sys with clock := sys.clock + seconds }
    record .waited
    next.execute client registry contexts
  | _, .call reach handle op _ next, contexts => do
    let cx := contexts.getD reach {}
    let outcome ← modifyGet fun sys : System =>
      sys.requestThrough client (.byRegistry registry) cx (.documents handle op)
    record (.called cx handle op outcome)
    (next outcome).execute client registry contexts
  | _, .run reach option body next, contexts => do
    let parent := contexts.getD reach {}
    let sys ← get
    let scope := (sys.begin parent option {}).1
    let outcome ← runScoped parent option fun cx => do
      record (.begun scope)
      let result ← body.execute client registry (cx :: contexts)
      record (.returned scope result.isOk)
      return result
    record (.ended scope outcome.isOk)
    (next outcome).execute client registry contexts

/-- Closes the scope of a run whose body has given its result. -/
def System.finish {α : Type} (sys : System) (scope : Scope) (result : Except TxError α) :
    Except TxError α × System :=
  let closed := sys.close { scope with completed := result.isOk }
  (result.bind fun a => closed.1.map fun _ => a, closed.2)

theorem System.isOk_finish {α : Type} (sys : System) (scope : Scope) (result : Except TxError α) :
    (sys.finish scope result).1.isOk =
      (result.isOk && (sys.close { scope with completed := result.isOk }).1.isOk) := by
  unfold System.finish
  cases result with
  | error e => rfl
  | ok a =>
    let closed := sys.close { scope with completed := true }
    show (closed.1.map fun _ => a).isOk = closed.1.isOk
    cases closed.1 <;> rfl

theorem System.completed_begin (sys : System) (parent : Context) (option : ScopeOption)
    (request : ScopeRequest) : (sys.begin parent option request).1.completed = false := by
  unfold System.begin
  cases option with
  | suppress | requiresNew => rfl
  | required => cases parent.transaction <;> rfl

namespace Program

variable {α β : Type} {client : ClientKey} {registry : RegistryKey} {contexts : List Context}

theorem execute_wait (seconds : Nat) (next : Program α) (sys : System) (history : List Occurrence) :
    let waited := { sys with clock := sys.clock + seconds }
    (wait seconds next).execute client registry contexts sys history =
      next.execute client registry contexts waited (history ++ [.waited waited]) := rfl

theorem execute_call (reach : Nat) (handle : Handle) (op : DocumentOp)
    (ordered : (Request.documents handle op).Ordered) (next : Except TxError Reply → Program α)
    (sys : System) (history : List Occurrence) :
    let cx := contexts.getD reach {}
    let called := sys.requestThrough client (.byRegistry registry) cx (.documents handle op)
    (call reach handle op ordered next).execute client registry contexts sys history =
      (next called.1).execute client registry contexts called.2
        (history ++ [.called cx handle op called.1 called.2]) := rfl

theorem runScoped_eq (parent : Context) (option : ScopeOption)
    (body : Context → Recorded (Except TxError β)) (sys : System) (history : List Occurrence) :
    let begun := sys.begin parent option {}
    let returned := body begun.1.context begun.2 history
    runScoped parent option body sys history =
      (returned.1.2.finish begun.1 returned.1.1, returned.2) := by
  intro begun returned
  have hscope : { begun.1 with completed := false } = begun.1 := by
    have hcompleted : begun.1.completed = false := sys.completed_begin parent option {}
    rw [← hcompleted]
  have hbegun : sys.begin parent option {} = begun := rfl
  have hreturned : body begun.1.context begun.2 history = returned := rfl
  have hpure {γ : Type} (x : γ) (history : List Occurrence) :
      (pure x : StateM (List Occurrence) γ) history = (x, history) := rfl
  obtain ⟨⟨result, before⟩, during⟩ := returned
  simp only [runScoped, bind, StateT.bind, modifyGet, MonadStateOf.modifyGet, StateT.modifyGet, hpure]
  rw [hbegun, hreturned]
  dsimp only
  unfold System.finish
  cases result with
  | ok a =>
    dsimp only [Except.isOk, Except.toBool, StateT.bind, StateT.modifyGet, bind]
    generalize before.close _ = closed
    obtain ⟨outcome, after⟩ := closed
    cases outcome <;> rfl
  | error e =>
    dsimp only [Except.isOk, Except.toBool]
    rw [hscope]
    rfl

/-- A run is that of its body in the scope that is begun, which is then closed. -/
theorem execute_run (reach : Nat) (option : ScopeOption) (body : Program (Except TxError β))
    (next : Except TxError β → Program α) (sys : System) (history : List Occurrence) :
    let begun := sys.begin (contexts.getD reach {}) option {}
    let scope := begun.1
    let executed := body.execute client registry (scope.context :: contexts) begun.2
      (history ++ [.begun scope begun.2])
    let result := executed.1.1
    let before := executed.1.2
    let finished := before.finish scope result
    (run reach option body next).execute client registry contexts sys history =
      (next finished.1).execute client registry contexts finished.2
        (executed.2 ++ [.returned scope result.isOk before] ++
          [.ended scope finished.1.isOk finished.2]) := by
  intro begun scope executed result before finished
  let proceed (returned : (Except TxError β × System) × List Occurrence) :=
    (next returned.1.1).execute client registry contexts returned.1.2
      (returned.2 ++ [.ended scope returned.1.1.isOk returned.1.2])
  have hrun := runScoped_eq (contexts.getD reach {}) option (fun cx => do
    record (.begun scope)
    let result ← body.execute client registry (cx :: contexts)
    record (.returned scope result.isOk)
    return result) sys history
  exact congrArg proceed hrun

end Program

end ScopedStore
