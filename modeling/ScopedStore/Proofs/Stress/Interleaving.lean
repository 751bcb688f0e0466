import Mathlib.Logic.Function.Basic
import ScopedStore.Proofs.Scope.Program
import ScopedStore.Proofs.Stress.Documents

/-!
# Workers that take turns

The workers of a plan run their scopes at the same time. Between any two steps of one of them (beginning a
scope, one insertion, the count, closing) the others take theirs, and time passes (`State.play`). A worker that
gets enough turns closes all of its scopes, whatever becomes of them (`State.finished_of_turns`), and the run of
one worker after the other is one such play (`State.play_oneByOne`).
-/

namespace ScopedStore

namespace Stress

/-! ## Steps -/

/-- Where a worker stands between two of its steps. -/
inductive Progress where
  | idle
  /-- The body of its scope has inserted so many documents. -/
  | working (scope : Scope) (inserted : Nat)
  /-- The body of its scope has given its result. -/
  | returned (scope : Scope) (outcome : Except TxError Unit)

def Progress.scope? : Progress → Option Scope
  | .idle => none
  | .working scope _ | .returned scope _ => some scope

structure Worker where
  /-- How many of its scopes are closed. -/
  finished : Nat := 0
  progress : Progress := .idle

def Worker.key? (w : Worker) : Option TxKey :=
  w.progress.scope?.bind fun scope => scope.context.transaction

def insertNext (f : Fixture) (ns : Namespace) (worker number : Nat) (scope : Scope) (inserted : Nat)
    (sys : System) : Progress × System :=
  match sys.requestThrough f.client f.binding scope.context
      (.documents { ns := ns } (.insertOne (document worker number inserted))) with
  | (.ok _, sys) => (.working scope (inserted + 1), sys)
  | (.error e, sys) => (.returned scope (.error e), sys)

/-- Counts the documents of the worker in its scope, and with that the body ends. -/
def countOwn (f : Fixture) (ns : Namespace) (plan : Plan) (worker number : Nat) (scope : Scope)
    (sys : System) : Progress × System :=
  match sys.requestThrough f.client f.binding scope.context
      (.documents { ns := ns } (.count (own worker))) with
  | (.ok reply, sys) =>
    (.returned scope (checkSeen (sys.txId (scope.context.transaction.getD 0))
      ((number + 1) * plan.operations) reply), sys)
  | (.error e, sys) => (.returned scope (.error e), sys)

/-- The next step of a worker. It gives an outcome when it closes a scope. -/
def Worker.step (f : Fixture) (ns : Namespace) (plan : Plan) (worker : Nat) (w : Worker)
    (sys : System) : (Worker × Option (Except TxError Unit)) × System :=
  match w.progress with
  | .idle =>
    let (scope, sys) := sys.begin f.root .required {}
    (({ w with progress := .working scope 0 }, none), sys)
  | .working scope inserted =>
    let (progress, sys) :=
      if inserted < plan.operations then insertNext f ns worker w.finished scope inserted sys
      else countOwn f ns plan worker w.finished scope sys
    (({ w with progress := progress }, none), sys)
  | .returned scope result =>
    let (outcome, sys) := sys.finish scope result
    (({ finished := w.finished + 1 }, some outcome), sys)

/-! ## Turns -/

def Tally.add (t : Tally) : Except TxError Unit → Tally
  | .ok () => { t with successful := t.successful + 1 }
  | .error _ => { t with failed := t.failed + 1 }

/-- Workers in the middle of a plan. -/
structure State where
  system : System
  tally : Tally := {}
  workers : Nat → Worker := fun _ => {}

inductive Turn where
  | step (worker : Nat)
  | wait (seconds : Nat)
deriving DecidableEq

namespace State

variable (f : Fixture) (ns : Namespace) (plan : Plan)

/-- A worker of the plan takes its next step, unless all of its scopes are closed. -/
def step (state : State) (worker : Nat) : State :=
  let w := state.workers worker
  if worker < plan.workers ∧ w.finished < plan.scopes then
    let ((w, outcome), sys) := w.step f ns plan worker state.system
    { system := sys
      tally := outcome.elim state.tally state.tally.add
      workers := Function.update state.workers worker w }
  else state

def after (state : State) : Turn → State
  | .step worker => state.step f ns plan worker
  | .wait seconds =>
    { state with system := { state.system with clock := state.system.clock + seconds } }

def play (state : State) (turns : List Turn) : State := turns.foldl (after f ns plan) state

end State

def State.Finished (plan : Plan) (state : State) : Prop :=
  ∀ worker < plan.workers, (state.workers worker).finished = plan.scopes

variable {f : Fixture} {ns : Namespace} {plan : Plan} {state : State} {worker : Nat} {w : Worker}

theorem State.play_append (state : State) (turns turns' : List Turn) :
    state.play f ns plan (turns ++ turns') = (state.play f ns plan turns).play f ns plan turns' :=
  List.foldl_append

theorem State.step_of_active (hworker : worker < plan.workers)
    (hactive : (state.workers worker).finished < plan.scopes) :
    let stepped := (state.workers worker).step f ns plan worker state.system
    state.step f ns plan worker =
      { system := stepped.2
        tally := stepped.1.2.elim state.tally state.tally.add
        workers := Function.update state.workers worker stepped.1.1 } := by
  intro stepped
  unfold State.step
  exact if_pos ⟨hworker, hactive⟩

section OneStep

variable (f ns)

variable {scope : Scope} {inserted : Nat} {result : Except TxError Unit} (hworker : worker < plan.workers)
  (hactive : (state.workers worker).finished < plan.scopes)

include hworker hactive

theorem State.step_begins (hidle : (state.workers worker).progress = .idle) :
    let begun := state.system.begin f.root .required {}
    state.step f ns plan worker =
      { state with
        system := begun.2
        workers := Function.update state.workers worker
          { state.workers worker with progress := .working begun.1 0 } } := by
  intro begun
  rw [state.step_of_active hworker hactive, Worker.step, hidle]
  rfl

theorem State.step_inserts (hworking : (state.workers worker).progress = .working scope inserted)
    (hnext : inserted < plan.operations) :
    let called := insertNext f ns worker (state.workers worker).finished scope inserted state.system
    state.step f ns plan worker =
      { state with
        system := called.2
        workers := Function.update state.workers worker { state.workers worker with progress := called.1 } } := by
  intro called
  rw [state.step_of_active hworker hactive, Worker.step, hworking]
  dsimp only
  rw [if_pos hnext]
  rfl

theorem State.step_counts (hworking : (state.workers worker).progress = .working scope inserted)
    (hlast : ¬inserted < plan.operations) :
    let called := countOwn f ns plan worker (state.workers worker).finished scope state.system
    state.step f ns plan worker =
      { state with
        system := called.2
        workers := Function.update state.workers worker { state.workers worker with progress := called.1 } } := by
  intro called
  rw [state.step_of_active hworker hactive, Worker.step, hworking]
  dsimp only
  rw [if_neg hlast]
  rfl

theorem State.step_closes (hreturned : (state.workers worker).progress = .returned scope result) :
    let finished := state.system.finish scope result
    state.step f ns plan worker =
      { system := finished.2
        tally := state.tally.add finished.1
        workers := Function.update state.workers worker { finished := (state.workers worker).finished + 1 } } := by
  intro finished
  rw [state.step_of_active hworker hactive, Worker.step, hreturned]
  rfl

end OneStep

/-! ## Enough turns -/

/-- The number of steps that close all scopes of a worker. -/
def Plan.steps (plan : Plan) : Nat := plan.scopes * (plan.operations + 3)

def Progress.position (plan : Plan) : Progress → Nat
  | .idle => 0
  | .working _ inserted => 1 + min inserted plan.operations
  | .returned _ _ => plan.operations + 2

/-- How many steps a worker has taken, or need not take since a scope failed. -/
def Worker.position (plan : Plan) (w : Worker) : Nat :=
  w.finished * (plan.operations + 3) + w.progress.position plan

theorem Progress.position_lt (plan : Plan) (p : Progress) : p.position plan < plan.operations + 3 := by
  unfold Progress.position
  split <;> omega

theorem position_insertNext {inserted : Nat} (hlt : inserted < plan.operations) (worker number : Nat)
    (scope : Scope) (sys : System) :
    1 + min inserted plan.operations <
      (insertNext f ns worker number scope inserted sys).1.position plan := by
  unfold insertNext
  split <;> dsimp only [Progress.position] <;> omega

theorem position_countOwn (worker number : Nat) (scope : Scope) (sys : System) :
    (countOwn f ns plan worker number scope sys).1.position plan = plan.operations + 2 := by
  unfold countOwn
  split <;> rfl

variable (f ns plan worker) in
theorem Worker.position_step (w : Worker) (sys : System) :
    let w' := (w.step f ns plan worker sys).1.1
    w.position plan < w'.position plan ∧ w'.finished ≤ w.finished + 1 := by
  obtain ⟨finished, progress⟩ := w
  unfold Worker.step Worker.position
  cases progress with
  | idle => exact ⟨Nat.add_lt_add_left (Nat.succ_pos _) _, Nat.le_succ _⟩
  | returned scope result =>
    refine ⟨?_, Nat.le_refl _⟩
    show _ < (finished + 1) * (plan.operations + 3)
    rw [Nat.add_mul, Nat.one_mul]
    exact Nat.add_lt_add_left (Progress.position_lt plan _) _
  | working scope inserted =>
    dsimp only
    by_cases hlt : inserted < plan.operations
    · rw [if_pos hlt]
      exact ⟨Nat.add_lt_add_left (position_insertNext hlt worker finished scope sys) _, Nat.le_succ _⟩
    · rw [if_neg hlt, position_countOwn]
      refine ⟨Nat.add_lt_add_left ?_ _, Nat.le_succ _⟩
      show 1 + min inserted plan.operations < plan.operations + 2
      omega

theorem Worker.finished_of_position (hposition : plan.steps ≤ w.position plan) :
    plan.scopes ≤ w.finished := by
  by_contra hless
  have hrest : w.position plan < (w.finished + 1) * (plan.operations + 3) := by
    rw [Nat.add_mul, Nat.one_mul]
    exact Nat.add_lt_add_left (Progress.position_lt plan _) _
  have hmul : (w.finished + 1) * (plan.operations + 3) ≤ plan.steps :=
    Nat.mul_le_mul_right _ (Nat.lt_of_not_le hless)
  exact Nat.lt_irrefl _ (Nat.lt_of_lt_of_le hrest (Nat.le_trans hmul hposition))

namespace State

variable (f ns) in
/-- A turn of a worker leads it further, and no turn leads it back or beyond its last scope. -/
theorem position_after (hworker : worker < plan.workers)
    (hfinished : (state.workers worker).finished ≤ plan.scopes) (turn : Turn) :
    let w := state.workers worker
    let w' := (state.after f ns plan turn).workers worker
    min (w.position plan + [turn].count (.step worker)) plan.steps ≤ w'.position plan ∧
      w'.finished ≤ plan.scopes := by
  intro w w'
  have hrest (hsame : w' = w) (hcount : [turn].count (.step worker) = 0 ∨ w.finished = plan.scopes) :
      min (w.position plan + [turn].count (.step worker)) plan.steps ≤ w'.position plan ∧
        w'.finished ≤ plan.scopes := by
    rw [hsame]
    refine ⟨?_, hfinished⟩
    rcases hcount with hcount | hall
    · rw [hcount]
      exact Nat.min_le_left ..
    · refine Nat.le_trans (Nat.min_le_right ..) ?_
      rw [Worker.position, hall]
      exact Nat.le_add_right ..
  cases turn with
  | wait seconds => exact hrest rfl (.inl rfl)
  | step worker' =>
    by_cases hother : worker' = worker
    · subst hother
      by_cases hactive : w.finished < plan.scopes
      · have hstepped : w' = (w.step f ns plan worker' state.system).1.1 := by
          show (state.step f ns plan worker').workers worker' = _
          rw [state.step_of_active hworker hactive]
          exact Function.update_self ..
        obtain ⟨hfurther, hnext⟩ := w.position_step f ns plan worker' state.system
        rw [hstepped, List.count_singleton_self]
        exact ⟨Nat.le_trans (Nat.min_le_left ..) hfurther, Nat.le_trans hnext hactive⟩
      · refine hrest ?_ (.inr (Nat.le_antisymm hfinished (Nat.le_of_not_lt hactive)))
        show (state.step f ns plan worker').workers worker' = _
        unfold State.step
        rw [if_neg fun hboth => hactive hboth.2]
    · refine hrest ?_ (.inl (List.count_eq_zero_of_not_mem fun hmem => ?_))
      · show (state.step f ns plan worker').workers worker = _
        unfold State.step
        dsimp only
        split
        · exact Function.update_of_ne (Ne.symm hother) ..
        · rfl
      · cases List.mem_singleton.1 hmem
        exact hother rfl

theorem finished_of_turns {turns : List Turn} (sys : System)
    (hturns : ∀ worker < plan.workers, plan.steps ≤ turns.count (.step worker)) :
    (({ system := sys } : State).play f ns plan turns).Finished plan := by
  intro worker hworker
  have hplayed (state : State) (hfinished : (state.workers worker).finished ≤ plan.scopes) :
      let w' := (state.play f ns plan turns).workers worker
      min ((state.workers worker).position plan + turns.count (.step worker)) plan.steps ≤
          w'.position plan ∧ w'.finished ≤ plan.scopes := by
    clear hturns
    induction turns generalizing state with
    | nil => exact ⟨Nat.min_le_left .., hfinished⟩
    | cons turn rest ih =>
      obtain ⟨hfirst, hfinished'⟩ := state.position_after f ns hworker hfinished turn
      obtain ⟨hrest, hlast⟩ := ih (state.after f ns plan turn) hfinished'
      refine ⟨Nat.le_trans ?_ hrest, hlast⟩
      rw [List.count_cons]
      rw [List.count_singleton] at hfirst
      omega
  obtain ⟨hposition, hlast⟩ := hplayed { system := sys } (Nat.zero_le _)
  refine Nat.le_antisymm hlast (Worker.finished_of_position (Nat.le_trans ?_ hposition))
  exact Nat.le_min.2 ⟨Nat.le_trans (hturns worker hworker) (Nat.le_add_left ..), Nat.le_refl _⟩

end State

/-! ## One worker after the other -/

/-- Each worker in turn takes all of its steps. -/
def Plan.oneByOne (plan : Plan) : List Turn :=
  (List.range plan.workers).flatMap fun worker => List.replicate plan.steps (.step worker)

/-- What is left of the body of a scope that has these documents to insert. -/
def bodyFrom (f : Fixture) (ns : Namespace) (plan : Plan) (worker number : Nat) (scope : Scope)
    (docs : List Document) (sys : System) : Except TxError Unit × System :=
  match insertAll f ns scope.context docs sys with
  | (.error e, sys) => (.error e, sys)
  | (.ok (), sys) =>
    match sys.requestThrough f.client f.binding scope.context
        (.documents { ns := ns } (.count (own worker))) with
    | (.error e, sys) => (.error e, sys)
    | (.ok reply, sys) => (checkSeen (sys.txId (scope.context.transaction.getD 0))
        ((number + 1) * plan.operations) reply, sys)

theorem countOwn_eq_bodyFrom (worker number : Nat) (scope : Scope) (sys : System) :
    let returned := bodyFrom f ns plan worker number scope [] sys
    countOwn f ns plan worker number scope sys = (.returned scope returned.1, returned.2) := by
  unfold bodyFrom countOwn
  rw [insertAll]
  dsimp only
  generalize sys.requestThrough _ _ _ _ = called
  obtain ⟨outcome, sys⟩ := called
  cases outcome <;> rfl

theorem bodyFrom_cons (worker number : Nat) (scope : Scope) (d : Document) (docs : List Document)
    (sys : System) :
    bodyFrom f ns plan worker number scope (d :: docs) sys =
      match sys.requestThrough f.client f.binding scope.context
          (.documents { ns := ns } (.insertOne d)) with
      | (.ok _, sys) => bodyFrom f ns plan worker number scope docs sys
      | (.error e, sys) => (.error e, sys) := by
  unfold bodyFrom
  rw [insertAll]
  generalize sys.requestThrough _ _ _ _ = called
  obtain ⟨outcome, sys⟩ := called
  cases outcome <;> rfl

theorem runScope_eq (worker number : Nat) (tally : Tally) (sys : System) :
    let begun := sys.begin f.root .required {}
    let docs := (List.range plan.operations).map (document worker number)
    let returned := bodyFrom f ns plan worker number begun.1 docs begun.2
    let finished := returned.2.finish begun.1 returned.1
    runScope f ns plan worker number (tally, sys) = (tally.add finished.1, finished.2) := by
  intro begun docs returned finished
  have hscope : { begun.1 with completed := false } = begun.1 := by
    have hcompleted : begun.1.completed = false := sys.completed_begin f.root .required {}
    rw [← hcompleted]
  have hreturned : body f ns plan worker number begun.1.context begun.2 = returned := rfl
  have hbegun : sys.begin f.root .required {} = begun := rfl
  have hfinished : returned.2.finish begun.1 returned.1 = finished := rfl
  have hrun : (runScoped f.root .required (body f ns plan worker number) :
      StateM System (Except TxError Unit)) sys = finished := by
    simp only [runScoped, bind, StateT.bind, modifyGet, MonadStateOf.modifyGet, StateT.modifyGet]
    rw [hbegun]
    dsimp only [pure, StateT.pure]
    rw [hreturned, ← hfinished]
    obtain ⟨result, before⟩ := returned
    unfold System.finish
    cases result with
    | ok a =>
      dsimp only [Except.isOk, Except.toBool, StateT.bind, StateT.modifyGet, bind]
      generalize before.close _ = closed
      obtain ⟨outcome, after⟩ := closed
      cases outcome <;> rfl
    | error e =>
      dsimp only [Except.isOk, Except.toBool]
      rw [hscope]
      rfl
  unfold runScope
  dsimp only
  rw [hrun]
  obtain ⟨outcome, after⟩ := finished
  cases outcome <;> rfl

namespace State

def playOf (f : Fixture) (ns : Namespace) (plan : Plan) (worker n : Nat) (state : State) : State :=
  state.play f ns plan (List.replicate n (.step worker))

theorem playOf_succ (n : Nat) (state : State) :
    state.playOf f ns plan worker (n + 1) =
      (state.step f ns plan worker).playOf f ns plan worker n := rfl

theorem playOf_add (m n : Nat) (state : State) :
    state.playOf f ns plan worker (m + n) =
      (state.playOf f ns plan worker m).playOf f ns plan worker n := by
  unfold playOf
  rw [← List.replicate_append_replicate, play_append]

variable (f ns) in
theorem exists_playOf_returned {inserted left : Nat} {scope : Scope} (hworker : worker < plan.workers)
    (hleft : inserted + left = plan.operations) (state : State)
    (hactive : (state.workers worker).finished < plan.scopes)
    (hworking : (state.workers worker).progress = .working scope inserted) :
    let number := (state.workers worker).finished
    let docs := (List.range' inserted left).map (document worker number)
    let returned := bodyFrom f ns plan worker number scope docs state.system
    ∃ n ≤ left + 1, state.playOf f ns plan worker n =
      { state with
        system := returned.2
        workers := Function.update state.workers worker ⟨number, .returned scope returned.1⟩ } := by
  induction left generalizing inserted state with
  | zero =>
    have hlast : ¬inserted < plan.operations := by omega
    refine ⟨1, Nat.le_refl _, ?_⟩
    rw [playOf_succ, step_counts f ns hworker hactive hworking hlast, countOwn_eq_bodyFrom]
    rfl
  | succ left ih =>
    have hnext : inserted < plan.operations := by omega
    have hstep := step_inserts f ns hworker hactive hworking hnext
    rw [insertNext] at hstep
    dsimp only at hstep ⊢
    rw [List.range'_succ, List.map_cons, bodyFrom_cons]
    generalize state.system.requestThrough _ _ _ _ = called at *
    obtain ⟨outcome, sys⟩ := called
    cases outcome with
    | error e => exact ⟨1, by omega, hstep⟩
    | ok reply =>
      have hw := congrArg (fun state => state.workers worker) hstep
      dsimp only at hw
      rw [Function.update_self] at hw
      obtain ⟨n, hn, hplayed⟩ := ih (by omega : inserted + 1 + left = plan.operations) (state.step f ns plan worker)
        (by rw [hw]; exact hactive) (by rw [hw])
      refine ⟨n + 1, by omega, ?_⟩
      rw [playOf_succ, hplayed, hw, hstep]
      dsimp only
      rw [Function.update_idem]

variable (f ns) in
theorem exists_playOf_scope (hworker : worker < plan.workers) (state : State)
    (hactive : (state.workers worker).finished < plan.scopes)
    (hidle : (state.workers worker).progress = .idle) :
    let number := (state.workers worker).finished
    let ran := runScope f ns plan worker number (state.tally, state.system)
    ∃ n ≤ plan.operations + 3, state.playOf f ns plan worker n =
      { system := ran.2
        tally := ran.1
        workers := Function.update state.workers worker ⟨number + 1, .idle⟩ } := by
  have hbegun := step_begins f ns hworker hactive hidle
  have hw := congrArg (fun state => state.workers worker) hbegun
  dsimp only at hw
  rw [Function.update_self] at hw
  obtain ⟨n, hn, hreturned⟩ := exists_playOf_returned f ns hworker (Nat.zero_add _)
    (state.step f ns plan worker) (by rw [hw]; exact hactive) (by rw [hw])
  rw [hw] at hreturned
  have hlast := congrArg (fun state => state.workers worker) hreturned
  dsimp only at hlast
  rw [Function.update_self] at hlast
  have hclosed := step_closes f ns hworker (by rw [hlast]; exact hactive)
    (congrArg Worker.progress hlast)
  refine ⟨n + 2, by omega, ?_⟩
  have hsteps : state.playOf f ns plan worker (n + 2) =
      ((state.step f ns plan worker).playOf f ns plan worker n).step f ns plan worker := by
    rw [playOf_succ, playOf_add]
    rfl
  rw [hsteps, hclosed, hlast, hreturned, hbegun, runScope_eq, ← List.range_eq_range']
  dsimp only
  rw [Function.update_idem, Function.update_idem]

variable (f ns) in
theorem exists_playOf_scopes {left : Nat} (hworker : worker < plan.workers) (state : State)
    (hleft : (state.workers worker).finished + left = plan.scopes)
    (hidle : (state.workers worker).progress = .idle) :
    let ran := (List.range' (state.workers worker).finished left).foldl
      (fun sofar number => runScope f ns plan worker number sofar) (state.tally, state.system)
    ∃ n ≤ left * (plan.operations + 3), state.playOf f ns plan worker n =
      { system := ran.2
        tally := ran.1
        workers := Function.update state.workers worker ⟨plan.scopes, .idle⟩ } := by
  induction left generalizing state with
  | zero =>
    have hw : state.workers worker = ⟨plan.scopes, .idle⟩ := by rw [← hleft, ← hidle]; rfl
    refine ⟨0, Nat.zero_le _, ?_⟩
    rw [← hw, Function.update_eq_self]
    rfl
  | succ left ih =>
    obtain ⟨n, hn, hscope⟩ := exists_playOf_scope f ns hworker state (by omega) hidle
    have hw := congrArg (fun state => state.workers worker) hscope
    dsimp only at hw
    rw [Function.update_self] at hw
    obtain ⟨m, hm, hscopes⟩ := ih (state.playOf f ns plan worker n)
      (by rw [hw]; exact (Nat.add_right_comm ..).trans hleft) (by rw [hw])
    refine ⟨n + m, by rw [Nat.add_mul]; omega, ?_⟩
    rw [playOf_add, hscopes, hw, hscope, List.range'_succ, List.foldl_cons]
    dsimp only
    rw [Function.update_idem]

theorem playOf_of_finished (hdone : plan.scopes ≤ (state.workers worker).finished) (n : Nat) :
    state.playOf f ns plan worker n = state := by
  induction n with
  | zero => rfl
  | succ n ih =>
    have hstep : state.step f ns plan worker = state := by
      unfold State.step
      exact if_neg fun hboth => Nat.not_lt.2 hdone hboth.2
    rw [playOf_succ, hstep, ih]

variable (f ns) in
theorem playOf_steps (hworker : worker < plan.workers) (state : State) (hw : state.workers worker = {}) :
    let ran := (List.range plan.scopes).foldl
      (fun sofar number => runScope f ns plan worker number sofar) (state.tally, state.system)
    state.playOf f ns plan worker plan.steps =
      { system := ran.2
        tally := ran.1
        workers := Function.update state.workers worker ⟨plan.scopes, .idle⟩ } := by
  obtain ⟨n, hn, hscopes⟩ := exists_playOf_scopes f ns hworker state (by rw [hw]; exact Nat.zero_add _)
    (by rw [hw])
  rw [hw] at hscopes
  dsimp only
  unfold Plan.steps
  rw [← Nat.add_sub_of_le hn, playOf_add, hscopes, List.range_eq_range']
  refine playOf_of_finished ?_ _
  have hlast := Function.update_self worker ⟨plan.scopes, .idle⟩ state.workers
  exact Nat.le_of_eq (congrArg Worker.finished hlast).symm

/-- Running one worker after the other is to let each have all of its turns before the next. -/
theorem play_oneByOne (sys : System) :
    let played := ({ system := sys } : State).play f ns plan plan.oneByOne
    (played.tally, played.system) = run f ns plan sys := by
  have hplay (workers : List Nat) (hworkers : ∀ worker ∈ workers, worker < plan.workers)
      (hdistinct : workers.Nodup) (state : State) (hw : ∀ worker ∈ workers, state.workers worker = {}) :
      let played := state.play f ns plan
        (workers.flatMap fun worker => List.replicate plan.steps (.step worker))
      (played.tally, played.system) = workers.foldl
        (fun sofar worker => (List.range plan.scopes).foldl
          (fun sofar number => runScope f ns plan worker number sofar) sofar)
        (state.tally, state.system) := by
    induction workers generalizing state with
    | nil => rfl
    | cons worker others ih =>
      obtain ⟨hfirst, hothers⟩ := List.forall_mem_cons.1 hworkers
      obtain ⟨hnew, hdistinct⟩ := List.nodup_cons.1 hdistinct
      have hplayed := playOf_steps f ns hfirst state (hw worker List.mem_cons_self)
      intro played
      have hsplit : played = (state.playOf f ns plan worker plan.steps).play f ns plan
          (others.flatMap fun worker => List.replicate plan.steps (.step worker)) := by
        show state.play f ns plan _ = _
        rw [List.flatMap_cons, play_append]
        rfl
      rw [hsplit, List.foldl_cons]
      refine (ih hothers hdistinct _ fun other hother => ?_).trans ?_
      · have hne : other ≠ worker := fun hsame => hnew (hsame ▸ hother)
        rw [hplayed]
        exact (Function.update_of_ne hne ..).trans (hw other (List.mem_cons_of_mem _ hother))
      · rw [hplayed]
  exact hplay (List.range plan.workers) (fun _ => List.mem_range.1) List.nodup_range { system := sys }
    fun _ _ => rfl

end State

end Stress

end ScopedStore
