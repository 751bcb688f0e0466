import ScopedStore.Scope.Enlistment

/-!
# What an enlistment calls

An enlistment is wired to a callback that unregisters it and to the session of a lease, and three flags keep it
from calling any of them twice. What it does is said here for whatever it is wired to (`Wiring.notify`): wired
to a log as well (`Wiring.logged`) it does the same and shows what it calls, and in which order. Where each call
raises its own flag and nothing else does (`Wiring.Lawful`), nothing but an early end of the session is called
before the first outcome (`run_of_quiet`); this outcome unregisters, settles the session and ends it, unless it
has ended (`use_of_outcome`), and then nothing is called any more (`run_of_done`).
-/

namespace ScopedStore

inductive Ask where
  | unregister
  | commit
  | abort
  | endSession
deriving DecidableEq

inductive Use where
  | tell (phase : Phase)
  | dispose
  | enter
  /-- From now on calls of a kind fail. -/
  | arm (kind : FaultKind) (n : Nat)
deriving DecidableEq

/-- The call by which an outcome reaches the session; asking to prepare is no outcome. -/
def Use.outcome? : Use → Option Ask
  | .tell .commit => some .commit
  | .tell .rollback | .tell .inDoubt => some .abort
  | _ => none

structure OnceFlags where
  unregistered : Bool := false
  completed : Bool := false
  disposed : Bool := false
deriving DecidableEq

namespace OnceFlags

variable {f : OnceFlags} {ask : Ask} {u : Use}

/-- Whether a call was made; a commit and an abort count as one. -/
def made (f : OnceFlags) : Ask → Bool
  | .unregister => f.unregistered
  | .commit | .abort => f.completed
  | .endSession => f.disposed

def raise (f : OnceFlags) : Ask → OnceFlags
  | .unregister => { f with unregistered := true }
  | .commit | .abort => { f with completed := true }
  | .endSession => { f with disposed := true }

theorem raise_of_made (h : f.made ask = true) : f.raise ask = f := by
  obtain ⟨unregistered, completed, disposed⟩ := f
  cases ask <;> cases h <;> rfl

theorem made_of_outcome (hu : u.outcome? = some ask) (f : OnceFlags) : f.made ask = f.completed := by
  cases u with
  | tell phase => cases phase <;> cases hu <;> rfl
  | dispose | enter | arm => cases hu

theorem raise_of_outcome (hu : u.outcome? = some ask) (f : OnceFlags) :
    f.raise ask = { f with completed := true } := by
  cases u with
  | tell phase => cases phase <;> cases hu <;> rfl
  | dispose | enter | arm => cases hu

end OnceFlags

structure Wiring (σ : Type) where
  flags : σ → OnceFlags
  call : Ask → σ → Except TxError Unit × σ
  arm : FaultKind → Nat → σ → σ

namespace Wiring

variable {σ : Type} (w : Wiring σ)

/-- Makes a call, unless it was made. -/
def once (ask : Ask) (s : σ) : Except TxError Unit × σ :=
  if (w.flags s).made ask then (.ok (), s) else w.call ask s

/-- Unregisters, settles the session and ends it. -/
def conclude (ask : Ask) (s : σ) : Except TxError Unit × σ :=
  let (outcome, s) := w.once ask (w.once .unregister s).2
  (outcome, (w.once .endSession s).2)

def notify (phase : Phase) (s : σ) : Except TxError Unit × σ :=
  match phase with
  | .prepare => (.ok (), s)
  | .commit => w.conclude .commit s
  | .rollback | .inDoubt => w.conclude .abort s

def use (s : σ) : Use → σ
  | .tell phase => (w.notify phase s).2
  | .dispose => (w.once .endSession s).2
  | .enter => s
  | .arm kind n => w.arm kind n s

def run (s : σ) (uses : List Use) : σ := uses.foldl w.use s

/-- The same wiring, which also writes down what is called. -/
def logged : Wiring (σ × List Ask) where
  flags x := w.flags x.1
  call ask x := ((w.call ask x.1).1, (w.call ask x.1).2, x.2 ++ [ask])
  arm kind n x := (w.arm kind n x.1, x.2)

/-- Under an invariant every call that was not made raises its own flag and leaves the others. -/
structure Lawful (I : σ → Prop) : Prop where
  call : ∀ ask s, I s → (w.flags s).made ask = false →
    I (w.call ask s).2 ∧ w.flags (w.call ask s).2 = (w.flags s).raise ask
  arm : ∀ kind n s, I s → I (w.arm kind n s) ∧ w.flags (w.arm kind n s) = w.flags s

variable {w} {I : σ → Prop} {s : σ} {log : List Ask} {u : Use} {ask : Ask} {uses : List Use}

theorem run_append (s : σ) (before later : List Use) :
    w.run s (before ++ later) = w.run (w.run s before) later := List.foldl_append

theorem use_of_outcome (hu : u.outcome? = some ask) (s : σ) : w.use s u = (w.conclude ask s).2 := by
  cases u with
  | tell phase => cases phase <;> cases hu <;> rfl
  | dispose | enter | arm => cases hu

theorem notify_of_done (hdone : w.flags s = ⟨true, true, true⟩) (phase : Phase) :
    w.notify phase s = (.ok (), s) := by
  have honce (ask : Ask) : w.once ask s = (.ok (), s) :=
    if_pos (by rw [hdone]; cases ask <;> rfl)
  cases phase <;> simp only [notify, conclude, honce]

theorem use_of_done (hdone : w.flags s = ⟨true, true, true⟩) (hu : ∀ kind n, u ≠ .arm kind n) :
    w.use s u = s := by
  cases u with
  | tell phase => rw [use, notify_of_done hdone]
  | dispose => simp [use, once, hdone, OnceFlags.made]
  | enter => rfl
  | arm kind n => exact absurd rfl (hu kind n)

/-! ## Writing down -/

theorem once_logged (ask : Ask) (s : σ) (log : List Ask) :
    w.logged.once ask (s, log) = ((w.once ask s).1, (w.once ask s).2,
      if (w.flags s).made ask then log else log ++ [ask]) := by
  cases hmade : (w.flags s).made ask <;> simp [once, logged, hmade]

theorem conclude_logged (ask : Ask) (s : σ) (log : List Ask) :
    (w.logged.conclude ask (s, log)).2.1 = (w.conclude ask s).2 := by
  simp only [conclude, once_logged]

/-- Writing down what is called changes nothing else. -/
theorem use_logged (s : σ) (log : List Ask) (u : Use) : (w.logged.use (s, log) u).1 = w.use s u := by
  cases u with
  | tell phase =>
    cases phase with
    | prepare => rfl
    | commit | rollback | inDoubt => exact conclude_logged _ s log
  | dispose => rw [use, once_logged, use]
  | enter | arm => rfl

theorem run_logged (s : σ) (log : List Ask) (uses : List Use) :
    (w.logged.run (s, log) uses).1 = w.run s uses := by
  induction uses generalizing s log with
  | nil => rfl
  | cons u rest ih =>
    show (w.logged.run (w.logged.use (s, log) u) rest).1 = w.run (w.use s u) rest
    rw [← use_logged s log u]
    exact ih _ _

theorem log_of_quiet (hu : u.outcome? = none) (s : σ) (log : List Ask) :
    (w.logged.use (s, log) u).2 =
      log ++ if (w.flags s).disposed = false ∧ u = .dispose then [.endSession] else [] := by
  cases u with
  | tell phase =>
    cases phase with
    | prepare => simp [use, notify]
    | commit | rollback | inDoubt => cases hu
  | dispose =>
    rw [use, once_logged]
    cases hdisposed : (w.flags s).disposed <;> simp [OnceFlags.made, hdisposed]
  | enter | arm => simp [use, logged]

theorem log_of_done (hdone : w.flags s = ⟨true, true, true⟩) (log : List Ask) (u : Use) :
    (w.logged.use (s, log) u).2 = log := by
  have hlogged : w.logged.flags (s, log) = ⟨true, true, true⟩ := hdone
  cases u with
  | arm => rfl
  | tell | dispose | enter =>
    rw [use_of_done hlogged]
    intro kind n
    exact Use.noConfusion

namespace Lawful

variable (hw : w.Lawful I) (hs : I s)
include hw hs

/-! ## What a use calls -/

theorem once (ask : Ask) :
    I (w.once ask s).2 ∧ w.flags (w.once ask s).2 = (w.flags s).raise ask := by
  cases hmade : (w.flags s).made ask with
  | true => simp [Wiring.once, hmade, hs, OnceFlags.raise_of_made hmade]
  | false => simpa [Wiring.once, hmade] using hw.call ask s hs hmade

theorem use_of_quiet (hu : u.outcome? = none) :
    I (w.use s u) ∧
      w.flags (w.use s u) = { w.flags s with disposed := (w.flags s).disposed || u = .dispose } := by
  cases u with
  | tell phase =>
    cases phase with
    | prepare => simp [use, notify, hs]
    | commit | rollback | inDoubt => cases hu
  | dispose => simpa [use, OnceFlags.raise] using hw.once hs .endSession
  | enter => simp [use, hs]
  | arm kind n => simpa [use] using hw.arm kind n s hs

theorem use_of_outcome (hu : u.outcome? = some ask) :
    I (w.use s u) ∧ w.flags (w.use s u) = ⟨true, true, true⟩ := by
  obtain ⟨hunregistered, hflags⟩ := hw.once hs .unregister
  obtain ⟨hsettled, hflags'⟩ := hw.once hunregistered ask
  obtain ⟨hdisposed, hflags''⟩ := hw.once hsettled .endSession
  rw [Wiring.use_of_outcome hu]
  refine ⟨hdisposed, hflags''.trans ?_⟩
  rw [hflags', hflags, OnceFlags.raise_of_outcome hu]
  rfl

theorem completed_use (u : Use) : I (w.use s u) ∧
    (w.flags (w.use s u)).completed = ((w.flags s).completed || u.outcome?.isSome) := by
  cases hu : u.outcome? with
  | none =>
    obtain ⟨hquiet, hflags⟩ := hw.use_of_quiet hs hu
    exact ⟨hquiet, by simp [hflags]⟩
  | some ask =>
    obtain ⟨hsettled, hflags⟩ := hw.use_of_outcome hs hu
    exact ⟨hsettled, by simp [hflags]⟩

/-- The first outcome unregisters, then settles the session, and ends it at last unless it has ended. -/
theorem log_of_outcome (hu : u.outcome? = some ask) (hunregistered : (w.flags s).unregistered = false)
    (hcompleted : (w.flags s).completed = false) (log : List Ask) :
    (w.logged.use (s, log) u).2 =
      log ++ [.unregister, ask] ++ if (w.flags s).disposed then [] else [.endSession] := by
  obtain ⟨hunregister, hflags⟩ := hw.once hs .unregister
  obtain ⟨-, hflags'⟩ := hw.once hunregister ask
  have hopen : (w.flags (w.once .unregister s).2).made ask = false := by
    rw [OnceFlags.made_of_outcome hu, hflags]
    exact hcompleted
  have hdisposed : (w.flags (w.once ask (w.once .unregister s).2).2).made .endSession =
      (w.flags s).disposed := by
    rw [hflags', hflags, OnceFlags.raise_of_outcome hu]
    rfl
  have hfirst : (w.flags s).made .unregister = false := hunregistered
  rw [Wiring.use_of_outcome hu]
  simp only [conclude, once_logged, hfirst, hopen, hdisposed]
  cases (w.flags s).disposed <;> simp

/-! ## What several uses call -/

theorem completed_run (uses : List Use) : I (w.run s uses) ∧ (w.flags (w.run s uses)).completed =
    ((w.flags s).completed || uses.any fun u => u.outcome?.isSome) := by
  induction uses generalizing s with
  | nil => exact ⟨hs, by simp [run]⟩
  | cons u rest ih =>
    obtain ⟨hnext, hcompleted⟩ := hw.completed_use hs u
    obtain ⟨hlast, hcompleted'⟩ := ih hnext
    refine ⟨hlast, ?_⟩
    show (w.flags (w.run (w.use s u) rest)).completed = _
    rw [hcompleted', hcompleted, List.any_cons, Bool.or_assoc]

/-- Until there is an outcome nothing is called but one end of the session, if it is asked for. -/
theorem run_of_quiet (huses : ∀ u ∈ uses, u.outcome? = none) (log : List Ask) :
    I (w.run s uses) ∧
      w.flags (w.run s uses) =
        { w.flags s with disposed := (w.flags s).disposed || .dispose ∈ uses } ∧
      (w.logged.run (s, log) uses).2 =
        log ++ if (w.flags s).disposed = false ∧ .dispose ∈ uses then [.endSession] else [] := by
  induction uses generalizing s log with
  | nil => exact ⟨hs, by simp [run], by simp [run]⟩
  | cons u rest ih =>
    obtain ⟨hu, hrest⟩ := List.forall_mem_cons.1 huses
    obtain ⟨hnext, hflags⟩ := hw.use_of_quiet hs hu
    -- what the first use has called is the log that the rest starts from
    have hlogged : w.logged.use (s, log) u = (w.use s u, _) :=
      Prod.ext (use_logged s log u) (log_of_quiet hu s log)
    obtain ⟨hlast, hflags', hlog⟩ := ih hnext hrest
      (log ++ if (w.flags s).disposed = false ∧ u = .dispose then [.endSession] else [])
    refine ⟨hlast, ?_, ?_⟩
    · show w.flags (w.run (w.use s u) rest) = _
      rw [hflags', hflags]
      simp [Bool.or_assoc, eq_comm]
    · show (w.logged.run (w.logged.use (s, log) u) rest).2 = _
      rw [hlogged, hlog, hflags]
      by_cases hdispose : u = .dispose <;> cases (w.flags s).disposed <;> simp [hdispose, eq_comm]

theorem run_of_done (hdone : w.flags s = ⟨true, true, true⟩) (uses : List Use) (log : List Ask) :
    I (w.run s uses) ∧ w.flags (w.run s uses) = ⟨true, true, true⟩ ∧
      (w.logged.run (s, log) uses).2 = log := by
  induction uses generalizing s with
  | nil => exact ⟨hs, hdone, rfl⟩
  | cons u rest ih =>
    have hnext : I (w.use s u) ∧ w.flags (w.use s u) = ⟨true, true, true⟩ := by
      -- arming is all that still moves the state
      cases u with
      | arm kind n =>
        obtain ⟨harmed, hflags⟩ := hw.arm kind n s hs
        exact ⟨harmed, hflags.trans hdone⟩
      | tell | dispose | enter =>
        rw [use_of_done hdone fun kind n => Use.noConfusion]
        exact ⟨hs, hdone⟩
    have hlogged : w.logged.use (s, log) u = (w.use s u, log) :=
      Prod.ext (use_logged s log u) (log_of_done hdone log u)
    obtain ⟨hlast, hflags, hlog⟩ := ih hnext.1 hnext.2
    refine ⟨hlast, hflags, ?_⟩
    show (w.logged.run (w.logged.use (s, log) u) rest).2 = log
    rw [hlogged, hlog]

/-- From nothing done: the first outcome reaches the session, nothing else does, and the session ends once. -/
theorem run_of_first (hfresh : w.flags s = {}) {before : List Use} {first : Use}
    (hbefore : ∀ u ∈ before, u.outcome? = none) (hfirst : first.outcome? = some ask) (later : List Use) :
    I (w.run s (before ++ first :: later)) ∧
      w.flags (w.run s (before ++ first :: later)) = ⟨true, true, true⟩ ∧
      (w.logged.run (s, []) (before ++ first :: later)).2 =
        if .dispose ∈ before then [.endSession, .unregister, ask]
        else [.unregister, ask, .endSession] := by
  obtain ⟨hquiet, hflags, hlog⟩ := hw.run_of_quiet hs hbefore []
  rw [hfresh] at hflags hlog
  have hbegun : w.logged.run (s, []) before =
      (w.run s before, if .dispose ∈ before then [.endSession] else []) :=
    Prod.ext (run_logged s [] before) (hlog.trans (by simp))
  obtain ⟨hsettled, hdone⟩ := hw.use_of_outcome hquiet hfirst
  let logFirst := (w.logged.use (w.logged.run (s, []) before) first).2
  have hlogFirst : logFirst = if .dispose ∈ before then [.endSession, .unregister, ask]
      else [.unregister, ask, .endSession] := by
    have hcalled := hw.log_of_outcome hquiet hfirst (by rw [hflags]) (by rw [hflags])
      (if .dispose ∈ before then [.endSession] else [])
    show (w.logged.use (w.logged.run (s, []) before) first).2 = _
    rw [hbegun, hcalled, hflags]
    by_cases hdispose : Use.dispose ∈ before <;> simp [hdispose]
  have hreached : w.logged.use (w.logged.run (s, []) before) first =
      (w.use (w.run s before) first, logFirst) := by
    refine Prod.ext ?_ rfl
    rw [hbegun]
    exact use_logged _ _ first
  obtain ⟨hlast, hflags', hlog'⟩ := hw.run_of_done hsettled hdone later logFirst
  rw [run_append, run_append]
  refine ⟨hlast, hflags', ?_⟩
  show (w.logged.run (w.logged.use (w.logged.run (s, []) before) first) later).2 = _
  rw [hreached, hlog', hlogFirst]

end Lawful

end Wiring

end ScopedStore
