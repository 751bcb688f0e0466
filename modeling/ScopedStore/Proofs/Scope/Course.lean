import Mathlib.Data.List.Forall2
import ScopedStore.Scope.System

/-!
# The course of a transaction

How a transaction completes is a matter of its row when the completion begins, of the clock, and of what
its participants answer (`Completion`). A transaction grows while it is open, completes once, and stays
as it is from then on, but for being doomed without effect (`Course`).
-/

namespace ScopedStore

/-! ## Completions -/

/-- The participants were asked for a phase, each once and in their order. -/
def Asked (phase : Phase) (participants : List Participant) (ms : List Milestone) : Prop :=
  List.Forall₂ (fun p m => ∃ outcome, m = .asked p phase outcome) participants ms

def commitsOf (participants : List Participant) : List Milestone :=
  participants.map fun p => .asked p .commit (.ok ())

def firstFailure : List Milestone → Except TxError Unit
  | [] => .ok ()
  | .asked _ _ (.error e) :: _ => .error e
  | _ :: rest => firstFailure rest

/-- How a transaction completes that is asked to commit or to roll back: what its participants are
asked, the outcome that is reported and the status that is settled. -/
inductive Completion (id : TxId) (t : Transaction) (now : Nat) :
    Bool → List Milestone → Except TxError Unit → Status → Prop where
  | rolledBack {rollbacks : List Milestone} (hrollbacks : Asked .rollback t.participants rollbacks) :
    Completion id t now false rollbacks (firstFailure rollbacks) .aborted
  | timedOut {rollbacks : List Milestone} (hexpired : t.isExpired now = true)
      (hrollbacks : Asked .rollback t.participants rollbacks) :
    Completion id t now true rollbacks (.error (.timeout id)) .aborted
  | doomed {reason : String} {rollbacks : List Milestone} (hexpired : t.isExpired now = false)
      (hdoomed : t.doomed = some reason) (hrollbacks : Asked .rollback t.participants rollbacks) :
    Completion id t now true rollbacks (.error (.aborted id reason)) .aborted
  | vetoed {prepares rollbacks : List Milestone} (hexpired : t.isExpired now = false)
      (hdoomed : t.doomed = none) (hveto : ∃ p ∈ t.participants, p.vote = .forceRollback)
      (hprepares : Asked .prepare t.participants prepares)
      (hrollbacks : Asked .rollback t.participants rollbacks) :
    Completion id t now true (prepares ++ rollbacks)
      (.error (.aborted id "a participant voted to roll back")) .aborted
  | committed {prepares : List Milestone} (hexpired : t.isExpired now = false)
      (hdoomed : t.doomed = none) (hvotes : ∀ p ∈ t.participants, p.vote = .prepared)
      (hprepares : Asked .prepare t.participants prepares) :
    Completion id t now true (prepares ++ commitsOf t.participants) (.ok ()) .committed
  | failed {prepares doubts : List Milestone} {before after : List Participant} {p : Participant}
      {e : TxError} (hexpired : t.isExpired now = false) (hdoomed : t.doomed = none)
      (hvotes : ∀ p ∈ t.participants, p.vote = .prepared)
      (hprepares : Asked .prepare t.participants prepares)
      (hparticipants : t.participants = before ++ p :: after) (hdoubts : Asked .inDoubt after doubts) :
    Completion id t now true
      (prepares ++ (commitsOf before ++ .asked p .commit (.error e) :: doubts))
      (.error (if before.isEmpty then e else .inDoubt id))
      (if before.isEmpty then .aborted else .inDoubt)

def Milestone.ended? : Milestone → Option Participant
  | .asked p .commit _ | .asked p .rollback _ | .asked p .inDoubt _ => some p
  | .asked _ .prepare _ | .settled _ => none

theorem filterMap_ended?_asked {phase : Phase} (hphase : phase ≠ .prepare)
    {participants : List Participant} {ms : List Milestone} (h : Asked phase participants ms) :
    ms.filterMap Milestone.ended? = participants := by
  induction h with
  | nil => rfl
  | cons hm _ ih =>
    obtain ⟨outcome, rfl⟩ := hm
    cases phase with
    | prepare => exact absurd rfl hphase
    | commit | rollback | inDoubt => simp only [List.filterMap_cons, Milestone.ended?, ih]

theorem filterMap_ended?_prepares {participants : List Participant} {ms : List Milestone}
    (h : Asked .prepare participants ms) : ms.filterMap Milestone.ended? = [] := by
  induction h with
  | nil => rfl
  | cons hm _ ih =>
    obtain ⟨outcome, rfl⟩ := hm
    simp only [List.filterMap_cons, Milestone.ended?, ih]

theorem asked_commitsOf (participants : List Participant) :
    Asked .commit participants (commitsOf participants) := by
  induction participants with
  | nil => exact .nil
  | cons p rest ih => exact .cons ⟨_, rfl⟩ ih

namespace Completion

variable {id : TxId} {t : Transaction} {now : Nat} {commits : Bool} {ms : List Milestone}
  {outcome : Except TxError Unit} {status : Status}

theorem filterMap_ended? (h : Completion id t now commits ms outcome status) :
    ms.filterMap Milestone.ended? = t.participants := by
  have hnot : Phase.rollback ≠ .prepare := Phase.noConfusion
  cases h with
  | rolledBack hrollbacks => exact filterMap_ended?_asked hnot hrollbacks
  | timedOut _ hrollbacks => exact filterMap_ended?_asked hnot hrollbacks
  | doomed _ _ hrollbacks => exact filterMap_ended?_asked hnot hrollbacks
  | vetoed _ _ _ hprepares hrollbacks =>
    rw [List.filterMap_append, filterMap_ended?_prepares hprepares,
      filterMap_ended?_asked hnot hrollbacks, List.nil_append]
  | committed _ _ _ hprepares =>
    rw [List.filterMap_append, filterMap_ended?_prepares hprepares,
      filterMap_ended?_asked Phase.noConfusion (asked_commitsOf _), List.nil_append]
  | failed _ _ _ hprepares hparticipants hdoubts =>
    have hafter := filterMap_ended?_asked Phase.noConfusion hdoubts
    rw [List.filterMap_append, filterMap_ended?_prepares hprepares, List.filterMap_append,
      filterMap_ended?_asked Phase.noConfusion (asked_commitsOf _), hparticipants]
    simp only [List.filterMap_cons, Milestone.ended?, hafter, List.nil_append]

theorem status_ne_active (h : Completion id t now commits ms outcome status) : status ≠ .active := by
  cases h with
  | failed => split <;> exact Status.noConfusion
  | rolledBack | timedOut | doomed | vetoed | committed => exact Status.noConfusion

theorem of_doomed (h : Completion id t now commits ms outcome status) {reason : String}
    (hdoomed : t.doomed = some reason) :
    status = .aborted ∧ Asked .rollback t.participants ms := by
  cases h with
  | rolledBack hrollbacks => exact ⟨rfl, hrollbacks⟩
  | timedOut _ hrollbacks => exact ⟨rfl, hrollbacks⟩
  | doomed _ _ hrollbacks => exact ⟨rfl, hrollbacks⟩
  | vetoed _ hnone | committed _ hnone | failed _ hnone =>
    rw [hdoomed] at hnone
    cases hnone

end Completion

/-! ## Rows -/

namespace Transaction

/-- The transaction with more participants, and doomed if it was not. -/
def grown (t : Transaction) (later : List Participant) (reason : Option String) : Transaction :=
  { t with participants := t.participants ++ later, doomed := t.doomed.or reason }

def ended (t : Transaction) (status : Status) (reason : Option String) : Transaction :=
  { t with participants := [], doomed := t.doomed.or reason, status := status, completing := false }

theorem grown_nil_none (t : Transaction) : t.grown [] none = t := by
  unfold grown
  rw [List.append_nil, Option.or_none]

theorem grown_grown (t : Transaction) (ps ps' : List Participant) (reason reason' : Option String) :
    (t.grown ps reason).grown ps' reason' = t.grown (ps ++ ps') (reason.or reason') := by
  unfold grown
  simp only [List.append_assoc, Option.or_assoc]

theorem grown_ended (t : Transaction) (status : Status) (reason reason' : Option String) :
    (t.ended status reason).grown [] reason' = t.ended status (reason.or reason') := by
  unfold grown ended
  simp only [List.append_nil, Option.or_assoc]

@[simp] theorem isOpen_grown (t : Transaction) (later : List Participant) (reason : Option String) :
    (t.grown later reason).isOpen = t.isOpen := rfl

theorem isOpen_ended (t : Transaction) {status : Status} (h : status ≠ .active)
    (reason : Option String) : (t.ended status reason).isOpen = false := by
  unfold ended isOpen
  dsimp only
  rw [decide_eq_false h, Bool.false_and]

end Transaction

/-- What may become of a transaction between two instants, with the milestones on the way. -/
inductive Course (id : TxId) (start stop : Nat) (t : Transaction) :
    List Milestone → Transaction → Prop where
  | working (later : List Participant) (reason : Option String) (hopen : t.isOpen = true) :
    Course id start stop t [] (t.grown later reason)
  | completed {later : List Participant} {reason : Option String} {now : Nat} {commits : Bool}
      {ms : List Milestone} {outcome : Except TxError Unit} {status : Status}
      (reason' : Option String) (hopen : t.isOpen = true) (hstart : start ≤ now) (hstop : now ≤ stop)
      (h : Completion id (t.grown later reason) now commits ms outcome status) :
    Course id start stop t (ms ++ [.settled status]) ((t.grown later reason).ended status reason')
  | finished (reason : Option String) (hclosed : t.isOpen = false) :
    Course id start stop t [] (t.grown [] reason)

theorem Course.refl (id : TxId) (start stop : Nat) (t : Transaction) :
    Course id start stop t [] t := by
  have hcourse : Course id start stop t [] (t.grown [] none) := by
    cases hopen : t.isOpen with
    | true => exact .working [] none hopen
    | false => exact .finished none hopen
  rwa [t.grown_nil_none] at hcourse

theorem Course.trans {id : TxId} {start mid stop : Nat} (hstart : start ≤ mid) (hstop : mid ≤ stop)
    {t t' t'' : Transaction} {ms ms' : List Milestone} (h : Course id start mid t ms t')
    (h' : Course id mid stop t' ms' t'') : Course id start stop t (ms ++ ms') t'' := by
  cases h with
  | working later reason hopen =>
    cases h' with
    | working later' reason' _ =>
      rw [Transaction.grown_grown]
      exact .working _ _ hopen
    | completed reason' _ hmid hnow hcompletion =>
      rw [Transaction.grown_grown] at hcompletion ⊢
      exact .completed reason' hopen (by omega) hnow hcompletion
    | finished _ hclosed =>
      rw [Transaction.isOpen_grown, hopen] at hclosed
      cases hclosed
  | completed reason hopen hnow hmid hcompletion =>
    have hended := Transaction.isOpen_ended
    cases h' with
    | working _ _ hopen' | completed _ hopen' _ _ _ =>
      rw [hended _ hcompletion.status_ne_active] at hopen'
      cases hopen'
    | finished reason' _ =>
      rw [Transaction.grown_ended, List.append_nil]
      exact .completed _ hopen hnow (by omega) hcompletion
  | finished reason hclosed =>
    cases h' with
    | working _ _ hopen' | completed _ hopen' _ _ _ =>
      rw [Transaction.isOpen_grown, hclosed] at hopen'
      cases hopen'
    | finished reason' _ =>
      rw [Transaction.grown_grown]
      exact .finished _ hclosed

theorem Course.of_closed {id : TxId} {start stop : Nat} {t t' : Transaction} {ms : List Milestone}
    (h : Course id start stop t ms t') (hclosed : t.isOpen = false) :
    ms = [] ∧ ∃ reason, t' = t.grown [] reason := by
  cases h with
  | working _ _ hopen | completed _ hopen =>
    rw [hclosed] at hopen
    cases hopen
  | finished reason _ => exact ⟨rfl, reason, rfl⟩

end ScopedStore
