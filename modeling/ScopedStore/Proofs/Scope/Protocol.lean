import ScopedStore.Proofs.Scope.Evolution
import ScopedStore.Scope.Basic

/-!
# The protocol of a completion

While a transaction completes, everything but the requests to its participants leaves it alone, callbacks
and scopes that are closed inside them included (`System.Drives`); the requests follow the protocol, and
the transaction is settled once (`System.Completes`). So closing a scope lets every transaction take its
course, inside any number of other closings.
-/

namespace ScopedStore

namespace System

variable {sys sys' sys'' : System} {key key' : TxKey} {close : CloseScope} {acquire : AcquireLease}

/-! ## The completion of another transaction -/

theorem OrderlyAcquire.ask_of_ne (h : OrderlyAcquire key acquire) (hkey : key' ≠ key) (sys : System)
    (p : Participant) (phase : Phase) : sys.Evolves key (sys.ask acquire key' p phase).2 :=
  (h.notify sys p phase).trans (.record_of_ne hkey _ _)

theorem OrderlyAcquire.prepareAll_of_ne (h : OrderlyAcquire key acquire) (hkey : key' ≠ key)
    (ps : List Participant) (sys : System) :
    sys.Evolves key (prepareAll acquire key' ps sys).2 := by
  induction ps generalizing sys with
  | nil => exact .refl key sys
  | cons p rest ih => exact (h.ask_of_ne hkey sys p .prepare).trans (ih _)

theorem OrderlyAcquire.doubtAll_of_ne (h : OrderlyAcquire key acquire) (hkey : key' ≠ key)
    (ps : List Participant) (sys : System) : sys.Evolves key (doubtAll acquire key' ps sys) := by
  induction ps generalizing sys with
  | nil => exact .refl key sys
  | cons p rest ih => exact (h.ask_of_ne hkey sys p .inDoubt).trans (ih _)

theorem OrderlyAcquire.rollbackAll_of_ne (h : OrderlyAcquire key acquire) (hkey : key' ≠ key)
    (ps : List Participant) (sys : System) :
    sys.Evolves key (rollbackAll acquire key' ps sys).2 := by
  induction ps generalizing sys with
  | nil => exact .refl key sys
  | cons p rest ih =>
    have hrest := (h.ask_of_ne hkey sys p .rollback).trans (ih _)
    unfold rollbackAll
    dsimp only
    split <;> exact hrest

theorem OrderlyAcquire.commitAll_of_ne (h : OrderlyAcquire key acquire) (hkey : key' ≠ key)
    (ps : List Participant) (sys : System) :
    sys.Evolves key (commitAll acquire key' ps sys).2 := by
  induction ps generalizing sys with
  | nil => exact .refl key sys
  | cons p rest ih =>
    have hasked := h.ask_of_ne hkey sys p .commit
    unfold commitAll
    split
    · rename_i e sys₁ heq
      rw [heq] at hasked
      exact hasked.trans (h.doubtAll_of_ne hkey rest sys₁)
    · rename_i sys₁ heq
      rw [heq] at hasked
      exact hasked.trans (ih sys₁)

theorem Evolves.settle_of_ne (hkey : key' ≠ key) (sys : System) (status : Status) :
    sys.Evolves key (sys.settle key' status) :=
  (Evolves.setTransaction_of_ne hkey sys _).trans (.record_of_ne hkey _ _)

theorem OrderlyAcquire.rollbackReason?_of_ne (h : OrderlyAcquire key acquire) (hkey : key' ≠ key)
    (sys : System) (doomed : Option String) (ps : List Participant) :
    sys.Evolves key (sys.rollbackReason? acquire key' doomed ps).2 := by
  unfold System.rollbackReason?
  split
  · exact .refl key sys
  · split
    · exact .refl key sys
    · exact h.prepareAll_of_ne hkey ps sys

theorem OrderlyAcquire.driveCommit_of_ne (h : OrderlyAcquire key acquire) (hkey : key' ≠ key)
    (sys : System) (doomed : Option String) (ps : List Participant) :
    sys.Evolves key (sys.driveCommit acquire key' doomed ps).2 := by
  have hreason := h.rollbackReason?_of_ne hkey sys doomed ps
  unfold System.driveCommit
  split
  · rename_i e sys₁ heq
    rw [heq] at hreason
    exact (hreason.trans (h.rollbackAll_of_ne hkey ps sys₁)).trans (.settle_of_ne hkey _ _)
  · rename_i sys₁ heq
    rw [heq] at hreason
    have hcommits := h.commitAll_of_ne hkey ps sys₁
    split <;> rename_i heq <;> rw [heq] at hcommits <;>
      exact (hreason.trans hcommits).trans (.settle_of_ne hkey _ _)

theorem OrderlyAcquire.driveRollback_of_ne (h : OrderlyAcquire key acquire) (hkey : key' ≠ key)
    (sys : System) (ps : List Participant) :
    sys.Evolves key (sys.driveRollback acquire key' ps).2 :=
  (h.rollbackAll_of_ne hkey ps sys).trans (.settle_of_ne hkey _ _)

/-! ## The completion of the transaction itself -/

/-- While its participants are driven, a transaction that takes no more participants stays as it is, but
for being doomed. -/
structure Drives (key : TxKey) (sys : System) (ms : List Milestone) (sys' : System) : Prop where
  length : sys.transactions.length ≤ sys'.transactions.length
  clock : sys.clock ≤ sys'.clock
  seed : sys'.seed = sys.seed
  milestones : sys'.milestones key = sys.milestones key ++ ms
  row : ∃ reason, sys'.transaction key = (sys.transaction key).grown [] reason

namespace Drives

variable {ms ms' : List Milestone}

theorem refl (key : TxKey) (sys : System) : sys.Drives key [] sys := by
  refine ⟨Nat.le_refl _, Nat.le_refl _, rfl, by rw [List.append_nil], none, ?_⟩
  rw [Transaction.grown_nil_none]

theorem trans (h : sys.Drives key ms sys') (h' : sys'.Drives key ms' sys'') :
    sys.Drives key (ms ++ ms') sys'' := by
  obtain ⟨reason, hrow⟩ := h.row
  obtain ⟨reason', hrow'⟩ := h'.row
  refine ⟨Nat.le_trans h.length h'.length, Nat.le_trans h.clock h'.clock, h'.seed.trans h.seed, ?_,
    reason.or reason', ?_⟩
  · rw [h'.milestones, h.milestones, List.append_assoc]
  · rw [hrow', hrow, Transaction.grown_grown, List.append_nil]

theorem isOpen (h : sys.Drives key ms sys') (hclosed : (sys.transaction key).isOpen = false) :
    (sys'.transaction key).isOpen = false := by
  obtain ⟨reason, hrow⟩ := h.row
  rw [hrow, Transaction.isOpen_grown, hclosed]

theorem txId (h : sys.Drives key ms sys') : sys'.txId key = sys.txId key := by
  unfold System.txId
  rw [h.seed]

theorem lt (h : sys.Drives key ms sys') (hkey : key < sys.transactions.length) :
    key < sys'.transactions.length := Nat.lt_of_lt_of_le hkey h.length

end Drives

theorem Evolves.drives (h : sys.Evolves key sys') (hkey : key < sys.transactions.length)
    (hclosed : (sys.transaction key).isOpen = false) : sys.Drives key [] sys' := by
  obtain ⟨ms, hms, hcourse⟩ := h.course hkey
  obtain ⟨rfl, hrow⟩ := hcourse.of_closed hclosed
  exact ⟨h.length, h.clock, h.seed, hms, hrow⟩

structure Closed (key : TxKey) (sys : System) : Prop where
  lt : key < sys.transactions.length
  isOpen : (sys.transaction key).isOpen = false

theorem Closed.of_drives {ms : List Milestone} (h : sys.Closed key) (hd : sys.Drives key ms sys') :
    sys'.Closed key := ⟨hd.lt h.lt, hd.isOpen h.isOpen⟩

theorem OrderlyAcquire.ask (h : OrderlyAcquire key acquire) (hclosed : sys.Closed key)
    (p : Participant) (phase : Phase) :
    sys.Drives key [.asked p phase (sys.ask acquire key p phase).1]
      (sys.ask acquire key p phase).2 := by
  have hnotify := (h.notify sys p phase).drives hclosed.lt hclosed.isOpen
  have hrow := hnotify.row
  refine ⟨hnotify.length, hnotify.clock, hnotify.seed, ?_, hrow⟩
  unfold System.ask
  dsimp only
  rw [milestones_record_self, hnotify.milestones, List.append_nil]

theorem OrderlyAcquire.prepareAll (h : OrderlyAcquire key acquire) (ps : List Participant)
    (hclosed : sys.Closed key) :
    ∃ ms, Asked .prepare ps ms ∧ sys.Drives key ms (prepareAll acquire key ps sys).2 ∧
      ((prepareAll acquire key ps sys).1 = true ↔ ∃ p ∈ ps, p.vote = .forceRollback) := by
  induction ps generalizing sys with
  | nil => exact ⟨[], .nil, .refl key sys, by simp [System.prepareAll]⟩
  | cons p rest ih =>
    have hasked := h.ask hclosed p .prepare
    obtain ⟨ms, hms, hdrives, hveto⟩ := ih (hclosed.of_drives hasked)
    refine ⟨_, .cons ⟨_, rfl⟩ hms, hasked.trans hdrives, ?_⟩
    rw [System.prepareAll]
    simp [hveto]

theorem OrderlyAcquire.doubtAll (h : OrderlyAcquire key acquire) (ps : List Participant)
    (hclosed : sys.Closed key) :
    ∃ ms, Asked .inDoubt ps ms ∧ sys.Drives key ms (doubtAll acquire key ps sys) := by
  induction ps generalizing sys with
  | nil => exact ⟨[], .nil, .refl key sys⟩
  | cons p rest ih =>
    have hasked := h.ask hclosed p .inDoubt
    obtain ⟨ms, hms, hdrives⟩ := ih (hclosed.of_drives hasked)
    exact ⟨_, .cons ⟨_, rfl⟩ hms, hasked.trans hdrives⟩

theorem OrderlyAcquire.rollbackAll (h : OrderlyAcquire key acquire) (ps : List Participant)
    (hclosed : sys.Closed key) :
    ∃ ms, Asked .rollback ps ms ∧ sys.Drives key ms (rollbackAll acquire key ps sys).2 ∧
      (rollbackAll acquire key ps sys).1 = firstFailure ms := by
  induction ps generalizing sys with
  | nil => exact ⟨[], .nil, .refl key sys, rfl⟩
  | cons p rest ih =>
    have hasked := h.ask hclosed p .rollback
    obtain ⟨ms, hms, hdrives, hfirst⟩ := ih (hclosed.of_drives hasked)
    refine ⟨.asked p .rollback (sys.ask acquire key p .rollback).1 :: ms, .cons ⟨_, rfl⟩ hms, ?_⟩
    have hall := hasked.trans hdrives
    rw [System.rollbackAll]
    generalize sys.ask acquire key p .rollback = asked at hfirst hall ⊢
    obtain ⟨outcome, sys₁⟩ := asked
    cases outcome with
    | error e => exact ⟨hall, rfl⟩
    | ok u => exact ⟨hall, hfirst⟩

theorem OrderlyAcquire.commitAll (h : OrderlyAcquire key acquire) (ps : List Participant)
    (hclosed : sys.Closed key) :
    ∃ ms, sys.Drives key ms (commitAll acquire key ps sys).2 ∧
      (((commitAll acquire key ps sys).1 = (ps.length, none) ∧ ms = commitsOf ps) ∨
        ∃ before p after e doubts, ps = before ++ p :: after ∧ Asked .inDoubt after doubts ∧
          (commitAll acquire key ps sys).1 = (before.length, some e) ∧
          ms = commitsOf before ++ .asked p .commit (.error e) :: doubts) := by
  induction ps generalizing sys with
  | nil => exact ⟨[], .refl key sys, .inl ⟨rfl, rfl⟩⟩
  | cons p rest ih =>
    have hasked := h.ask hclosed p .commit
    have hafter := hclosed.of_drives hasked
    rw [System.commitAll]
    cases hask : sys.ask acquire key p .commit with
    | mk outcome sys₁ =>
      rw [hask] at hasked hafter
      dsimp only at hasked hafter
      cases outcome with
      | error e =>
        obtain ⟨doubts, hdoubts, hdrives⟩ := h.doubtAll rest hafter
        exact ⟨_, hasked.trans hdrives, .inr ⟨[], p, rest, e, doubts, rfl, hdoubts, rfl, rfl⟩⟩
      | ok u =>
        have hrest := ih hafter
        dsimp only
        generalize System.commitAll acquire key rest sys₁ = found at hrest ⊢
        obtain ⟨⟨n, failure⟩, sys₂⟩ := found
        obtain ⟨ms, hdrives, ⟨hall, rfl⟩ | ⟨before, p', after, e, doubts, rfl, hdoubts, hfailed, rfl⟩⟩ :=
          hrest
        · cases hall
          exact ⟨_, hasked.trans hdrives, .inl ⟨rfl, rfl⟩⟩
        · cases hfailed
          exact ⟨_, hasked.trans hdrives,
            .inr ⟨p :: before, p', after, e, doubts, rfl, hdoubts, rfl, rfl⟩⟩

/-- The participants of a completing transaction are driven, and it is settled with a status. -/
structure Settles (key : TxKey) (sys : System) (ms : List Milestone) (status : Status)
    (sys' : System) : Prop where
  length : sys.transactions.length ≤ sys'.transactions.length
  clock : sys.clock ≤ sys'.clock
  seed : sys'.seed = sys.seed
  milestones : sys'.milestones key = sys.milestones key ++ (ms ++ [.settled status])
  row : ∃ reason, sys'.transaction key = ((sys.transaction key).grown [] reason).settle status

theorem Drives.settle {ms : List Milestone} (h : sys.Drives key ms sys')
    (hkey : key < sys.transactions.length) (status : Status) :
    sys.Settles key ms status (sys'.settle key status) := by
  obtain ⟨reason, hrow⟩ := h.row
  refine ⟨?_, h.clock, h.seed, ?_, reason, ?_⟩
  · show sys.transactions.length ≤ (sys'.transactions.set key _).length
    rw [List.length_set]
    exact h.length
  · unfold System.settle
    rw [milestones_record_self, ← List.append_assoc, ← h.milestones]
    rfl
  · show (sys'.setTransaction key ((sys'.transaction key).settle status)).transaction key = _
    rw [transaction_setTransaction_self (h.lt hkey), hrow]

theorem OrderlyAcquire.driveCommit (h : OrderlyAcquire key acquire) (hclosed : sys.Closed key)
    {t : Transaction} (hdeadline : (sys.transaction key).deadline = t.deadline) :
    ∃ ms status,
      Completion (sys.txId key) t sys.clock true ms
          (sys.driveCommit acquire key t.doomed t.participants).1 status ∧
        sys.Settles key ms status (sys.driveCommit acquire key t.doomed t.participants).2 := by
  have hexpired : (sys.transaction key).isExpired sys.clock = t.isExpired sys.clock := by
    unfold Transaction.isExpired
    rw [hdeadline]
  have hroll {ms : List Milestone} {sys' : System} (hd : sys.Drives key ms sys') :
      ∃ rollbacks, Asked .rollback t.participants rollbacks ∧
        sys.Settles key (ms ++ rollbacks) .aborted
          ((System.rollbackAll acquire key t.participants sys').2.settle key .aborted) := by
    obtain ⟨rollbacks, hrollbacks, hdrives, -⟩ := h.rollbackAll t.participants (hclosed.of_drives hd)
    exact ⟨rollbacks, hrollbacks, (hd.trans hdrives).settle hclosed.lt .aborted⟩
  unfold System.driveCommit System.rollbackReason?
  rw [hexpired]
  cases hnow : t.isExpired sys.clock with
  | true =>
    obtain ⟨rollbacks, hrollbacks, hsettles⟩ := hroll (.refl key sys)
    exact ⟨rollbacks, .aborted, .timedOut hnow hrollbacks, hsettles⟩
  | false =>
    cases hdoomed : t.doomed with
    | some why =>
      obtain ⟨rollbacks, hrollbacks, hsettles⟩ := hroll (.refl key sys)
      exact ⟨rollbacks, .aborted, .doomed hnow hdoomed hrollbacks, hsettles⟩
    | none =>
      obtain ⟨prepares, hprepares, hprepared, hveto⟩ := h.prepareAll t.participants hclosed
      rw [if_neg Bool.false_ne_true]
      dsimp only
      cases hanswer : (System.prepareAll acquire key t.participants sys).1 with
      | true =>
        obtain ⟨rollbacks, hrollbacks, hsettles⟩ := hroll hprepared
        rw [if_pos rfl, hprepared.txId]
        exact ⟨prepares ++ rollbacks, .aborted,
          .vetoed hnow hdoomed (hveto.1 hanswer) hprepares hrollbacks, hsettles⟩
      | false =>
        have hvotes (p : Participant) (hp : p ∈ t.participants) : p.vote = .prepared := by
          cases hvote : p.vote with
          | prepared => rfl
          | forceRollback =>
            rw [hveto.2 ⟨p, hp, hvote⟩] at hanswer
            cases hanswer
        have hcommits := h.commitAll t.participants (hclosed.of_drives hprepared)
        rw [if_neg Bool.false_ne_true]
        dsimp only
        generalize System.commitAll acquire key t.participants
          (System.prepareAll acquire key t.participants sys).2 = found at hcommits ⊢
        obtain ⟨⟨n, failure⟩, sys₁⟩ := found
        obtain ⟨ms, hdrives, ⟨hall, rfl⟩ | ⟨before, p, after, e, doubts, hps, hdoubts, hfailed, rfl⟩⟩ :=
          hcommits
        · cases hall
          exact ⟨_, .committed, .committed hnow hdoomed hvotes hprepares,
            (hprepared.trans hdrives).settle hclosed.lt .committed⟩
        · cases hfailed
          have hall := hprepared.trans hdrives
          have hid := hall.txId
          have hcompletion : Completion (sys.txId key) t sys.clock true _ _ _ :=
            .failed (e := e) hnow hdoomed hvotes hprepares hps hdoubts
          cases before with
          | nil => exact ⟨_, .aborted, hcompletion, hall.settle hclosed.lt .aborted⟩
          | cons first before =>
            rw [List.length_cons]
            dsimp only at hid ⊢
            rw [hid]
            exact ⟨_, .inDoubt, hcompletion, hall.settle hclosed.lt .inDoubt⟩

theorem OrderlyAcquire.driveRollback (h : OrderlyAcquire key acquire) (hclosed : sys.Closed key)
    (t : Transaction) :
    ∃ ms status,
      Completion (sys.txId key) t sys.clock false ms
          (sys.driveRollback acquire key t.participants).1 status ∧
        sys.Settles key ms status (sys.driveRollback acquire key t.participants).2 := by
  obtain ⟨rollbacks, hrollbacks, hdrives, hfirst⟩ := h.rollbackAll t.participants hclosed
  refine ⟨rollbacks, .aborted, ?_, hdrives.settle hclosed.lt .aborted⟩
  show Completion _ t sys.clock false rollbacks
    (System.rollbackAll acquire key t.participants sys).1 .aborted
  rw [hfirst]
  exact .rolledBack hrollbacks

theorem Orderly.dismissAll (h : Orderly key close) (ps : List Participant) (sys : System) :
    sys.Evolves key (dismissAll close ps sys) := by
  induction ps generalizing sys with
  | nil => exact .refl key sys
  | cons p rest ih =>
    rw [System.dismissAll]
    cases p.registryKey? with
    | none => exact ih sys
    | some registry => exact (h.letGoWith sys registry).trans (ih _)

/-! ## Completing and closing -/

/-- A completion of the transaction, asked for by a commit or a rollback. -/
structure Completes (key : TxKey) (sys : System) (commits : Bool) (outcome : Except TxError Unit)
    (sys' : System) : Prop where
  length : sys.transactions.length ≤ sys'.transactions.length
  clock : sys.clock ≤ sys'.clock
  seed : sys'.seed = sys.seed
  completion : ∃ ms status reason,
    Completion (sys.txId key) (sys.transaction key) sys.clock commits ms outcome status ∧
      sys'.milestones key = sys.milestones key ++ (ms ++ [.settled status]) ∧
      sys'.transaction key = (sys.transaction key).ended status reason

theorem Completes.evolves {commits : Bool} {outcome : Except TxError Unit}
    (h : sys.Completes key commits outcome sys') (hopen : (sys.transaction key).isOpen = true) :
    sys.Evolves key sys' := by
  obtain ⟨ms, status, reason, hcompletion, hms, hrow⟩ := h.completion
  refine ⟨h.length, h.clock, h.seed, fun _ => ⟨_, hms, ?_⟩⟩
  have hgrown := (sys.transaction key).grown_nil_none
  have hended : sys'.transaction key =
      ((sys.transaction key).grown [] none).ended status reason := by rw [hrow, hgrown]
  rw [← hgrown] at hcompletion
  rw [hended]
  exact .completed reason hopen (Nat.le_refl _) h.clock hcompletion

theorem Orderly.completeWith (h : Orderly key close) (hkey : key < sys.transactions.length)
    (hopen : (sys.transaction key).isOpen = true) {commits : Bool}
    {drive : System → List Participant → Except TxError Unit × System}
    (hdrive : (sys.completing key).Closed key →
      ∃ ms status,
        Completion (sys.txId key) (sys.transaction key) sys.clock commits ms
            (drive (sys.completing key) (sys.transaction key).participants).1 status ∧
          (sys.completing key).Settles key ms status
            (drive (sys.completing key) (sys.transaction key).participants).2) :
    sys.Completes key commits (sys.completeWith close key drive).1
      (sys.completeWith close key drive).2 := by
  have hbegin : sys.beginCompletion key =
      (.ok (sys.transaction key).participants, sys.completing key) := by
    unfold beginCompletion completing
    dsimp only
    rw [if_pos hopen]
  have hlength : (sys.completing key).transactions.length = sys.transactions.length :=
    List.length_set ..
  have hrow : (sys.completing key).transaction key =
      { sys.transaction key with completing := true, participants := [] } :=
    transaction_setTransaction_self hkey _
  have hclosed : (sys.completing key).Closed key := by
    refine ⟨by rw [hlength]; exact hkey, ?_⟩
    rw [hrow, Transaction.isOpen, Bool.not_true, Bool.and_false]
  obtain ⟨ms, status, hcompletion, hsettles⟩ := hdrive hclosed
  unfold System.completeWith
  rw [hbegin]
  dsimp only
  generalize drive (sys.completing key) (sys.transaction key).participants = driven at *
  obtain ⟨outcome, sys₁⟩ := driven
  dsimp only at hcompletion hsettles ⊢
  obtain ⟨reason, hrow₁⟩ := hsettles.row
  have hended : sys₁.transaction key = (sys.transaction key).ended status reason := by
    rw [hrow₁, hrow]
    rfl
  -- whatever is closed while the participants go finds the transaction settled
  have hgone := h.dismissAll (sys.transaction key).participants sys₁
  have hkey₁ : key < sys₁.transactions.length :=
    Nat.lt_of_lt_of_le hclosed.lt hsettles.length
  have hsettled : (sys₁.transaction key).isOpen = false := by
    rw [hended, Transaction.isOpen_ended _ hcompletion.status_ne_active]
  have hdrives := hgone.drives hkey₁ hsettled
  obtain ⟨reason', hrow'⟩ := hdrives.row
  refine ⟨?_, Nat.le_trans hsettles.clock hgone.clock, hgone.seed.trans hsettles.seed,
    ms, status, reason.or reason', hcompletion, ?_, ?_⟩
  · rw [← hlength]
    exact Nat.le_trans hsettles.length hgone.length
  · rw [hdrives.milestones, List.append_nil, hsettles.milestones]
    rfl
  · rw [hrow', hended, Transaction.grown_ended]

theorem Orderly.completes_commit (h : Orderly key close) (hkey : key < sys.transactions.length)
    (hopen : (sys.transaction key).isOpen = true) :
    sys.Completes key true (sys.commitTransaction close key).1
      (sys.commitTransaction close key).2 := by
  refine h.completeWith hkey hopen fun hclosed => ?_
  have hrow : (sys.completing key).transaction key =
      { sys.transaction key with completing := true, participants := [] } :=
    transaction_setTransaction_self hkey _
  exact h.acquireWith.driveCommit hclosed (by rw [hrow])

theorem Orderly.completes_rollback (h : Orderly key close) (hkey : key < sys.transactions.length)
    (hopen : (sys.transaction key).isOpen = true) :
    sys.Completes key false (sys.rollbackTransaction close key).1
      (sys.rollbackTransaction close key).2 :=
  h.completeWith hkey hopen fun hclosed => h.acquireWith.driveRollback hclosed _

theorem completeWith_of_closed (hclosed : (sys.transaction key).isOpen = false)
    (close : CloseScope) (drive : System → List Participant → Except TxError Unit × System) :
    sys.completeWith close key drive =
      (.error (.notActive (sys.txId key) (sys.transaction key).status), sys) := by
  unfold completeWith beginCompletion
  dsimp only
  rw [hclosed, if_neg Bool.false_ne_true]

theorem Orderly.completeWith_of_ne (h : Orderly key close) (hkey : key' ≠ key) (sys : System)
    {drive : System → List Participant → Except TxError Unit × System}
    (hdrive : ∀ (sys : System) ps, sys.Evolves key (drive sys ps).2) :
    sys.Evolves key (sys.completeWith close key' drive).2 := by
  unfold System.completeWith beginCompletion
  dsimp only
  split
  · rename_i e sys₁ heq
    split at heq
    · cases heq
    · cases heq
      exact .refl key sys
  · rename_i ps sys₁ heq
    split at heq
    · cases heq
      have hbegun := Evolves.setTransaction_of_ne hkey sys
        { sys.transaction key' with completing := true, participants := [] }
      exact (hbegun.trans (hdrive _ _)).trans (h.dismissAll _ _)
    · cases heq

theorem evolves_completeWith (h : ∀ key, Orderly key close) (key key' : TxKey) (sys : System)
    {drive : System → List Participant → Except TxError Unit × System}
    (hdrive : ∀ (other : TxKey), key' ≠ other → ∀ (sys : System) ps,
      sys.Evolves other (drive sys ps).2)
    (hcompletes : key' < sys.transactions.length → (sys.transaction key').isOpen = true →
      ∃ commits, sys.Completes key' commits (sys.completeWith close key' drive).1
        (sys.completeWith close key' drive).2) :
    sys.Evolves key (sys.completeWith close key' drive).2 := by
  by_cases hkey : key' = key
  · rw [← hkey]
    by_cases hlt : key' < sys.transactions.length
    · cases hopen : (sys.transaction key').isOpen with
      | true =>
        obtain ⟨commits, hcompletes⟩ := hcompletes hlt hopen
        exact hcompletes.evolves hopen
      | false =>
        rw [completeWith_of_closed hopen]
        exact .refl key' sys
    · -- a transaction that was never started: only what the others show is at stake
      have hne : key' ≠ key' + 1 := Nat.ne_of_lt (Nat.lt_succ_self key')
      have hother := (h (key' + 1)).completeWith_of_ne hne sys (hdrive (key' + 1) hne)
      exact ⟨hother.length, hother.clock, hother.seed, fun hlt' => absurd hlt' hlt⟩
  · exact (h key).completeWith_of_ne hkey sys (hdrive key hkey)

theorem evolves_commitTransaction (h : ∀ key, Orderly key close) (key : TxKey) (sys : System)
    (key' : TxKey) : sys.Evolves key (sys.commitTransaction close key').2 :=
  evolves_completeWith h key key' sys
    (fun other hne sys ps => (h other).acquireWith.driveCommit_of_ne hne sys _ ps)
    fun hlt hopen => ⟨true, (h key').completes_commit hlt hopen⟩

theorem evolves_rollbackTransaction (h : ∀ key, Orderly key close) (key : TxKey) (sys : System)
    (key' : TxKey) : sys.Evolves key (sys.rollbackTransaction close key').2 :=
  evolves_completeWith h key key' sys
    (fun other hne sys ps => (h other).acquireWith.driveRollback_of_ne hne sys ps)
    fun hlt hopen => ⟨false, (h key').completes_rollback hlt hopen⟩

theorem orderly_closeWith (h : ∀ key, Orderly key close) (key : TxKey) :
    Orderly key (closeWith close) := by
  intro sys scope
  unfold closeWith
  split
  · exact .refl key sys
  · split
    · exact evolves_commitTransaction h key sys _
    · exact evolves_rollbackTransaction h key sys _
    · exact .refl key sys
    · exact evolves_doom key sys _ _

theorem orderly_closeWithin (n : Nat) (key : TxKey) : Orderly key (closeWithin n) := by
  induction n generalizing key with
  | zero => exact orderly_closeWith (fun key sys _ => .refl key sys) key
  | succ n ih => exact orderly_closeWith ih key

theorem evolves_close (key : TxKey) (sys : System) (scope : Scope) :
    sys.Evolves key (sys.close scope).2 := orderly_closeWithin _ key sys scope

theorem evolves_acquire (key : TxKey) (sys : System) (registry : RegistryKey) (cx : Context) :
    sys.Evolves key (sys.acquire registry cx).2 :=
  (orderly_closeWithin _ key).acquireWith sys registry cx

theorem evolves_exchangeHold (key : TxKey) (sys : System) (old new : Option RegistryKey) :
    sys.Evolves key (sys.exchangeHold old new) := by
  have hheld : sys.Evolves key (new.elim sys sys.hold) := by
    cases new with
    | none => exact .refl key sys
    | some registry => exact .of_keeps ⟨rfl, rfl, rfl, rfl⟩
  unfold exchangeHold
  cases old with
  | none => exact hheld
  | some registry => exact hheld.trans ((orderly_closeWithin _ key).letGoWith _ registry)

theorem evolves_requestThrough (key : TxKey) (sys : System) (client : ClientKey) (b : Binding)
    (cx : Context) (r : Request) : sys.Evolves key (sys.requestThrough client b cx r).2 := by
  unfold requestThrough dispatch
  cases b with
  | pinned s => exact .of_keeps (keeps_request _ _ _ _)
  | byRegistry registry =>
    dsimp only
    cases cx.transaction with
    | none => exact .of_keeps (keeps_request _ _ _ _)
    | some tx =>
      have hacquire := evolves_acquire key sys registry cx
      dsimp only
      split
      · rename_i e sys₁ heq
        rw [heq] at hacquire
        exact hacquire
      · rename_i lease sys₁ heq
        rw [heq] at hacquire
        split
        · exact hacquire.trans (.of_keeps (keeps_request _ _ _ _))
        · exact hacquire

theorem evolves_addTransaction (key : TxKey) (sys : System) (t : Transaction) :
    sys.Evolves key (sys.addTransaction t).2 := by
  refine .of_row ?_ (Nat.le_refl _) rfl rfl fun hkey => ?_
  · show sys.transactions.length ≤ (sys.transactions ++ [t]).length
    rw [List.length_append]
    omega
  · exact getD_append_of_lt hkey _ _

theorem evolves_begin (key : TxKey) (sys : System) (parent : Context) (option : ScopeOption)
    (request : ScopeRequest) : sys.Evolves key (sys.begin parent option request).2 := by
  have howning (option : ScopeOption) :
      sys.Evolves key (sys.beginOwning parent option request).2 := evolves_addTransaction key sys _
  unfold begin
  cases option with
  | suppress => exact .refl key sys
  | requiresNew => exact howning _
  | required =>
    cases parent.transaction with
    | some _ => exact .refl key sys
    | none => exact howning _

end System

end ScopedStore
