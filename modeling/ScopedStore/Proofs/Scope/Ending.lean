import ScopedStore.Proofs.Scope.Members
import ScopedStore.Proofs.Scope.Run

/-!
# How the members of a transaction end

When the scope that owns a transaction is closed, its members are told the outcome in the order in which
they were enlisted. Those that commit come first and make their writes visible one after the other; the
first that fails and all behind it make nothing visible (`System.Standing.close`).
-/

namespace ScopedStore

def Milestone.committed? : Milestone → Option Participant
  | .asked p .commit (.ok ()) => some p
  | _ => none

/-- What is committed in a namespace of a client after the buffered writes of some members were applied,
one member after the other. -/
def publishedBy (members : List Member) (buffered : Member → Pending) (client : ClientKey)
    (ns : Namespace) (stored : SortedMap Value Bytes) : SortedMap Value Bytes :=
  members.foldl (fun stored m => m.published (buffered m) client ns stored) stored

/-- The status tells how many of a number of members have committed. -/
def Status.Tells (status : Status) (n total : Nat) : Prop :=
  (status = .committed ∧ n = total) ∨ (status = .aborted ∧ n = 0) ∨
    (status = .inDoubt ∧ 0 < n ∧ n < total)

namespace System

/-- Members that can be told the outcome of their transaction. -/
structure Standing (sys : System) (members : List Member) (buffered : Member → Pending) : Prop where
  valid : sys.Valid
  stands : ∀ m ∈ members, sys.Stands m (buffered m)
  apart : members.Pairwise Member.Apart

/-- The sessions of all members have ended, and the writes of those that have committed are visible. -/
structure Ends (key : TxKey) (members committed : List Member) (buffered : Member → Pending)
    (sys sys' : System) : Prop where
  length : sys'.transactions.length = sys.transactions.length
  spares : sys.Spares (fun ref => ∃ m ∈ members, ref = m.session) sys'
  concluded : ∀ m ∈ members, sys'.Concluded m
  stored : ∀ client ns,
    sys'.stored client ns = publishedBy committed buffered client ns (sys.stored client ns)
  milestones : ∃ ms, sys'.milestones key = sys.milestones key ++ ms ∧
    ms.filterMap Milestone.committed? = committed.map Member.participant

variable {sys sys' sys'' : System} {key : TxKey} {m : Member}
  {members committed rest : List Member} {n : Nat} {buffered : Member → Pending}

theorem Standing.kept (h : sys.Standing members buffered)
    (hspares : sys.Spares (fun _ => False) sys') (hleases : sys'.leases = sys.leases)
    (henlistments : sys'.enlistments = sys.enlistments) : sys'.Standing members buffered where
  valid := hspares.valid h.valid
  stands m hm := (h.stands m hm).kept hspares id hleases henlistments
  apart := h.apart

theorem Standing.tail (h : sys.Standing (m :: rest) buffered) (hconcerns : sys.Concerns m sys') :
    sys'.Standing rest buffered := by
  obtain ⟨hapart, hrest⟩ := List.pairwise_cons.1 h.apart
  exact ⟨hconcerns.spares.valid h.valid, fun m' hm' =>
    (h.stands m' (List.mem_cons_of_mem _ hm')).apart hconcerns (hapart m' hm'), hrest⟩

theorem Ends.refl (key : TxKey) (buffered : Member → Pending) (sys : System) :
    sys.Ends key [] [] buffered sys where
  length := rfl
  spares := .refl _ sys
  concluded _ hm := absurd hm List.not_mem_nil
  stored _ _ := rfl
  milestones := ⟨[], (List.append_nil _).symm, rfl⟩

theorem Ends.cons (first : List Member) {milestone : Milestone} (hconcerns : sys.Concerns m sys')
    (hlength : sys'.transactions.length = sys.transactions.length) (hconcluded : sys'.Concluded m)
    (hmilestone : sys'.milestones key = sys.milestones key ++ [milestone])
    (hfirst : [milestone].filterMap Milestone.committed? = first.map Member.participant)
    (hstored : ∀ client ns,
      sys'.stored client ns = publishedBy first buffered client ns (sys.stored client ns))
    (hapart : ∀ m' ∈ rest, m.Apart m') (hrest : sys'.Ends key rest committed buffered sys'') :
    sys.Ends key (m :: rest) (first ++ committed) buffered sys'' := by
  obtain ⟨ms, hms, hcommitted⟩ := hrest.milestones
  refine ⟨hrest.length.trans hlength, ?_, fun m' hm' => ?_, fun client ns => ?_,
    [milestone] ++ ms, ?_, ?_⟩
  · refine (hconcerns.spares.mono fun ref href => ⟨m, List.mem_cons_self, href⟩).trans
      (hrest.spares.mono fun ref href => ?_)
    obtain ⟨m', hm', href⟩ := href
    exact ⟨m', List.mem_cons_of_mem _ hm', href⟩
  · rcases List.mem_cons.1 hm' with rfl | hm'
    · refine hconcluded.spared hrest.spares fun htouched => ?_
      obtain ⟨other, hother, hsame⟩ := htouched
      exact (hapart other hother).2 hsame.symm
    · exact hrest.concluded m' hm'
  · rw [hrest.stored, hstored]
    exact (List.foldl_append ..).symm
  · rw [hms, hmilestone, List.append_assoc]
  · rw [List.filterMap_append, hfirst, hcommitted, List.map_append]

/-! ## Asking the members -/

section Asking

variable (acquire : AcquireLease) (key : TxKey)

theorem milestones_ask (sys : System) (m : Member) (phase : Phase) :
    (sys.ask acquire key m.participant phase).2.milestones key =
      sys.milestones key ++
        [.asked m.participant phase (sys.ask acquire key m.participant phase).1] := by
  have hkept : (sys.notifyEnlistment m.enlistment phase).2.milestones key = sys.milestones key := by
    unfold milestones
    rw [(keeps_notifyEnlistment sys m.enlistment phase).journal]
  rw [← hkept]
  exact milestones_record_self _ _ _

theorem length_ask (sys : System) (m : Member) (phase : Phase) :
    (sys.ask acquire key m.participant phase).2.transactions.length = sys.transactions.length :=
  congrArg List.length (keeps_notifyEnlistment sys m.enlistment phase).transactions

theorem concerns_ask {phase : Phase}
    (h : sys.Concerns m (sys.notifyEnlistment m.enlistment phase).2) :
    sys.Concerns m (sys.ask acquire key m.participant phase).2 :=
  h.trans (.of_eq m rfl rfl rfl)

theorem prepareAll_members (members : List Member) (sys : System) :
    (prepareAll acquire key (members.map Member.participant) sys).1 = false ∧
      ∃ journal ms,
        (prepareAll acquire key (members.map Member.participant) sys).2 =
          { sys with journal := journal } ∧
        ({ sys with journal := journal } : System).milestones key = sys.milestones key ++ ms ∧
        ms.filterMap Milestone.committed? = [] := by
  induction members generalizing sys with
  | nil => exact ⟨rfl, sys.journal, [], rfl, (List.append_nil _).symm, rfl⟩
  | cons m rest ih =>
    obtain ⟨hveto, journal, ms, hafter, hms, hcommitted⟩ :=
      ih (sys.ask acquire key m.participant .prepare).2
    refine ⟨hveto, journal, .asked m.participant .prepare (.ok ()) :: ms, hafter, ?_, hcommitted⟩
    rw [milestones_ask, List.append_assoc] at hms
    exact hms

/-- A member that is rolled back, or is told that the outcome is in doubt, makes nothing visible. -/
theorem Standing.giveUp (h : sys.Standing (m :: rest) buffered) {phase : Phase}
    (hphase : phase = .rollback ∨ phase = .inDoubt) (hrest :
      (sys.ask acquire key m.participant phase).2.Standing rest buffered →
      (sys.ask acquire key m.participant phase).2.Ends key rest [] buffered sys') :
    sys.Ends key (m :: rest) [] buffered sys' := by
  obtain ⟨hconcerns, hconcluded, hstored⟩ := (h.stands m List.mem_cons_self).giveUp hphase
  have hasked := concerns_ask acquire key hconcerns
  have hconcluded' : (sys.ask acquire key m.participant phase).2.Concluded m := hconcluded
  have hapart := (List.pairwise_cons.1 h.apart).1
  refine .cons [] hasked (length_ask acquire key sys m phase) hconcluded'
    (milestones_ask acquire key sys m phase) ?_ hstored hapart (hrest (h.tail hasked))
  rcases hphase with rfl | rfl <;> rfl

theorem Standing.doubtAll (h : sys.Standing members buffered) :
    sys.Ends key members [] buffered
      (doubtAll acquire key (members.map Member.participant) sys) := by
  induction members generalizing sys with
  | nil => exact .refl key buffered sys
  | cons m rest ih => exact h.giveUp acquire key (.inr rfl) fun htail => ih htail

theorem Standing.rollbackAll (h : sys.Standing members buffered) :
    sys.Ends key members [] buffered
      (rollbackAll acquire key (members.map Member.participant) sys).2 := by
  induction members generalizing sys with
  | nil => exact .refl key buffered sys
  | cons m rest ih =>
    have hends := h.giveUp acquire key (.inl rfl) fun htail => ih htail
    rw [List.map_cons, System.rollbackAll]
    dsimp only
    split <;> exact hends

theorem Standing.commitAll (h : sys.Standing members buffered) :
    let found := commitAll acquire key (members.map Member.participant) sys
    ((found.1.2 = none ∧ found.1.1 = members.length) ∨
        ((∃ e, found.1.2 = some e) ∧ found.1.1 < members.length)) ∧
      sys.Ends key members (members.take found.1.1) buffered found.2 := by
  induction members generalizing sys with
  | nil => exact ⟨.inl ⟨rfl, rfl⟩, .refl key buffered sys⟩
  | cons m rest ih =>
    obtain ⟨hconcerns, hconcluded, hpublished, hkept⟩ :=
      (h.stands m List.mem_cons_self).commit h.valid
    have hasked := concerns_ask acquire key hconcerns
    have hapart := (List.pairwise_cons.1 h.apart).1
    have hlength := length_ask acquire key sys m .commit
    have hmilestone := milestones_ask acquire key sys m .commit
    have htail := h.tail hasked
    have hconcluded' : (sys.ask acquire key m.participant .commit).2.Concluded m := hconcluded
    change (sys.ask acquire key m.participant .commit).1 = _ → ∀ client ns,
      (sys.ask acquire key m.participant .commit).2.stored client ns = _ at hpublished
    change (sys.ask acquire key m.participant .commit).1 ≠ _ → ∀ client ns,
      (sys.ask acquire key m.participant .commit).2.stored client ns = _ at hkept
    rw [List.map_cons, System.commitAll]
    generalize sys.ask acquire key m.participant .commit = asked at *
    obtain ⟨outcome, sys₁⟩ := asked
    cases outcome with
    | error e =>
      refine ⟨.inr ⟨⟨e, rfl⟩, Nat.succ_pos _⟩, ?_⟩
      have hfailed : (Except.error e : Except TxError Unit) ≠ .ok () := fun heq => by cases heq
      exact .cons [] hasked hlength hconcluded' hmilestone rfl (hkept hfailed) hapart
        (htail.doubtAll acquire key)
    | ok u =>
      obtain ⟨hcount, hends⟩ := ih htail
      dsimp only at hcount hends ⊢
      generalize System.commitAll acquire key (rest.map Member.participant) sys₁ = found at *
      obtain ⟨⟨n, failure⟩, sys₂⟩ := found
      refine ⟨?_, ?_⟩
      · rcases hcount with ⟨hnone, hall⟩ | ⟨hfailed, hlt⟩
        · exact .inl ⟨hnone, congrArg (· + 1) hall⟩
        · exact .inr ⟨hfailed, Nat.succ_lt_succ hlt⟩
      · exact .cons [m] hasked hlength hconcluded' hmilestone rfl (hpublished rfl) hapart hends

end Asking

/-! ## Completing the transaction -/

/-- The members are told the outcome, and the transaction is settled with a status that tells how many
of them have committed. -/
def Resolves (key : TxKey) (members : List Member) (buffered : Member → Pending)
    (sys sys' : System) : Prop :=
  ∃ n, ((sys'.transaction key).status).Tells n members.length ∧
    sys.Ends key members (members.take n) buffered sys'

theorem Ends.settle (h : sys.Ends key members (members.take n) buffered sys')
    (hkey : key < sys.transactions.length) {status : Status}
    (hstatus : status.Tells n members.length) :
    sys.Resolves key members buffered (sys'.settle key status) := by
  obtain ⟨ms, hms, hcommitted⟩ := h.milestones
  have hclients : (sys'.settle key status).clients = sys'.clients := rfl
  have hrow : (sys'.settle key status).transaction key =
      (sys'.transaction key).settle status :=
    transaction_setTransaction_self (by rw [h.length]; exact hkey) _
  refine ⟨n, by rw [hrow]; exact hstatus, ?_, h.spares.trans (.of_eq hclients), h.concluded,
    h.stored, ms ++ [.settled status], ?_, ?_⟩
  · rw [← h.length]
    exact List.length_set ..
  · unfold System.settle
    rw [milestones_record_self, ← List.append_assoc, ← hms]
    rfl
  · rw [List.filterMap_append, hcommitted]
    exact List.append_nil _

theorem Resolves.of_eq (h : sys'.Resolves key members buffered sys'')
    (hlength : sys'.transactions.length = sys.transactions.length)
    (hclients : sys'.clients = sys.clients) {before : List Milestone}
    (hmilestones : sys'.milestones key = sys.milestones key ++ before)
    (hbefore : before.filterMap Milestone.committed? = []) :
    sys.Resolves key members buffered sys'' := by
  obtain ⟨n, hstatus, hends⟩ := h
  obtain ⟨ms, hms, hcommitted⟩ := hends.milestones
  have hspares : sys.Spares (fun ref => ∃ m ∈ members, ref = m.session) sys' := .of_eq hclients
  refine ⟨n, hstatus, hends.length.trans hlength, hspares.trans hends.spares, hends.concluded,
    fun client ns => ?_, before ++ ms, ?_, ?_⟩
  · rw [hends.stored, stored_of_eq hclients]
  · rw [hms, hmilestones, List.append_assoc]
  · rw [List.filterMap_append, hbefore, hcommitted, List.nil_append]

theorem Standing.driveRollback (h : sys.Standing members buffered)
    (hkey : key < sys.transactions.length) (acquire : AcquireLease) :
    sys.Resolves key members buffered
      (sys.driveRollback acquire key (members.map Member.participant)).2 :=
  Ends.settle (h.rollbackAll acquire key) hkey (.inr (.inl ⟨rfl, rfl⟩))

theorem rollbackReason?_members (acquire : AcquireLease) (key : TxKey) (doomed : Option String)
    (members : List Member) (sys : System) :
    ∃ journal ms,
      (sys.rollbackReason? acquire key doomed (members.map Member.participant)).2 =
        { sys with journal := journal } ∧
      ({ sys with journal := journal } : System).milestones key = sys.milestones key ++ ms ∧
      ms.filterMap Milestone.committed? = [] := by
  unfold rollbackReason?
  split
  · exact ⟨sys.journal, [], rfl, (List.append_nil _).symm, rfl⟩
  · split
    · exact ⟨sys.journal, [], rfl, (List.append_nil _).symm, rfl⟩
    · exact (prepareAll_members acquire key members sys).2

theorem Standing.driveCommit (h : sys.Standing members buffered)
    (hkey : key < sys.transactions.length) (acquire : AcquireLease) (doomed : Option String) :
    sys.Resolves key members buffered
      (sys.driveCommit acquire key doomed (members.map Member.participant)).2 := by
  obtain ⟨journal, ms, hafter, hms, hcommitted⟩ :=
    rollbackReason?_members acquire key doomed members sys
  let sys₁ : System := { sys with journal := journal }
  have hstanding : sys₁.Standing members buffered := h.kept (.of_eq rfl) rfl rfl
  have hkey₁ : key < sys₁.transactions.length := hkey
  have hresolves : sys₁.Resolves key members buffered
      (sys.driveCommit acquire key doomed (members.map Member.participant)).2 := by
    unfold System.driveCommit
    generalize sys.rollbackReason? acquire key doomed (members.map Member.participant) = reason at *
    obtain ⟨error, sys₂⟩ := reason
    obtain rfl : sys₂ = sys₁ := hafter
    cases error with
    | some e => exact hstanding.driveRollback hkey₁ acquire
    | none =>
      obtain ⟨hcount, hends⟩ := hstanding.commitAll acquire key
      dsimp only at hcount hends ⊢
      generalize System.commitAll acquire key (members.map Member.participant) sys₁ = found at *
      obtain ⟨⟨n, failure⟩, sys₃⟩ := found
      rcases hcount with ⟨hnone, hall⟩ | ⟨⟨e, hfailed⟩, hlt⟩
      · obtain rfl : failure = none := hnone
        exact hends.settle hkey₁ (.inl ⟨rfl, hall⟩)
      · obtain rfl : failure = some e := hfailed
        cases n with
        | zero => exact hends.settle hkey₁ (.inr (.inl ⟨rfl, rfl⟩))
        | succ n => exact hends.settle hkey₁ (.inr (.inr ⟨rfl, Nat.succ_pos n, hlt⟩))
  exact hresolves.of_eq rfl rfl hms hcommitted

theorem dismissAll_members (close : CloseScope) (members : List Member) (sys : System) :
    dismissAll close (members.map Member.participant) sys = sys := by
  induction members with
  | nil => rfl
  | cons m rest ih => exact ih

theorem Standing.completeWith (h : sys.Standing members buffered)
    (hkey : key < sys.transactions.length) (hopen : (sys.transaction key).isOpen = true)
    (hparticipants : (sys.transaction key).participants = members.map Member.participant)
    (close : CloseScope) {drive : System → List Participant → Except TxError Unit × System}
    (hdrive : (sys.completing key).Standing members buffered →
      key < (sys.completing key).transactions.length →
      (sys.completing key).Resolves key members buffered
        (drive (sys.completing key) (members.map Member.participant)).2) :
    sys.Resolves key members buffered (sys.completeWith close key drive).2 := by
  have hbegin : sys.beginCompletion key =
      (.ok (members.map Member.participant), sys.completing key) := by
    unfold beginCompletion completing
    dsimp only
    rw [if_pos hopen, hparticipants]
  have hlength : (sys.completing key).transactions.length = sys.transactions.length :=
    List.length_set ..
  have hresolves := hdrive (h.kept (.of_eq rfl) rfl rfl) (by rw [hlength]; exact hkey)
  unfold System.completeWith
  rw [hbegin]
  dsimp only
  rw [dismissAll_members]
  exact hresolves.of_eq hlength rfl (List.append_nil _).symm rfl

/-- Closing the scope that owns an open transaction tells the members the outcome. -/
theorem Standing.close (h : sys.Standing members buffered) (hkey : key < sys.transactions.length)
    (hopen : (sys.transaction key).isOpen = true)
    (hparticipants : (sys.transaction key).participants = members.map Member.participant)
    {scope : Scope} (hscope : scope.context.transaction = some key) (howns : scope.owns = true) :
    sys.Resolves key members buffered (sys.close scope).2 := by
  obtain ⟨close, -, hclose⟩ := exists_close_of_owner hscope howns sys
  rw [hclose]
  split
  · exact h.completeWith hkey hopen hparticipants close fun hstanding hkey' =>
      hstanding.driveCommit hkey' _ _
  · exact h.completeWith hkey hopen hparticipants close fun hstanding hkey' =>
      hstanding.driveRollback hkey' _

end System

end ScopedStore
