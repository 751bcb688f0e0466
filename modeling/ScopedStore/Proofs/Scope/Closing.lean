import ScopedStore.Proofs.Scope.Notification

/-!
# Closing a scope settles the leases of its transaction

The participants that a completing transaction lets go are told the outcome one by one, and whatever one of
them does meanwhile keeps registered leases attended to. When all are told, no lease waits for the
transaction any more (`System.attentive_closeWithin`).
-/

namespace ScopedStore

namespace System

variable {calls : RegistryKey → TxKey → Prop} {telling ps : List Participant} {close : CloseScope}
  {acquire : AcquireLease} {sys sys' : System} {key : TxKey} {p : Participant} {phase : Phase}

/-! ## Telling a participant -/

theorem attends_report (sys : System) (entry : LogEntry) :
    sys.Attends calls telling (sys.report entry) :=
  attends_of_eq rfl rfl rfl fun _ => rfl

theorem attends_record (sys : System) (key : TxKey) (m : Milestone) :
    sys.Attends calls telling (sys.record key m) :=
  attends_of_eq rfl rfl rfl fun _ => rfl

theorem AttentiveAcquire.observe (h : AttentiveAcquire calls acquire) {p : Probe}
    (hp : ∀ registry tx, p.Asks registry tx → calls registry tx) (sys : System) :
    sys.Attends calls telling (sys.observe acquire p) := by
  have henlist : sys.Attends calls telling (sys.enlist p.context .idle).2 := attends_enlist trivial
  unfold System.observe
  dsimp only
  split
  · exact henlist.trans (attends_report _ _)
  · rename_i registry hregistry
    have hacquire := h telling (sys.enlist p.context .idle).2 registry p.context
      fun tx htx => hp registry tx ⟨hregistry, htx⟩
    split
    · rename_i lease sys₁ heq
      rw [heq] at hacquire
      exact (henlist.trans hacquire).trans (attends_report _ _)
    · rename_i e sys₁ heq
      rw [heq] at hacquire
      exact (henlist.trans hacquire).trans (attends_report _ _)

theorem AttentiveAcquire.notify (h : AttentiveAcquire calls acquire)
    (hsys : sys.Attended calls telling) (hp : p ∈ telling) (phase : Phase) :
    let final := (sys.notify acquire p phase).2
    final.Attended calls telling ∧ sys.Advances calls final ∧ (phase ≠ .prepare →
      ∀ e, p = .enlisted e → (final.lease (final.enlistment e).lease).completed = true) := by
  intro final
  cases p with
  | enlisted e =>
    obtain ⟨hattended, hadvances, hsettled⟩ := hsys.notifyEnlistment hp phase
    refine ⟨hattended, hadvances, fun hphase e' he' => ?_⟩
    cases he'
    exact hsettled hphase
  | idle => exact ⟨hsys, .refl calls sys, fun _ e he => by cases he⟩
  | probe p =>
    have hreported : sys.Attends calls telling (sys.report (.notified p.name phase)) :=
      attends_report _ _
    have hcalled : sys.Attends calls telling (if phase ∈ p.calling then
        (sys.report (.notified p.name phase)).observe acquire p
        else sys.report (.notified p.name phase)) := by
      split
      · exact hreported.trans (h.observe (hsys.probe p (.inl hp)) _)
      · exact hreported
    have hfinal : final = if phase ∈ p.calling then
        (sys.report (.notified p.name phase)).observe acquire p
        else sys.report (.notified p.name phase) := by
      show (sys.notify acquire (.probe p) phase).2 = _
      unfold System.notify
      dsimp only
      split <;> rfl
    rw [hfinal]
    obtain ⟨hattended, hadvances⟩ := hcalled hsys
    exact ⟨hattended, hadvances, fun _ e he => by cases he⟩

theorem Attended.drop (hsys : sys.Attended calls (p :: telling))
    (hsettled : ∀ e, p = .enlisted e → (sys.lease (sys.enlistment e).lease).completed = true) :
    sys.Attended calls telling where
  enlistment := hsys.enlistment
  participant := hsys.participant
  told e he := hsys.told e (List.mem_cons_of_mem _ he)
  probe q hq := hsys.probe q (hq.imp_left (List.mem_cons_of_mem _))
  closed := hsys.closed
  slot registry tx l hl := by
    obtain ⟨hlt, htx, hdue, hshared⟩ := hsys.slot registry tx l hl
    refine ⟨hlt, htx, ?_, hshared⟩
    rcases hdue with hdone | ⟨e, hsame, he | he⟩
    · exact .inl hdone
    · exact .inr ⟨e, hsame, .inl he⟩
    · rcases List.mem_cons.1 he with heq | he
      · exact .inl (hsame ▸ hsettled e heq.symm)
      · exact .inr ⟨e, hsame, .inr he⟩

/-! ## Telling all participants -/

section Telling

variable (h : AttentiveAcquire calls acquire)

include h

theorem AttentiveAcquire.prepare (hsys : sys.Attended calls telling) (hp : p ∈ telling)
    (key : TxKey) :
    (sys.ask acquire key p .prepare).2.Attended calls telling ∧
      sys.Advances calls (sys.ask acquire key p .prepare).2 := by
  obtain ⟨hattended, hadvances, -⟩ := h.notify hsys hp .prepare
  obtain ⟨hattended', hadvances'⟩ := attends_record _ key _ hattended
  exact ⟨hattended', hadvances.trans hadvances'⟩

theorem AttentiveAcquire.tell (hsys : sys.Attended calls (p :: telling)) (hphase : phase ≠ .prepare)
    (key : TxKey) :
    (sys.ask acquire key p phase).2.Attended calls telling ∧
      sys.Advances calls (sys.ask acquire key p phase).2 := by
  obtain ⟨hattended, hadvances, hsettled⟩ := h.notify hsys List.mem_cons_self phase
  obtain ⟨hattended', hadvances'⟩ := attends_record _ key _ (hattended.drop (hsettled hphase))
  exact ⟨hattended', hadvances.trans hadvances'⟩

theorem AttentiveAcquire.prepareAll (hps : ∀ p ∈ ps, p ∈ telling) (key : TxKey)
    (hsys : sys.Attended calls telling) :
    (prepareAll acquire key ps sys).2.Attended calls telling ∧
      sys.Advances calls (prepareAll acquire key ps sys).2 := by
  induction ps generalizing sys with
  | nil => exact ⟨hsys, .refl calls sys⟩
  | cons p rest ih =>
    obtain ⟨hasked, hadvances⟩ := h.prepare hsys (hps p List.mem_cons_self) key
    obtain ⟨hattended, hadvances'⟩ := ih (fun q hq => hps q (List.mem_cons_of_mem _ hq)) hasked
    exact ⟨hattended, hadvances.trans hadvances'⟩

theorem AttentiveAcquire.doubtAll (key : TxKey) (hsys : sys.Attended calls (ps ++ telling)) :
    (doubtAll acquire key ps sys).Attended calls telling ∧
      sys.Advances calls (doubtAll acquire key ps sys) := by
  induction ps generalizing sys with
  | nil => exact ⟨hsys, .refl calls sys⟩
  | cons p rest ih =>
    have hphase : Phase.inDoubt ≠ .prepare := Phase.noConfusion
    obtain ⟨htold, hadvances⟩ := h.tell hsys hphase key
    obtain ⟨hattended, hadvances'⟩ := ih htold
    exact ⟨hattended, hadvances.trans hadvances'⟩

theorem AttentiveAcquire.rollbackAll (key : TxKey) (hsys : sys.Attended calls (ps ++ telling)) :
    (rollbackAll acquire key ps sys).2.Attended calls telling ∧
      sys.Advances calls (rollbackAll acquire key ps sys).2 := by
  induction ps generalizing sys with
  | nil => exact ⟨hsys, .refl calls sys⟩
  | cons p rest ih =>
    have hphase : Phase.rollback ≠ .prepare := Phase.noConfusion
    obtain ⟨htold, hadvances⟩ := h.tell hsys hphase key
    obtain ⟨hattended, hadvances'⟩ := ih htold
    have hboth := And.intro hattended (hadvances.trans hadvances')
    rw [System.rollbackAll]
    dsimp only
    split <;> exact hboth

theorem AttentiveAcquire.commitAll (key : TxKey) (hsys : sys.Attended calls (ps ++ telling)) :
    (commitAll acquire key ps sys).2.Attended calls telling ∧
      sys.Advances calls (commitAll acquire key ps sys).2 := by
  induction ps generalizing sys with
  | nil => exact ⟨hsys, .refl calls sys⟩
  | cons p rest ih =>
    have hphase : Phase.commit ≠ .prepare := Phase.noConfusion
    obtain ⟨htold, hadvances⟩ := h.tell hsys hphase key
    rw [System.commitAll]
    generalize sys.ask acquire key p .commit = asked at *
    obtain ⟨outcome, sys₁⟩ := asked
    cases outcome with
    | error e =>
      obtain ⟨hattended, hadvances'⟩ := h.doubtAll key htold
      exact ⟨hattended, hadvances.trans hadvances'⟩
    | ok u =>
      obtain ⟨hattended, hadvances'⟩ := ih htold
      exact ⟨hattended, hadvances.trans hadvances'⟩

end Telling

/-! ## Completing a transaction -/

theorem Shut.advances (h : sys.Shut key) (hadvances : sys.Advances calls sys') : sys'.Shut key := by
  intro hlt
  rw [hadvances.transactions] at hlt
  cases hopen : (sys'.transaction key).isOpen with
  | false => rfl
  | true =>
    rw [← h hlt, hadvances.isOpen key hopen]

theorem attends_setTransaction {t : Transaction} (hrow : key < sys.transactions.length →
      t.isOpen = (sys.transaction key).isOpen ∧
        t.participants = (sys.transaction key).participants ∧
        (t.completing = true → (sys.transaction key).completing = true)) :
    sys.Attends calls telling (sys.setTransaction key t) := by
  by_cases hlt : key < sys.transactions.length
  · obtain ⟨hopen, hparticipants, hcompleting⟩ := hrow hlt
    have hself : (sys.setTransaction key t).transaction key = t := transaction_setTransaction_self hlt t
    have hother {tx : TxKey} (hne : tx ≠ key) :
        (sys.setTransaction key t).transaction tx = sys.transaction tx :=
      transaction_setTransaction_of_ne (Ne.symm hne) sys t
    refine attends_of_sameRows ⟨rfl, fun _ => ⟨rfl, id⟩, rfl, fun _ => ⟨rfl, rfl⟩, fun tx => ?_,
      fun tx => ?_⟩ (fun _ => rfl) (List.length_set ..) (fun tx => ?_) fun _ => rfl
    · by_cases hsame : tx = key
      · rw [hsame, hself, hopen]
      · rw [hother hsame]
    · by_cases hsame : tx = key
      · rw [hsame, hself, hparticipants]
      · rw [hother hsame]
    · by_cases hsame : tx = key
      · rw [hsame, hself]
        exact hcompleting
      · rw [hother hsame]
        exact id
  · rw [setTransaction_of_ge (Nat.le_of_not_lt hlt)]
    exact .refl calls telling sys

theorem attends_settle (h : sys.Shut key) {status : Status} (hstatus : status ≠ .active) :
    sys.Attends calls telling (sys.settle key status) := by
  have hset : sys.Attends calls telling
      (sys.setTransaction key ((sys.transaction key).settle status)) := by
    refine attends_setTransaction fun hlt => ⟨?_, rfl, fun hcompleting => ?_⟩
    · rw [h hlt]
      unfold Transaction.settle Transaction.isOpen
      dsimp only
      rw [decide_eq_false hstatus, Bool.false_and]
    · cases hcompleting
  exact hset.trans (attends_record _ key _)

theorem completing_settle (sys : System) (key : TxKey) (status : Status) :
    ((sys.settle key status).transaction key).completing = false := by
  show ((sys.setTransaction key ((sys.transaction key).settle status)).transaction key).completing = false
  by_cases hlt : key < sys.transactions.length
  · rw [transaction_setTransaction_self hlt]
    rfl
  · have hge := Nat.le_of_not_lt hlt
    rw [setTransaction_of_ge hge, System.transaction, List.getD_eq_getElem?_getD,
      List.getElem?_eq_none hge]
    rfl

/-- The transaction is driven to its outcome: its participants have been told, and it completes no more. -/
structure Driven (calls : RegistryKey → TxKey → Prop) (telling : List Participant) (key : TxKey)
    (sys sys' : System) : Prop where
  attended : sys'.Attended calls telling
  advances : sys.Advances calls sys'
  completing : (sys'.transaction key).completing = false

theorem driven_settle (hshut : sys.Shut key) (hattended : sys'.Attended calls telling)
    (hadvances : sys.Advances calls sys') {status : Status} (hstatus : status ≠ .active) :
    Driven calls telling key sys (sys'.settle key status) := by
  obtain ⟨hsettled, hsettles⟩ := attends_settle (hshut.advances hadvances) hstatus hattended
  exact ⟨hsettled, hadvances.trans hsettles, completing_settle sys' key status⟩

section Driving

variable (h : AttentiveAcquire calls acquire) (hshut : sys.Shut key)
  (hsys : sys.Attended calls (ps ++ telling))

include h hshut hsys

theorem AttentiveAcquire.driveRollback :
    Driven calls telling key sys (driveRollback acquire sys key ps).2 := by
  obtain ⟨hattended, hadvances⟩ := h.rollbackAll key hsys
  exact driven_settle hshut hattended hadvances Status.noConfusion

theorem AttentiveAcquire.driveCommit (doomed : Option String) :
    Driven calls telling key sys (driveCommit acquire sys key doomed ps).2 := by
  have hreason : (sys.rollbackReason? acquire key doomed ps).2.Attended calls (ps ++ telling) ∧
      sys.Advances calls (sys.rollbackReason? acquire key doomed ps).2 := by
    unfold System.rollbackReason?
    split
    · exact ⟨hsys, .refl calls sys⟩
    · cases doomed with
      | some reason => exact ⟨hsys, .refl calls sys⟩
      | none => exact h.prepareAll (fun p hp => List.mem_append_left _ hp) key hsys
  unfold System.driveCommit
  generalize sys.rollbackReason? acquire key doomed ps = reason at *
  obtain ⟨error, sys₁⟩ := reason
  obtain ⟨hsys₁, hadvances⟩ := hreason
  cases error with
  | some e =>
    obtain ⟨hattended, hadvances'⟩ := h.rollbackAll key hsys₁
    exact driven_settle hshut hattended (hadvances.trans hadvances') Status.noConfusion
  | none =>
    obtain ⟨hattended, hadvances'⟩ := h.commitAll key hsys₁
    dsimp only at hattended hadvances' ⊢
    generalize System.commitAll acquire key ps sys₁ = found at *
    obtain ⟨⟨n, failure⟩, sys₂⟩ := found
    have hsettled {status : Status} (hstatus : status ≠ .active) :
        Driven calls telling key sys (sys₂.settle key status) :=
      driven_settle hshut hattended (hadvances.trans hadvances') hstatus
    cases failure with
    | none => exact hsettled Status.noConfusion
    | some e => cases n <;> exact hsettled Status.noConfusion

end Driving

theorem Attended.completing (hsys : sys.Attended calls telling) (key : TxKey) :
    (sys.completing key).Attended calls ((sys.transaction key).participants ++ telling) ∧
      (sys.completing key).Shut key := by
  by_cases hlt : key < sys.transactions.length
  · let ps := (sys.transaction key).participants
    have hself : (sys.completing key).transaction key =
        { sys.transaction key with completing := true, participants := [] } :=
      transaction_setTransaction_self hlt _
    have hother {tx : TxKey} (hne : tx ≠ key) :
        (sys.completing key).transaction tx = sys.transaction tx :=
      transaction_setTransaction_of_ne (Ne.symm hne) sys _
    have hclosed : ((sys.completing key).transaction key).isOpen = false := by
      rw [hself]
      exact Bool.and_false _
    have hopens {tx : TxKey} (hopen : ((sys.completing key).transaction tx).isOpen = true) :
        (sys.transaction tx).isOpen = true := by
      rwa [hother] at hopen
      rintro rfl
      rw [hclosed] at hopen
      cases hopen
    have hmem {tx : TxKey} {p : Participant} (hp : p ∈ (sys.transaction tx).participants) :
        p ∈ ((sys.completing key).transaction tx).participants ∨ p ∈ ps := by
      by_cases hsame : tx = key
      · rw [hsame] at hp
        exact .inr hp
      · rw [hother hsame]
        exact .inl hp
    have hmem' {tx : TxKey} {p : Participant}
        (hp : p ∈ ((sys.completing key).transaction tx).participants) :
        p ∈ (sys.transaction tx).participants := by
      by_cases hsame : tx = key
      · rw [hsame, hself] at hp
        cases hp
      · rwa [hother hsame] at hp
    refine ⟨⟨hsys.enlistment, fun tx e he => hsys.participant tx e (hmem' he), fun e he => ?_,
      fun p hp => ?_, fun tx hnot => ?_, fun registry tx l hl => ?_⟩, fun _ => hclosed⟩
    · rcases List.mem_append.1 he with he | he
      · obtain ⟨hin, hrow⟩ := hsys.participant key e he
        refine ⟨hin, hrow.imp_right fun htx => ?_⟩
        show ((sys.completing key).transaction (sys.lease (sys.enlistment e).lease).tx).isOpen = false
        rw [htx, hclosed]
      · obtain ⟨hin, hrow⟩ := hsys.told e he
        refine ⟨hin, hrow.imp_right fun hnot => ?_⟩
        show ((sys.completing key).transaction (sys.lease (sys.enlistment e).lease).tx).isOpen = false
        cases hopen :
            ((sys.completing key).transaction (sys.lease (sys.enlistment e).lease).tx).isOpen with
        | false => rfl
        | true => rw [← hnot, hopens hopen]
    · refine hsys.probe p ?_
      rcases hp with hp | ⟨tx, hp⟩
      · rcases List.mem_append.1 hp with hp | hp
        · exact .inr ⟨key, hp⟩
        · exact .inl hp
      · exact .inr ⟨tx, hmem' hp⟩
    · by_cases hsame : tx = key
      · rw [hsame, hself]
      · rw [hother hsame] at hnot ⊢
        exact hsys.closed tx hnot
    · obtain ⟨hin, htx, hdue, hshared⟩ := hsys.slot registry tx l hl
      refine ⟨hin, htx, hdue.imp_right fun ⟨e, hsame, he⟩ => ⟨e, hsame, ?_⟩,
        fun hopen => hshared (hopens hopen)⟩
      rcases he with he | he
      · exact (hmem he).imp_right (List.mem_append_left _)
      · exact .inr (List.mem_append_right _ he)
  · have hge := Nat.le_of_not_lt hlt
    have hsame : sys.completing key = sys := setTransaction_of_ge hge _
    have hnone : (sys.transaction key).participants = [] := by
      rw [System.transaction, List.getD_eq_getElem?_getD, List.getElem?_eq_none hge]
      rfl
    rw [hsame, hnone]
    exact ⟨hsys, fun hlt' => absurd hlt' hlt⟩

/-- From the beginning of a completion to its end everything goes on as it does from its second step. -/
theorem Driven.advances_completing {sys' : System}
    (h : Driven calls telling key (sys.completing key) sys') : sys.Advances calls sys' := by
  have hother {tx : TxKey} (hne : tx ≠ key) :
      (sys.completing key).transaction tx = sys.transaction tx :=
    transaction_setTransaction_of_ne (Ne.symm hne) sys _
  refine ⟨h.advances.transactions.trans (List.length_set ..), h.advances.leases, fun tx hopen => ?_,
    fun tx hcompleting => ?_, h.advances.kept, h.advances.slot⟩
  · have hopen' := h.advances.isOpen tx hopen
    by_cases hsame : tx = key
    · by_cases hlt : key < sys.transactions.length
      · rw [hsame, System.completing, transaction_setTransaction_self hlt] at hopen'
        exact absurd hopen' (by rw [Transaction.isOpen]; simp)
      · rwa [System.completing, setTransaction_of_ge (Nat.le_of_not_lt hlt)] at hopen'
    · rwa [hother hsame] at hopen'
  · have hne : tx ≠ key := by
      rintro rfl
      rw [h.completing] at hcompleting
      cases hcompleting
    rw [← hother hne]
    exact h.advances.completing tx hcompleting

/-! ## Closing a scope -/

section Closing

variable (h : Attentive calls close)

include h

theorem Attentive.letGoWith (telling : List Participant) (sys : System) (registry : RegistryKey) :
    sys.Attends calls telling (sys.letGoWith close registry) := by
  unfold System.letGoWith
  dsimp only
  split
  · rename_i scope _ _
    have hset : sys.Attends calls telling (sys.setRegistry registry { sys.registry registry with
        holders := (sys.registry registry).holders - 1, closing := none }) :=
      attends_setRegistry rfl
    exact hset.trans (h telling _ scope)
  · exact attends_setRegistry rfl

theorem Attentive.dismissAll (telling : List Participant) (ps : List Participant) (sys : System) :
    sys.Attends calls telling (dismissAll close ps sys) := by
  induction ps generalizing sys with
  | nil => exact .refl calls telling sys
  | cons p rest ih =>
    have hgone : sys.Attends calls telling (p.registryKey?.elim sys (System.letGoWith close sys)) := by
      cases p.registryKey? with
      | none => exact .refl calls telling sys
      | some registry => exact h.letGoWith telling sys registry
    exact hgone.trans (ih _)

theorem Attentive.completeWith (key : TxKey)
    {drive : System → List Participant → Except TxError Unit × System}
    (hdrive : ∀ telling ps sys, Attended calls (ps ++ telling) sys → sys.Shut key →
      Driven calls telling key sys (drive sys ps).2) (telling : List Participant) (sys : System) :
    sys.Attends calls telling (sys.completeWith close key drive).2 := by
  cases hopen : (sys.transaction key).isOpen with
  | false =>
    rw [completeWith_of_closed hopen close drive]
    exact .refl calls telling sys
  | true =>
    intro hsys
    obtain ⟨hcompleting, hshut⟩ := hsys.completing key
    have hdriven := hdrive telling _ _ hcompleting hshut
    have hbegin : sys.beginCompletion key =
        (.ok (sys.transaction key).participants, sys.completing key) := if_pos hopen
    unfold System.completeWith
    rw [hbegin]
    obtain ⟨hattended, hadvances⟩ := h.dismissAll telling _ _ hdriven.attended
    exact ⟨hattended, hdriven.advances_completing.trans hadvances⟩

theorem Attentive.closeWith : Attentive calls (closeWith close) := by
  intro telling sys scope
  have hacquire := h.acquireWith
  unfold System.closeWith
  cases scope.context.transaction with
  | none => exact .refl calls telling sys
  | some key =>
    cases scope.owns with
    | true =>
      cases scope.completed with
      | true =>
        exact h.completeWith key (fun telling ps sys hsys hshut => hacquire.driveCommit hshut hsys _)
          telling sys
      | false =>
        exact h.completeWith key (fun telling ps sys hsys hshut => hacquire.driveRollback hshut hsys)
          telling sys
    | false =>
      cases scope.completed with
      | true => exact .refl calls telling sys
      | false => exact attends_setTransaction fun _ => ⟨rfl, rfl, id⟩

end Closing

theorem attentive_closeWithin (calls : RegistryKey → TxKey → Prop) (n : Nat) :
    Attentive calls (closeWithin n) := by
  induction n with
  | zero =>
    have hnothing : Attentive calls fun sys _ => (.ok (), sys) :=
      fun telling sys _ => .refl calls telling sys
    exact hnothing.closeWith
  | succ n ih => exact ih.closeWith

end System

end ScopedStore
