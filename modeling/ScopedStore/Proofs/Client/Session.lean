import ScopedStore.Client.Session
import ScopedStore.Proofs.Client.Request

/-!
# What a call on a session does

The catalog and the sessions after each call. Only a commit reaches the catalog, and every other call
changes no more than its own session: it starts, gets an empty transaction, loses its transaction or
ends.
-/

namespace ScopedStore

namespace Client

theorem getD_session? {c : Client} {id : SessionId} {s : Session} (h : c.session? id = some s) :
    (c.session? id).getD {} = s := by
  rw [h]
  rfl

theorem takeFault_eq (c : Client) (kind : FaultKind) :
    c.takeFault kind =
      (decide (c.faults.armed kind ≠ 0), { c with faults := (c.faults.take kind).2 }) := by
  rw [takeFault]
  congr 1
  rw [FaultPlan.take]
  cases c.faults.armed kind <;> rfl

theorem takeFault_of_unarmed {c : Client} {kind : FaultKind} (h : c.faults.armed kind = 0) :
    c.takeFault kind = (false, c) := by
  unfold takeFault FaultPlan.take
  rw [h]

theorem startSession_cases (c : Client) (options : SessionOptions) :
    (c.startSession options).2.catalog = c.catalog ∧
      ((c.startSession options).2.sessions = c.sessions ∨
        (c.startSession options).2.sessions = c.sessions ++ [{ options := options }]) := by
  rw [startSession, takeFault_eq]
  cases decide (c.faults.armed .sessionStart ≠ 0)
  · exact ⟨rfl, .inr rfl⟩
  · exact ⟨rfl, .inl rfl⟩

theorem startTransaction_cases {c : Client} {id : SessionId} {s : Session}
    (hs : c.session? id = some s) (options : TransactionOptions) :
    (c.startTransaction id options).2.catalog = c.catalog ∧
      ((c.startTransaction id options).2.sessions = c.sessions ∨
        (s.ended = false ∧ ∃ options', (c.startTransaction id options).2.sessions =
          (c.setSession id { s with transaction := some { options := options' } }).sessions)) := by
  rw [startTransaction, getD_session? hs]
  simp only
  cases hended : s.ended with
  | true => exact ⟨rfl, .inl rfl⟩
  | false =>
    rw [if_neg Bool.false_ne_true]
    split
    · exact ⟨rfl, .inl rfl⟩
    · rw [takeFault_eq]
      cases decide (c.faults.armed .transactionStart ≠ 0)
      · exact ⟨rfl, .inr ⟨rfl, _, rfl⟩⟩
      · exact ⟨rfl, .inl rfl⟩

theorem startTransaction_of_ok {c : Client} {id : SessionId} {s : Session}
    (hs : c.session? id = some s) {options : TransactionOptions}
    (hok : (c.startTransaction id options).1 = .ok ()) :
    s.ended = false ∧ ∃ options', (c.startTransaction id options).2.sessions =
      (c.setSession id { s with transaction := some { options := options' } }).sessions := by
  rw [startTransaction, getD_session? hs] at hok ⊢
  dsimp only at hok ⊢
  cases hended : s.ended with
  | true =>
    rw [hended, if_pos rfl] at hok
    cases hok
  | false =>
    rw [hended, if_neg Bool.false_ne_true] at hok
    rw [if_neg Bool.false_ne_true]
    cases hopen : s.transaction.isSome with
    | true =>
      rw [hopen, if_pos rfl] at hok
      cases hok
    | false =>
      rw [hopen, if_neg Bool.false_ne_true, takeFault_eq] at hok
      rw [if_neg Bool.false_ne_true, takeFault_eq]
      cases harmed : decide (c.faults.armed .transactionStart ≠ 0) with
      | true =>
        rw [harmed] at hok
        cases hok
      | false => exact ⟨rfl, _, rfl⟩

/-- The clients differ in no more than their sessions and statistics. -/
structure Alike (c c' : Client) : Prop where
  catalog : c'.catalog = c.catalog
  autoCreate : c'.autoCreate = c.autoCreate
  seed : c'.seed = c.seed
  faults : c'.faults = c.faults

theorem Alike.trans {c c' c'' : Client} (h : Alike c c') (h' : Alike c' c'') : Alike c c'' :=
  ⟨h'.catalog.trans h.catalog, h'.autoCreate.trans h.autoCreate, h'.seed.trans h.seed,
    h'.faults.trans h.faults⟩

theorem startSession_of_unarmed {c : Client} (h : c.faults.sessionStarts = 0)
    (options : SessionOptions) :
    ∃ id c', c.startSession options = (.ok id, c') ∧ Alike c c' ∧
      c'.session? id = some { options := options } := by
  have hfault : c.takeFault .sessionStart = (false, c) := takeFault_of_unarmed h
  rw [startSession, hfault]
  refine ⟨_, _, rfl, ⟨rfl, rfl, rfl, rfl⟩, ?_⟩
  show (c.sessions ++ [{ options := options }])[c.sessions.length]? = some { options := options }
  rw [List.getElem?_append_right (Nat.le_refl _), Nat.sub_self]
  rfl

theorem startTransaction_of_unarmed {c : Client} {id : SessionId} {s : Session}
    (hs : c.session? id = some s) (hended : s.ended = false) (hclosed : s.transaction = none)
    (h : c.faults.transactionStarts = 0) (options : TransactionOptions) :
    ∃ c' options', c.startTransaction id options = (.ok (), c') ∧ Alike c c' ∧
      c'.session? id = some { s with transaction := some { options := options' } } := by
  have hfault : c.takeFault .transactionStart = (false, c) := takeFault_of_unarmed h
  rw [startTransaction, getD_session? hs]
  dsimp only
  rw [hended, hclosed, if_neg Bool.false_ne_true, Option.isSome_none, if_neg Bool.false_ne_true,
    hfault]
  exact ⟨_, _, rfl, ⟨rfl, rfl, rfl, rfl⟩, session?_setSession_self hs _⟩

theorem startSession_of_armed {c : Client} (h : c.faults.sessionStarts ≠ 0)
    (options : SessionOptions) :
    ∃ c', c.startSession options = (.error (.injected "startSession"), c') := by
  have harmed : decide (c.faults.armed .sessionStart ≠ 0) = true := decide_eq_true h
  rw [startSession, takeFault_eq, harmed]
  exact ⟨_, rfl⟩

theorem startTransaction_of_armed {c : Client} {id : SessionId} {s : Session}
    (hs : c.session? id = some s) (hended : s.ended = false) (hclosed : s.transaction = none)
    (h : c.faults.transactionStarts ≠ 0) (options : TransactionOptions) :
    ∃ c', c.startTransaction id options = (.error (.injected "startTransaction"), c') := by
  have harmed : decide (c.faults.armed .transactionStart ≠ 0) = true := decide_eq_true h
  rw [startTransaction, getD_session? hs]
  dsimp only
  rw [hended, hclosed, if_neg Bool.false_ne_true, Option.isSome_none, if_neg Bool.false_ne_true,
    takeFault_eq, harmed]
  exact ⟨_, rfl⟩

theorem commitTransaction_of_armed {c : Client} {id : SessionId} {s : Session} {t : OpenTransaction}
    (hs : c.session? id = some s) (ht : s.transaction = some t) (harmed : c.faults.commits ≠ 0) :
    (c.commitTransaction id).1 = .error (.injected "commitTransaction") ∧
      (c.commitTransaction id).2.catalog = c.catalog ∧
      (c.commitTransaction id).2.sessions = c.sessions := by
  have harmed' : decide (c.faults.armed .commit ≠ 0) = true := decide_eq_true harmed
  rw [commitTransaction, getD_session? hs]
  simp only [ht]
  rw [takeFault_eq, harmed']
  exact ⟨rfl, rfl, rfl⟩

theorem commitTransaction_of_unarmed {c : Client} {id : SessionId} {s : Session}
    {t : OpenTransaction} (hs : c.session? id = some s) (ht : s.transaction = some t)
    (hunarmed : c.faults.commits = 0) :
    (c.commitTransaction id).1 = (c.catalog.commit c.autoCreate t.pending).1 ∧
      (c.commitTransaction id).2.catalog = (c.catalog.commit c.autoCreate t.pending).2 ∧
      (c.commitTransaction id).2.sessions =
        (c.setSession id { s with transaction := none }).sessions ∧
      (c.commitTransaction id).2.seed = c.seed := by
  have hunarmed' : decide (c.faults.armed .commit ≠ 0) = false :=
    decide_eq_false fun h => h hunarmed
  rw [commitTransaction, getD_session? hs]
  simp only [ht]
  rw [takeFault_eq, hunarmed']
  dsimp only [setSession]
  obtain ⟨outcome, catalog⟩ := c.catalog.commit c.autoCreate t.pending
  cases outcome <;> exact ⟨rfl, rfl, rfl, rfl⟩

theorem transaction_of_closed {c : Client} {id : SessionId} (h : c.inTransaction id = false) :
    ((c.session? id).getD {}).transaction = none := by
  simpa [inTransaction] using h

theorem commitTransaction_of_closed {c : Client} {id : SessionId} (h : c.inTransaction id = false) :
    c.commitTransaction id = (.error (.noTransaction id), c) := by
  rw [commitTransaction, transaction_of_closed h]

theorem abortTransaction_of_closed {c : Client} {id : SessionId} (h : c.inTransaction id = false) :
    c.abortTransaction id = (.error (.noTransaction id), c) := by
  rw [abortTransaction, transaction_of_closed h]

theorem commitTransaction_of_none {c : Client} {id : SessionId} {s : Session}
    (hs : c.session? id = some s) (ht : s.transaction = none) :
    c.commitTransaction id = (.error (.noTransaction id), c) := by
  refine commitTransaction_of_closed ?_
  rw [inTransaction, getD_session? hs, ht]
  rfl

theorem abortTransaction_cases {c : Client} {id : SessionId} {s : Session}
    (hs : c.session? id = some s) :
    (c.abortTransaction id).2.catalog = c.catalog ∧
      ((c.abortTransaction id).2.sessions = c.sessions ∨
        (c.abortTransaction id).2.sessions =
          (c.setSession id { s with transaction := none }).sessions) := by
  rw [abortTransaction, getD_session? hs]
  split
  · exact ⟨rfl, .inl rfl⟩
  · rw [takeFault_eq]
    cases decide (c.faults.armed .abort ≠ 0)
    · exact ⟨rfl, .inr rfl⟩
    · exact ⟨rfl, .inl rfl⟩

theorem endSession_eq {c : Client} {id : SessionId} {s : Session} (hs : c.session? id = some s) :
    (c.endSession id).catalog = c.catalog ∧
      (c.endSession id).sessions =
        (c.setSession id { s with ended := true, transaction := none }).sessions ∧
      (c.endSession id).seed = c.seed := by
  rw [endSession, getD_session? hs]
  dsimp only
  split <;> exact ⟨rfl, rfl, rfl⟩

theorem inTransaction_of_session?_eq_none {c : Client} {id : SessionId} (h : c.session? id = none) :
    c.inTransaction id = false := by
  rw [inTransaction, h]
  rfl

theorem inTransaction_endSession (c : Client) (id : SessionId) :
    (c.endSession id).inTransaction id = false := by
  cases hs : c.session? id with
  | some s =>
    obtain ⟨-, hsessions, -⟩ := endSession_eq hs
    rw [inTransaction, session?_of_eq hsessions, session?_setSession_self hs]
    rfl
  | none =>
    have hlength : (c.endSession id).sessions.length = c.sessions.length := by
      unfold endSession
      dsimp only
      split <;> exact List.length_set ..
    refine inTransaction_of_session?_eq_none ?_
    rw [session?] at hs ⊢
    split at hs
    · exact if_pos ‹_›
    · rw [if_neg ‹_›, List.getElem?_eq_none_iff, hlength]
      exact List.getElem?_eq_none_iff.1 hs

end Client

end ScopedStore
