import ScopedStore.Proofs.Client.Lifetimes

/-!
# Sessions and what is counted of them

Whatever happens to a client, at most one session takes a turn (`Turn`), or one is started
(`after_cases`). Each turn counts what it does, so after any run the transactions that were started
are those that committed, those that aborted and those that are open (`run_conserves`). A session that
has ended stays so, without a transaction, and writes are buffered nowhere but in an open transaction,
which starts without any.
-/

namespace ScopedStore

def Session.inTransaction (s : Session) : Bool := s.transaction.isSome

/-- What the session has buffered; nothing without an open transaction. -/
def Session.buffered (s : Session) : Pending := (s.transaction.map OpenTransaction.pending).getD ∅

/-- A session takes a turn, with what has been counted before and after it. -/
inductive Turn : Session → Session → Statistics → Statistics → Prop
  /-- An operation is buffered. -/
  | buffer {s t} (t' b) : s.ended = false → s.transaction = some t →
      Turn s { s with transaction := some t' } b b
  | start {s} (options b) : s.ended = false → s.transaction = none →
      Turn s { s with transaction := some { options := options } } b
        { b with transactionsStarted := b.transactionsStarted + 1 }
  | commit {s t} (b) : s.transaction = some t →
      Turn s { s with transaction := none } b
        { b with transactionsCommitted := b.transactionsCommitted + 1 }
  /-- The transaction is aborted, or its commit is refused. -/
  | abort {s t} (b) : s.transaction = some t →
      Turn s { s with transaction := none } b
        { b with transactionsAborted := b.transactionsAborted + 1 }
  /-- The session is ended, maybe not for the first time. -/
  | close (s b) :
      Turn s { s with ended := true, transaction := none } b
        { b with
          endCalls := b.endCalls + 1
          sessionsEnded := b.sessionsEnded + (!s.ended).toNat
          transactionsAborted := b.transactionsAborted + s.inTransaction.toNat }

/-- What is counted agrees with the sessions that there are. -/
structure Balanced (b : Statistics) (sessions : List Session) : Prop where
  transactions : b.transactionsStarted =
    b.transactionsCommitted + b.transactionsAborted + sessions.countP Session.inTransaction
  started : b.sessionsStarted = sessions.length
  ended : b.sessionsEnded = sessions.countP Session.ended
  calls : b.sessionsEnded ≤ b.endCalls

theorem Turn.counts {s s' : Session} {b b' : Statistics} (h : Turn s s' b b') :
    b'.transactionsStarted + b.transactionsCommitted + b.transactionsAborted +
          s.inTransaction.toNat =
        b.transactionsStarted + b'.transactionsCommitted + b'.transactionsAborted +
          s'.inTransaction.toNat ∧
      b'.sessionsStarted = b.sessionsStarted ∧
      b'.sessionsEnded + s.ended.toNat = b.sessionsEnded + s'.ended.toNat ∧
      b'.sessionsEnded + b.endCalls ≤ b.sessionsEnded + b'.endCalls := by
  cases h with
  | buffer t' b hrunning ht =>
    refine ⟨?_, rfl, rfl, Nat.le_refl _⟩
    rw [Session.inTransaction, Session.inTransaction, ht]
    rfl
  | start options b hrunning ht | commit b ht | abort b ht =>
    refine ⟨?_, rfl, rfl, Nat.le_refl _⟩
    simp only [Session.inTransaction, ht, Option.isSome_some, Option.isSome_none, Bool.toNat_true,
      Bool.toNat_false]
    omega
  | close b =>
    have hfirst : (!s.ended).toNat + s.ended.toNat = 1 := by cases s.ended <;> rfl
    refine ⟨?_, rfl, ?_, ?_⟩ <;>
      simp only [Session.inTransaction, Option.isSome_none, Bool.toNat_true, Bool.toNat_false] <;>
      omega

theorem Turn.ended {s s' : Session} {b b' : Statistics} (h : Turn s s' b b')
    (hended : s.ended = true) : s'.ended = true := by
  cases h with
  | close b => rfl
  | _ => exact hended

theorem Turn.closed {s s' : Session} {b b' : Statistics} (h : Turn s s' b b')
    (hended : s'.ended = true) : s'.transaction = none := by
  cases h with
  | buffer t' b hrunning | start options b hrunning =>
    rw [hrunning] at hended
    cases hended
  | commit | abort | close => rfl

theorem Turn.buffered {s s' : Session} {b b' : Statistics} (h : Turn s s' b b')
    (hclosed : s.inTransaction = false) : s'.buffered = ∅ := by
  cases h with
  | buffer t' b hrunning ht =>
    rw [Session.inTransaction, ht] at hclosed
    cases hclosed
  | start | commit | abort | close => rfl

namespace Client

variable {c c' : Client} {id : SessionId} {s s' : Session}

/-! ## What happens to the sessions -/

/-- What an event does to the sessions and to what is counted of them: nothing, or a session is
started, or a session takes a turn. -/
def Moves (c c' : Client) : Prop :=
  (c'.sessions = c.sessions ∧ c'.stats.lifecycle = c.stats.lifecycle) ∨
    (∃ options : SessionOptions, c'.sessions = c.sessions ++ [{ options := options }] ∧
      c'.stats.lifecycle =
        { c.stats.lifecycle with sessionsStarted := c.stats.lifecycle.sessionsStarted + 1 }) ∨
    ∃ id s s', c.session? id = some s ∧ c'.sessions = (c.setSession id s').sessions ∧
      Turn s s' c.stats.lifecycle c'.stats.lifecycle

theorem Moves.rest (hsessions : c'.sessions = c.sessions)
    (hstats : c'.stats.lifecycle = c.stats.lifecycle) : Moves c c' :=
  .inl ⟨hsessions, hstats⟩

theorem Moves.turn (hs : c.session? id = some s)
    (hsessions : c'.sessions = (c.setSession id s').sessions)
    (hturn : Turn s s' c.stats.lifecycle c'.stats.lifecycle) : Moves c c' :=
  .inr (.inr ⟨id, s, s', hs, hsessions, hturn⟩)

theorem moves_perform (c : Client) (caller : Caller) (r : Request) :
    Moves c (c.perform caller r).2 := by
  have hstats := c.perform_lifecycle caller r
  cases r with
  | documents h op =>
    rcases runDocuments_cases (Prod.eta (c.runDocuments caller h op)).symm with
      ⟨-, hsessions, -⟩ | ⟨-, hrun⟩ | ⟨id, s, t, hopen, hrun⟩
    · exact .rest hsessions hstats
    · have hsessions := (runDirect_cases hrun).1
      rw [countOperation_sessions] at hsessions
      exact .rest hsessions hstats
    · obtain ⟨-, ⟨hsessions, -⟩ | ⟨reply, v, -, -, hsessions⟩⟩ := runBuffered_cases hrun
      · rw [countOperation_sessions] at hsessions
        exact .rest hsessions hstats
      · rw [setSession, countOperation_sessions] at hsessions
        obtain ⟨-, hs, hended, ht⟩ := transactionOf?_eq_some_iff.1 hopen
        refine .turn hs hsessions ?_
        show Turn s _ c.stats.lifecycle (c.perform caller (.documents h op)).2.stats.lifecycle
        rw [hstats]
        exact .buffer _ _ hended ht
  | createIndex ns i =>
    exact .rest (createIndex_cases (Prod.eta (c.createIndex caller ns i)).symm).1 hstats
  | _ =>
    refine .rest (c.perform_administration caller ?_ ?_).1 hstats <;>
      exact fun _ _ => Request.noConfusion

theorem moves_startSession (c : Client) (options : SessionOptions) :
    Moves c (c.startSession options).2 := by
  rw [startSession, takeFault_eq]
  cases decide (c.faults.armed .sessionStart ≠ 0)
  · exact .inr (.inl ⟨options, rfl, rfl⟩)
  · exact .rest rfl rfl

theorem moves_startTransaction (hs : c.session? id = some s) (options : TransactionOptions) :
    Moves c (c.startTransaction id options).2 := by
  rw [startTransaction, getD_session? hs]
  dsimp only
  split
  · exact .rest rfl rfl
  · rename_i hrunning
    split
    · exact .rest rfl rfl
    · rename_i hclosed
      rw [takeFault_eq]
      cases decide (c.faults.armed .transactionStart ≠ 0)
      · exact .turn hs rfl
          (.start _ _ (Bool.not_eq_true _ ▸ hrunning) (Option.not_isSome_iff_eq_none.1 hclosed))
      · exact .rest rfl rfl

theorem moves_commitTransaction (hs : c.session? id = some s) :
    Moves c (c.commitTransaction id).2 := by
  rw [commitTransaction, getD_session? hs]
  cases ht : s.transaction with
  | none => exact .rest rfl rfl
  | some t =>
    dsimp only
    rw [takeFault_eq]
    cases decide (c.faults.armed .commit ≠ 0)
    · dsimp only
      split
      · exact .turn hs rfl (.commit _ ht)
      · exact .turn hs rfl (.abort _ ht)
    · exact .rest rfl rfl

theorem moves_abortTransaction (hs : c.session? id = some s) :
    Moves c (c.abortTransaction id).2 := by
  rw [abortTransaction, getD_session? hs]
  cases ht : s.transaction with
  | none => exact .rest rfl rfl
  | some t =>
    dsimp only
    rw [takeFault_eq]
    cases decide (c.faults.armed .abort ≠ 0)
    · exact .turn hs rfl (.abort _ ht)
    · exact .rest rfl rfl

theorem moves_endSession (hs : c.session? id = some s) : Moves c (c.endSession id) := by
  refine .turn hs (endSession_eq hs).2.1 ?_
  have hcounted : (c.endSession id).stats.lifecycle =
      { c.stats.lifecycle with
        endCalls := c.stats.endCalls + 1
        sessionsEnded := c.stats.sessionsEnded + (!s.ended).toNat
        transactionsAborted := c.stats.transactionsAborted + s.inTransaction.toNat } := by
    rw [endSession, getD_session? hs, Session.inTransaction]
    cases s.ended <;> cases s.transaction <;> rfl
  rw [hcounted]
  exact .close s _

theorem moves_after (c : Client) (e : Event) : Moves c (c.after e) := by
  have hrest : Moves c c := .rest rfl rfl
  cases e with
  | request caller r => exact c.moves_perform caller r
  | startSession options => exact c.moves_startSession options
  | startTransaction id options =>
    exact onSession_induction hrest fun s hs => moves_startTransaction hs options
  | commitTransaction id => exact onSession_induction hrest fun s hs => moves_commitTransaction hs
  | abortTransaction id => exact onSession_induction hrest fun s hs => moves_abortTransaction hs
  | endSession id => exact onSession_induction hrest fun s hs => moves_endSession hs
  | arm kind n | reseed seed => exact .rest rfl rfl

/-! ## What is counted -/

theorem countP_append_of_not {p : Session → Bool} (hp : p s = false) (sessions : List Session) :
    (sessions ++ [s]).countP p = sessions.countP p := by
  rw [List.countP_append, List.countP_singleton, hp]
  rfl

theorem Moves.balanced (h : Moves c c') (hc : Balanced c.stats.lifecycle c.sessions) :
    Balanced c'.stats.lifecycle c'.sessions := by
  obtain ⟨htransactions, hstarted, hended, hcalls⟩ := hc
  rcases h with ⟨hsessions, hstats⟩ | ⟨options, hsessions, hstats⟩ | ⟨id, s, s', hs, hsessions, hturn⟩
  · rw [hsessions, hstats]
    exact ⟨htransactions, hstarted, hended, hcalls⟩
  · rw [hsessions, hstats]
    refine ⟨?_, ?_, ?_, hcalls⟩
    · rw [countP_append_of_not (p := Session.inTransaction) rfl]
      exact htransactions
    · rw [List.length_append, ← hstarted]
      rfl
    · rw [countP_append_of_not (p := Session.ended) rfl]
      exact hended
  · have hopen := countP_of_set hs hsessions Session.inTransaction
    have hover := countP_of_set hs hsessions Session.ended
    have hlength : c'.sessions.length = c.sessions.length := by
      rw [hsessions, setSession, List.length_set]
    obtain ⟨htransactions', hstarted', hended', hcalls'⟩ := hturn.counts
    exact ⟨by omega, by omega, by omega, by omega⟩

/-! ## What becomes of a session -/

theorem Moves.ended (h : Moves c c') (hended : c.ended? id = some true) :
    c'.ended? id = some true := by
  rcases h with ⟨hsessions, -⟩ | ⟨options, hsessions, -⟩ | ⟨id', s, s', hs, hsessions, hturn⟩
  · rw [ended?_of_eq hsessions, hended]
  · rw [ended?_of_append hsessions, if_neg ?_, hended]
    rintro rfl
    simp [ended?, session?] at hended
  · rw [ended?_of_set hs hsessions]
    split
    · rename_i hid
      rw [hid, ended?, hs, Option.map_some, Option.some.injEq] at hended
      rw [hturn.ended hended]
    · exact hended

theorem Moves.closed (h : Moves c c')
    (hc : ∀ id s, c.session? id = some s → s.ended = true → s.transaction = none) (id : SessionId)
    (s : Session) (hs : c'.session? id = some s) (hended : s.ended = true) : s.transaction = none := by
  rcases h with ⟨hsessions, -⟩ | ⟨options, hsessions, -⟩ | ⟨id', s₀, s', hs₀, hsessions, hturn⟩
  · exact hc id s (session?_of_eq hsessions id ▸ hs) hended
  · rcases session?_of_append hsessions hs with hs | rfl
    · exact hc id s hs hended
    · cases hended
  · rw [session?_of_eq hsessions] at hs
    rcases session?_setSession hs₀ s' hs with ⟨-, rfl⟩ | ⟨-, hs⟩
    · exact hturn.closed hended
    · exact hc id s hs hended

theorem Moves.buffered (h : Moves c c') (hclosed : c.inTransaction id = false)
    (hs' : c'.session? id = some s') : s'.buffered = ∅ := by
  have hbefore {s : Session} (hs : c.session? id = some s) : s.inTransaction = false := by
    rw [inTransaction, getD_session? hs] at hclosed
    exact hclosed
  have hkept {s : Session} (hs : c.session? id = some s) : s.buffered = ∅ := by
    rw [Session.buffered, Option.not_isSome_iff_eq_none.1 (Bool.eq_false_iff.1 (hbefore hs))]
    rfl
  rcases h with ⟨hsessions, -⟩ | ⟨options, hsessions, -⟩ | ⟨id', s, s₁, hs, hsessions, hturn⟩
  · exact hkept (session?_of_eq hsessions id ▸ hs')
  · rcases session?_of_append hsessions hs' with hs | rfl
    · exact hkept hs
    · rfl
  · rw [session?_of_eq hsessions] at hs'
    rcases session?_setSession hs s₁ hs' with ⟨rfl, rfl⟩ | ⟨-, hs'⟩
    · exact hturn.buffered (hbefore hs)
    · exact hkept hs'

/-! ## Runs -/

theorem run_keeps {P : Client → Prop} (hP : ∀ c e, P c → P (c.after e)) (hc : P c)
    (events : List Event) : P (c.run events) := by
  induction events generalizing c with
  | nil => exact hc
  | cons e rest ih => exact ih (hP c e hc)

theorem run_append (c : Client) (earlier later : List Event) :
    c.run (earlier ++ later) = (c.run earlier).run later :=
  List.foldl_append

/-- After any run of a new client, what it has counted of its sessions and transactions agrees with
the sessions that there are. A session that has ended stays so and has no transaction, whatever comes
later. Writes are buffered only in open transactions: a session without one has none, even after the
next event. -/
theorem run_conserves (autoCreate : Bool) (seed : Nat) (earlier later : List Event) :
    let c := (fresh autoCreate seed).run earlier
    let c' := (fresh autoCreate seed).run (earlier ++ later)
    c.stats.transactionsStarted =
        c.stats.transactionsCommitted + c.stats.transactionsAborted +
          c.sessions.countP Session.inTransaction ∧
      c.stats.sessionsStarted = c.sessions.length ∧
      c.stats.sessionsEnded = c.sessions.countP Session.ended ∧
      c.stats.sessionsEnded ≤ c.stats.endCalls ∧
      (∀ id s, c.session? id = some s → s.ended = true →
        ∃ s', c'.session? id = some s' ∧ s'.ended = true ∧ s'.transaction = none) ∧
      (∀ id s, c.session? id = some s → s.buffered ≠ ∅ →
        s.inTransaction = true ∧ s.ended = false) ∧
      ∀ id e s', c.inTransaction id = false → (c.after e).session? id = some s' →
        s'.buffered = ∅ := by
  intro c c'
  have hbalanced : Balanced c.stats.lifecycle c.sessions :=
    run_keeps (P := fun c => Balanced c.stats.lifecycle c.sessions)
      (fun c e => (c.moves_after e).balanced) ⟨rfl, rfl, rfl, Nat.le_refl _⟩ earlier
  have hclosed (events : List Event) := run_keeps
    (P := fun c => ∀ id s, c.session? id = some s → s.ended = true → s.transaction = none)
    (fun c e => (c.moves_after e).closed) (valid_fresh autoCreate seed).ended events
  refine ⟨hbalanced.transactions, hbalanced.started, hbalanced.ended, hbalanced.calls,
    fun id s hs hended => ?_, fun id s hs hbuffered => ?_,
    fun id e s' hnone hs' => (c.moves_after e).buffered hnone hs'⟩
  · have hnow : c.ended? id = some true := by rw [ended?, hs, Option.map_some, hended]
    have hlater : c'.ended? id = some true := by
      rw [show c' = c.run later from run_append _ earlier later]
      exact run_keeps (P := fun c => c.ended? id = some true)
        (fun c e => (c.moves_after e).ended) hnow later
    obtain ⟨s', hs', hended'⟩ := Option.map_eq_some_iff.1 hlater
    exact ⟨s', hs', hended', hclosed (earlier ++ later) id s' hs' hended'⟩
  · cases ht : s.transaction with
    | none =>
      rw [Session.buffered, ht] at hbuffered
      exact absurd rfl hbuffered
    | some t =>
      refine ⟨by rw [Session.inTransaction, ht]; rfl, ?_⟩
      by_contra hended
      rw [hclosed earlier id s hs (by simpa using hended)] at ht
      cases ht

/-! ## Three sessions -/

/-- The first session commits at the second attempt and starts over, the commit of the second one is
refused because both have inserted the same entry, and the third one is ended twice. -/
def rivalRun : List Event :=
  [.startSession {}, .startSession {}, .startSession {},
    .startTransaction ⟨1⟩ {}, .startTransaction ⟨2⟩ {}, .startTransaction ⟨3⟩ {},
    .request (.session ⟨1⟩) (.documents { ns := ledger } (.insertOne (entry 1 10))),
    .request (.session ⟨2⟩) (.documents { ns := ledger } (.insertOne (entry 1 20))),
    .request (.session ⟨3⟩) (.documents { ns := ledger } (.insertOne (entry 3 30))),
    .arm .commit 1, .commitTransaction ⟨1⟩, .commitTransaction ⟨1⟩, .commitTransaction ⟨2⟩,
    .endSession ⟨3⟩, .endSession ⟨3⟩,
    .startTransaction ⟨1⟩ {},
    .request (.session ⟨1⟩) (.documents { ns := ledger } (.insertOne (entry 4 40)))]

def rivals : Client := (fresh true 0).run rivalRun

theorem run_conserves_rivalRun :
    let later : List Event := [.startTransaction ⟨3⟩ {}]
    rivals.stats.transactionsStarted = 4 ∧ rivals.stats.transactionsCommitted = 1 ∧
      rivals.stats.transactionsAborted = 2 ∧ rivals.sessions.countP Session.inTransaction = 1 ∧
      rivals.stats.endCalls = 2 ∧ rivals.sessions.countP Session.ended = 1 ∧
      (∃ s', ((fresh true 0).run (rivalRun ++ later)).session? ⟨3⟩ = some s' ∧ s'.ended = true ∧
        s'.transaction = none) ∧
      (∃ s, rivals.session? ⟨1⟩ = some s ∧ s.buffered ≠ ∅ ∧ s.inTransaction = true) ∧
      ∃ s', (rivals.after (.startTransaction ⟨2⟩ {})).session? ⟨2⟩ = some s' ∧
        s'.inTransaction = true ∧ s'.buffered = ∅ := by
  intro later
  obtain ⟨htransactions, -, hended, -, hlater, hbuffered, hopened⟩ :=
    run_conserves true 0 rivalRun later
  rw [← rivals] at htransactions hended hlater hbuffered hopened
  have hstarted : rivals.stats.transactionsStarted = 4 := by decide +kernel
  have hcommitted : rivals.stats.transactionsCommitted = 1 := by decide +kernel
  have haborted : rivals.stats.transactionsAborted = 2 := by decide +kernel
  have hends : rivals.stats.sessionsEnded = 1 := by decide +kernel
  have hthird : rivals.session? ⟨3⟩ = some { ended := true } := by decide +kernel
  have hidle : rivals.inTransaction ⟨2⟩ = false := by decide +kernel
  have hwrites : ((rivals.session? ⟨1⟩).getD {}).buffered ≠ ∅ := by decide +kernel
  refine ⟨hstarted, hcommitted, haborted, by omega, by decide +kernel, by omega,
    hlater ⟨3⟩ _ hthird rfl, ⟨_, rfl, hwrites, (hbuffered ⟨1⟩ _ rfl hwrites).1⟩, ?_⟩
  exact ⟨_, rfl, rfl, hopened ⟨2⟩ (.startTransaction ⟨2⟩ {}) _ hidle rfl⟩

end Client

end ScopedStore
