import ScopedStore.Proofs.Client.Frame

/-!
# Lifetimes of sessions

A session starts and ends; requests and the transactions in between leave it running (`Client.Lasts`).
Where no session is ended twice, the calls that end sessions are as many as the sessions that have ended
(`Client.EndsOnce`). A session for a lease is started together with its transaction, or is ended at once
(`Client.openSession`).
-/

namespace ScopedStore

/-- What a client has counted of its sessions and transactions, without its operations. -/
def Statistics.lifecycle (s : Statistics) : Statistics :=
  { s with plainOperations := 0, sessionOperations := 0 }

namespace Client

def ended? (c : Client) (id : SessionId) : Option Bool := (c.session? id).map Session.ended

/-- Every session that has ended was ended once and has no transaction. -/
structure EndsOnce (c : Client) : Prop where
  closed : ∀ id s, c.session? id = some s → s.ended = true → s.transaction = none
  counted : c.stats.endCalls = c.sessions.countP Session.ended

/-- No session starts or ends. -/
structure Lasts (c c' : Client) : Prop where
  ended : ∀ id, c'.ended? id = c.ended? id
  once : c.EndsOnce → c'.EndsOnce

/-- Starts a session with a transaction; a session on which none can be opened is ended. -/
def openSession (c : Client) (session : SessionOptions) (transaction : TransactionOptions) :
    Except StoreError SessionId × Client :=
  match c.startSession session with
  | (.error e, c) => (.error e, c)
  | (.ok id, c) =>
    match c.startTransaction id transaction with
    | (.error e, c) => (.error e, c.endSession id)
    | (.ok (), c) => (.ok id, c)

variable {c c' c'' : Client} {id : SessionId} {s s' : Session}

theorem ended?_of_eq (h : c'.sessions = c.sessions) (id : SessionId) : c'.ended? id = c.ended? id := by
  unfold ended?
  rw [session?_of_eq h]

/-! ## Replacing a session -/

section Replacing

variable (hs : c.session? id = some s) (hsessions : c'.sessions = (c.setSession id s').sessions)

include hs hsessions

theorem ended?_of_set (id' : SessionId) :
    c'.ended? id' = if id' = id then some s'.ended else c.ended? id' := by
  unfold ended?
  rw [session?_of_eq hsessions]
  split
  · rename_i hid
    rw [hid, session?_setSession_self hs, Option.map_some]
  · rename_i hid
    rw [session?_setSession_of_ne (number_ne_zero hs) hid]

theorem countP_of_set (p : Session → Bool) :
    c'.sessions.countP p + (p s).toNat = c.sessions.countP p + (p s').toNat := by
  have hplace := hs
  rw [session?, if_neg (number_ne_zero hs)] at hplace
  obtain ⟨hlt, hget⟩ := List.getElem?_eq_some_iff.1 hplace
  have hite (b : Bool) : (if b = true then 1 else 0) = b.toNat := by cases b <;> rfl
  have hle := List.boole_getElem_le_countP (p := p) (l := c.sessions) hlt
  rw [hget, hite] at hle
  rw [hsessions, setSession, List.countP_set hlt, hget, hite, hite]
  omega

theorem EndsOnce.set (h : c.EndsOnce) (hclosed : s'.ended = true → s'.transaction = none)
    (hcalls : c'.stats.endCalls + s.ended.toNat = c.stats.endCalls + s'.ended.toNat) :
    c'.EndsOnce := by
  have hcount := countP_of_set hs hsessions Session.ended
  refine ⟨fun id' s₁ hs₁ hended => ?_, ?_⟩
  · rw [session?_of_eq hsessions] at hs₁
    rcases session?_setSession hs s' hs₁ with ⟨-, rfl⟩ | ⟨-, hs₁⟩
    · exact hclosed hended
    · exact h.closed id' s₁ hs₁ hended
  · have hcounted := h.counted
    omega

theorem Lasts.of_set (hended : s'.ended = s.ended)
    (hclosed : c.EndsOnce → s'.ended = true → s'.transaction = none)
    (hcalls : c'.stats.endCalls = c.stats.endCalls) : Lasts c c' := by
  refine ⟨fun id' => ?_, fun h => h.set hs hsessions (hclosed h) (by rw [hcalls, hended])⟩
  rw [ended?_of_set hs hsessions]
  split
  · rename_i hid
    rw [hid, hended, ended?, hs, Option.map_some]
  · rfl

end Replacing

theorem Lasts.of_eq (hsessions : c'.sessions = c.sessions)
    (hcalls : c'.stats.endCalls = c.stats.endCalls) : Lasts c c' := by
  refine ⟨ended?_of_eq hsessions, fun h => ⟨fun id s hs => ?_, by rw [hcalls, hsessions, h.counted]⟩⟩
  rw [session?_of_eq hsessions] at hs
  exact h.closed id s hs

theorem Lasts.trans (h : Lasts c c') (h' : Lasts c' c'') : Lasts c c'' :=
  ⟨fun id => (h'.ended id).trans (h.ended id), fun hc => h'.once (h.once hc)⟩

/-! ## Appending a session -/

section Appending

variable (hsessions : c'.sessions = c.sessions ++ [s])

include hsessions

theorem ended?_of_append (id : SessionId) :
    c'.ended? id = if id = ⟨c.sessions.length + 1⟩ then some s.ended else c.ended? id := by
  obtain ⟨n⟩ := id
  unfold ended? session?
  rw [hsessions]
  by_cases hnumber : n = 0
  · simp [hnumber]
  · dsimp only
    rw [if_neg hnumber, if_neg hnumber]
    by_cases hnew : n = c.sessions.length + 1
    · simp [hnew]
    · rw [if_neg fun heq => hnew (congrArg SessionId.number heq)]
      by_cases hlt : n - 1 < c.sessions.length
      · rw [List.getElem?_append_left hlt]
      · rw [List.getElem?_eq_none (by rw [List.length_append, List.length_singleton]; omega),
          List.getElem?_eq_none (by omega)]

theorem EndsOnce.append (h : c.EndsOnce) (hrunning : s.ended = false)
    (hcalls : c'.stats.endCalls = c.stats.endCalls) : c'.EndsOnce := by
  refine ⟨fun id s₁ hs₁ hended => ?_, ?_⟩
  · rcases session?_of_append hsessions hs₁ with hs₁ | rfl
    · exact h.closed id s₁ hs₁ hended
    · rw [hrunning] at hended
      cases hended
  · rw [hcalls, hsessions, List.countP_append, List.countP_singleton, hrunning, h.counted]
    rfl

end Appending

theorem endsOnce_of_sessions_nil {c : Client} (hnone : c.sessions = [])
    (hcalls : c.stats.endCalls = 0) : c.EndsOnce := by
  refine ⟨fun id s hs => ?_, by rw [hcalls, hnone, List.countP_nil]⟩
  rw [session?, hnone] at hs
  split at hs <;> cases hs

/-! ## Requests -/

@[simp] theorem countOperation_lifecycle (c : Client) (caller : Caller) :
    (c.countOperation caller).stats.lifecycle = c.stats.lifecycle := by
  cases caller <;> rfl

theorem runDirect_stats (c : Client) (h : Handle) (op : DocumentOp) :
    (c.runDirect h op).2.stats = c.stats := by
  unfold runDirect
  split
  · rfl
  · dsimp only
    split <;> rfl

theorem runBuffered_stats (c : Client) (id : SessionId) (s : Session) (t : OpenTransaction)
    (h : Handle) (op : DocumentOp) : (c.runBuffered id s t h op).2.stats = c.stats := by
  unfold runBuffered
  split
  · rfl
  · dsimp only
    split <;> rfl

theorem perform_lifecycle (c : Client) (caller : Caller) (r : Request) :
    (c.perform caller r).2.stats.lifecycle = c.stats.lifecycle := by
  have hcommand {name : String} {inTransaction : Bool}
      {act : Client → Except StoreError Reply × Client}
      (hact : (act (c.countOperation caller)).2.stats = (c.countOperation caller).stats) :
      (c.command caller name inTransaction act).2.stats.lifecycle = c.stats.lifecycle := by
    rcases c.command_cases caller name inTransaction act with h | h
    · rw [h]
    · rw [h, hact, countOperation_lifecycle]
  have htake (outcome : Except StoreError Catalog) :
      ((c.countOperation caller).takeCatalog outcome).2.stats = (c.countOperation caller).stats := by
    cases outcome <;> rfl
  cases r with
  | documents h op =>
    show (c.runDocuments caller h op).2.stats.lifecycle = _
    unfold runDocuments
    split
    · rfl
    · dsimp only
      split
      · exact countOperation_lifecycle c caller
      · split
        · rw [runBuffered_stats, countOperation_lifecycle]
        · rw [runDirect_stats, countOperation_lifecycle]
  | createIndex ns i =>
    show (c.createIndex caller ns i).2.stats.lifecycle = _
    unfold createIndex
    split
    · rfl
    · dsimp only
      split
      · exact countOperation_lifecycle c caller
      · split <;> exact countOperation_lifecycle c caller
  | dropIndex ns name =>
    refine hcommand ?_
    unfold dropIndex
    split
    · rfl
    · split <;> rfl
  | listIndexes ns | listDatabases | listCollections database => exact hcommand rfl
  | dropDatabase name | createCollection ns | dropCollection ns | renameCollection source name =>
    exact hcommand (htake _)

theorem lasts_perform (c : Client) (caller : Caller) (r : Request) :
    Lasts c (c.perform caller r).2 := by
  have hcalls := congrArg Statistics.endCalls (c.perform_lifecycle caller r)
  cases r with
  | documents h op =>
    rcases runDocuments_cases (Prod.eta (c.runDocuments caller h op)).symm with
      ⟨-, hsessions, -⟩ | ⟨-, hrun⟩ | ⟨id, s, t, hopen, hrun⟩
    · exact .of_eq hsessions hcalls
    · have hsessions := (runDirect_cases hrun).1
      rw [countOperation_sessions] at hsessions
      exact .of_eq hsessions hcalls
    · obtain ⟨-, ⟨hsessions, -⟩ | ⟨reply, v, -, -, hsessions⟩⟩ := runBuffered_cases hrun
      · rw [countOperation_sessions] at hsessions
        exact .of_eq hsessions hcalls
      · rw [setSession, countOperation_sessions] at hsessions
        obtain ⟨-, hs, hended, -⟩ := transactionOf?_eq_some_iff.1 hopen
        refine .of_set hs hsessions rfl (fun _ hended' => ?_) hcalls
        rw [Session.buffer, hended] at hended'
        cases hended'
  | createIndex ns i =>
    exact .of_eq (createIndex_cases (Prod.eta (c.createIndex caller ns i)).symm).1 hcalls
  | _ =>
    refine .of_eq (c.perform_administration caller ?_ ?_).1 hcalls <;> exact fun _ _ => Request.noConfusion

/-! ## Transactions -/

theorem startTransaction_endCalls (c : Client) (id : SessionId) (options : TransactionOptions) :
    (c.startTransaction id options).2.stats.endCalls = c.stats.endCalls := by
  unfold startTransaction
  dsimp only
  split
  · rfl
  · split
    · rfl
    · rw [takeFault_eq]
      cases decide (c.faults.armed .transactionStart ≠ 0) <;> rfl

theorem commitTransaction_endCalls (c : Client) (id : SessionId) :
    (c.commitTransaction id).2.stats.endCalls = c.stats.endCalls := by
  unfold commitTransaction
  dsimp only
  split
  · rfl
  · rw [takeFault_eq]
    cases decide (c.faults.armed .commit ≠ 0)
    · dsimp only
      split <;> rfl
    · rfl

theorem abortTransaction_endCalls (c : Client) (id : SessionId) :
    (c.abortTransaction id).2.stats.endCalls = c.stats.endCalls := by
  unfold abortTransaction
  dsimp only
  split
  · rfl
  · rw [takeFault_eq]
    cases decide (c.faults.armed .abort ≠ 0) <;> rfl

theorem endSession_endCalls (c : Client) (id : SessionId) :
    (c.endSession id).stats.endCalls = c.stats.endCalls + 1 := by
  unfold endSession
  dsimp only
  split <;> rfl

theorem lasts_startTransaction (hs : c.session? id = some s) (options : TransactionOptions) :
    Lasts c (c.startTransaction id options).2 := by
  have hcalls := c.startTransaction_endCalls id options
  obtain ⟨-, hsessions | ⟨hended, options', hsessions⟩⟩ := startTransaction_cases hs options
  · exact .of_eq hsessions hcalls
  · refine .of_set hs hsessions rfl (fun _ hended' => ?_) hcalls
    rw [hended] at hended'
    cases hended'

theorem lasts_commitTransaction (hs : c.session? id = some s) :
    Lasts c (c.commitTransaction id).2 := by
  have hcalls := c.commitTransaction_endCalls id
  cases ht : s.transaction with
  | none =>
    rw [commitTransaction_of_none hs ht]
    exact .of_eq rfl rfl
  | some t =>
    by_cases harmed : c.faults.commits = 0
    · obtain ⟨-, -, hsessions, -⟩ := commitTransaction_of_unarmed hs ht harmed
      exact .of_set hs hsessions rfl (fun _ _ => rfl) hcalls
    · exact .of_eq (commitTransaction_of_armed hs ht harmed).2.2 hcalls

theorem lasts_abortTransaction (hs : c.session? id = some s) : Lasts c (c.abortTransaction id).2 := by
  have hcalls := c.abortTransaction_endCalls id
  obtain ⟨-, hsessions | hsessions⟩ := abortTransaction_cases hs
  · exact .of_eq hsessions hcalls
  · exact .of_set hs hsessions rfl (fun _ _ => rfl) hcalls

/-! ## Starting and ending -/

theorem endSession_ends (hrunning : c.ended? id = some false) :
    (c.EndsOnce → (c.endSession id).EndsOnce) ∧
      ∀ id', (c.endSession id).ended? id' = if id' = id then some true else c.ended? id' := by
  obtain ⟨s, hs, hended⟩ := Option.map_eq_some_iff.1 hrunning
  obtain ⟨-, hsessions, -⟩ := endSession_eq hs
  refine ⟨fun h => h.set hs hsessions (fun _ => rfl) ?_, ended?_of_set hs hsessions⟩
  rw [endSession_endCalls, hended]
  rfl

theorem startSession_starts (c : Client) (options : SessionOptions) :
    (c.EndsOnce → (c.startSession options).2.EndsOnce) ∧
      ((∃ e, (c.startSession options).1 = .error e ∧ Lasts c (c.startSession options).2) ∨
        ∃ id, (c.startSession options).1 = .ok id ∧ c.ended? id = none ∧
          (c.startSession options).2.session? id = some { options := options } ∧
          ∀ id', (c.startSession options).2.ended? id' =
            if id' = id then some false else c.ended? id') := by
  obtain ⟨-, -, hnew⟩ := c.startSession_spares options
  let c₁ : Client := { c with faults := (c.faults.take .sessionStart).2 }
  have hfaults : Lasts c c₁ := .of_eq rfl rfl
  rw [startSession, takeFault_eq] at hnew ⊢
  cases harmed : decide (c.faults.armed .sessionStart ≠ 0) with
  | true => exact ⟨hfaults.once, .inl ⟨_, rfl, hfaults⟩⟩
  | false =>
    rw [harmed] at hnew
    obtain ⟨hs, hnone⟩ := hnew _ rfl
    refine ⟨fun h => (hfaults.once h).append rfl rfl rfl, .inr ⟨_, rfl, ?_, hs, fun id' => ?_⟩⟩
    · rw [ended?, hnone, Option.map_none]
    · refine ended?_of_append (c := c₁) (s := { options := options }) ?_ id'
      rfl

theorem openSession_opens (c : Client) (session : SessionOptions)
    (transaction : TransactionOptions) :
    (c.EndsOnce → (c.openSession session transaction).2.EndsOnce) ∧
      ((∃ e, (c.openSession session transaction).1 = .error e ∧
          ∀ id, (c.openSession session transaction).2.ended? id = c.ended? id ∨
            c.ended? id = none ∧ (c.openSession session transaction).2.ended? id = some true) ∨
        ∃ id, (c.openSession session transaction).1 = .ok id ∧ c.ended? id = none ∧
          ∀ id', (c.openSession session transaction).2.ended? id' =
            if id' = id then some false else c.ended? id') := by
  obtain ⟨honce, hstart⟩ := c.startSession_starts session
  unfold openSession
  generalize c.startSession session = started at *
  obtain ⟨outcome, c₁⟩ := started
  rcases hstart with ⟨e, rfl, hlasts⟩ | ⟨id, rfl, hnone, hs, hended⟩
  · exact ⟨honce, .inl ⟨e, rfl, fun id => .inl (hlasts.ended id)⟩⟩
  · have hlasts := lasts_startTransaction hs transaction
    dsimp only at honce hs hended hlasts ⊢
    generalize c₁.startTransaction id transaction = opened at *
    obtain ⟨outcome, c₂⟩ := opened
    have hended₂ (id' : SessionId) : c₂.ended? id' = if id' = id then some false else c.ended? id' :=
      (hlasts.ended id').trans (hended id')
    cases outcome with
    | error e =>
      obtain ⟨hends, hended₃⟩ := endSession_ends (c := c₂) (by rw [hended₂, if_pos rfl])
      refine ⟨fun h => hends (hlasts.once (honce h)), .inl ⟨e, rfl, fun id' => ?_⟩⟩
      dsimp only
      rw [hended₃, hended₂]
      by_cases hid : id' = id
      · rw [if_pos hid, hid]
        exact .inr ⟨hnone, rfl⟩
      · rw [if_neg hid, if_neg hid]
        exact .inl rfl
    | ok u => exact ⟨fun h => hlasts.once (honce h), .inr ⟨id, rfl, hnone, hended₂⟩⟩

end Client

end ScopedStore
