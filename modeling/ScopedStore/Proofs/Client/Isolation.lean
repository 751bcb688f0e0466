import ScopedStore.Proofs.Client.Commit

/-!
# Uncommitted work

What a session does to documents in an open transaction is seen by nobody else until the transaction
commits. A run is compared with the same run without these operations (`withoutDocuments`): the two
clients agree but for what the transaction has buffered (`Agree`), every other step gets the same answer
in both, and when the transaction has ended without committing nothing is left of the difference
(`uncommitted_unseen`).
-/

namespace ScopedStore

/-- A session as it is when its open transaction has buffered nothing. -/
def Session.unbuffered (s : Session) : Session :=
  { s with transaction := s.transaction.map fun t => { t with pending := ∅ } }

theorem Session.unbuffered_unbuffered (s : Session) : s.unbuffered.unbuffered = s.unbuffered := by
  unfold unbuffered
  cases s.transaction <;> rfl

theorem Session.unbuffered_of_closed {s : Session} (h : s.transaction = none) :
    s.unbuffered = s := by
  unfold unbuffered
  rw [h, Option.map_none, ← h]

theorem Session.unbuffered_buffer {s : Session} {t : OpenTransaction} (h : s.transaction = some t)
    (ns : Namespace) (changes : Changes) : (s.buffer t ns changes).unbuffered = s.unbuffered := by
  unfold unbuffered buffer
  rw [h]
  rfl

theorem Session.of_unbuffered_eq {s s' : Session} (h : s'.unbuffered = s.unbuffered) :
    s'.options = s.options ∧ s'.ended = s.ended ∧
      s'.transaction.isSome = s.transaction.isSome := by
  have hopen : s'.unbuffered.transaction.isSome = s.unbuffered.transaction.isSome := by rw [h]
  simp only [unbuffered, Option.isSome_map] at hopen
  have hoptions : s'.unbuffered.options = s.unbuffered.options := by rw [h]
  have hended : s'.unbuffered.ended = s.unbuffered.ended := by rw [h]
  exact ⟨hoptions, hended, hopen⟩

inductive Answer where
  | reply (outcome : Except StoreError Reply)
  | started (outcome : Except StoreError SessionId)
  | settled (outcome : Except StoreError Unit)
  | silent
deriving DecidableEq

/-- An event, and the seed of the identifiers that are made in it. -/
structure Seeded where
  seed : Nat
  event : Event

namespace Event

def UsesDocuments (id : SessionId) : Event → Prop
  | .request (.session id') (.documents _ _) => id' = id
  | _ => False

def MakesIndex (id : SessionId) : Event → Prop
  | .request (.session id') (.createIndex _ _) => id' = id
  | _ => False

def Commits (id : SessionId) : Event → Prop
  | .commitTransaction id' => id' = id
  | _ => False

instance (id : SessionId) (e : Event) : Decidable (e.UsesDocuments id) := by
  unfold UsesDocuments
  split <;> infer_instance

instance (id : SessionId) (e : Event) : Decidable (e.MakesIndex id) := by
  unfold MakesIndex
  split <;> infer_instance

instance (id : SessionId) (e : Event) : Decidable (e.Commits id) := by
  unfold Commits
  split <;> infer_instance

end Event

namespace Client

/-- What a client answers to an event; a session that was never started is not called. -/
def answer (c : Client) : Event → Answer
  | .request caller r => .reply (c.perform caller r).1
  | .startSession options => .started (c.startSession options).1
  | .startTransaction id options =>
    if (c.session? id).isSome then .settled (c.startTransaction id options).1 else .silent
  | .commitTransaction id =>
    if (c.session? id).isSome then .settled (c.commitTransaction id).1 else .silent
  | .abortTransaction id =>
    if (c.session? id).isSome then .settled (c.abortTransaction id).1 else .silent
  | .endSession _ | .arm _ _ | .reseed _ => .silent

def afterSeeded (c : Client) (e : Seeded) : Client := (c.after (.reseed e.seed)).after e.event

def answerSeeded (c : Client) (e : Seeded) : Answer := (c.after (.reseed e.seed)).answer e.event

/-- The events of a run up to the one that ends the session's open transaction, each with the client
that it finds. -/
def whileOpen (id : SessionId) (c : Client) : List Seeded → List (Client × Seeded)
  | [] => []
  | e :: rest =>
    if c.inTransaction id then (c, e) :: whileOpen id (c.afterSeeded e) rest else []

/-- The run without the operations on documents in the session's open transaction. -/
def withoutDocuments (id : SessionId) (c : Client) : List Seeded → List Seeded
  | [] => []
  | e :: rest =>
    if c.inTransaction id then
      if e.event.UsesDocuments id then withoutDocuments id (c.afterSeeded e) rest
      else e :: withoutDocuments id (c.afterSeeded e) rest
    else e :: rest

def runSeeded (c : Client) (run : List Seeded) : Client := run.foldl afterSeeded c

def answers (c : Client) : List Seeded → List (Seeded × Answer)
  | [] => []
  | e :: rest => (e, c.answerSeeded e) :: answers (c.afterSeeded e) rest

/-- The events of a run with their answers, but for operations on documents and commits in the session's
open transaction. -/
def answersBesides (id : SessionId) (c : Client) : List Seeded → List (Seeded × Answer)
  | [] => []
  | e :: rest =>
    if c.inTransaction id then
      if e.event.UsesDocuments id ∨ e.event.Commits id then answersBesides id (c.afterSeeded e) rest
      else (e, c.answerSeeded e) :: answersBesides id (c.afterSeeded e) rest
    else c.answers (e :: rest)

/-! ## Clients that agree -/

/-- The clients agree but for their statistics and seeds, and for what hidden sessions have buffered in
the first client; in the second they have buffered nothing. -/
structure Agree (hidden : SessionId → Prop) (c c' : Client) : Prop where
  catalog : c'.catalog = c.catalog
  autoCreate : c'.autoCreate = c.autoCreate
  faults : c'.faults = c.faults
  length : c'.sessions.length = c.sessions.length
  shown : ∀ id, ¬hidden id → c'.session? id = c.session? id
  muted : ∀ id, hidden id → c'.session? id = (c.session? id).map Session.unbuffered

variable {hidden : SessionId → Prop} {c c' d d' : Client}

theorem session?_append {s : Session} (h : d.sessions = c.sessions ++ [s]) (id : SessionId) :
    d.session? id = if id.number = c.sessions.length + 1 then some s else c.session? id := by
  unfold session?
  rw [h, List.getElem?_append]
  by_cases hzero : id.number = 0
  · rw [if_pos hzero, if_pos hzero, if_neg (by omega)]
  · rw [if_neg hzero, if_neg hzero]
    by_cases hnew : id.number = c.sessions.length + 1
    · rw [if_neg (by omega), if_pos hnew, hnew, Nat.add_sub_cancel, Nat.sub_self]
      rfl
    · rw [if_neg hnew]
      split
      · rfl
      · have hout : c.sessions.length ≤ id.number - 1 := by omega
        have hout' : [s].length ≤ id.number - 1 - c.sessions.length := by
          rw [List.length_singleton]
          omega
        rw [List.getElem?_eq_none hout, List.getElem?_eq_none hout']

/-- The caller works with no hidden session. -/
def InSight (hidden : SessionId → Prop) (caller : Caller) : Prop :=
  ∀ id, caller = .session id → ¬hidden id

theorem exists_openTransaction {id : SessionId} (h : c.inTransaction id = true) :
    ∃ s t, c.session? id = some s ∧ s.transaction = some t := by
  unfold inTransaction at h
  cases hs : c.session? id with
  | none =>
    rw [hs] at h
    cases h
  | some s =>
    rw [hs, Option.getD_some, Option.isSome_iff_exists] at h
    obtain ⟨t, ht⟩ := h
    exact ⟨s, t, rfl, ht⟩

namespace Agree

theorem of_eq (h : Agree hidden c c') (hcatalog : d'.catalog = d.catalog)
    (hcreate : d'.autoCreate = d.autoCreate) (hfaults : d'.faults = d.faults)
    (hsessions : d.sessions = c.sessions) (hsessions' : d'.sessions = c'.sessions) :
    Agree hidden d d' where
  catalog := hcatalog
  autoCreate := hcreate
  faults := hfaults
  length := by rw [hsessions, hsessions', h.length]
  shown id hid := by rw [session?_of_eq hsessions, session?_of_eq hsessions', h.shown id hid]
  muted id hid := by rw [session?_of_eq hsessions, session?_of_eq hsessions', h.muted id hid]

theorem countOperation (h : Agree hidden c c') (caller : Caller) :
    Agree hidden (c.countOperation caller) (c'.countOperation caller) := by
  refine h.of_eq ?_ ?_ ?_ (by simp) (by simp)
  · simpa using h.catalog
  · simpa using h.autoCreate
  · simpa using h.faults

theorem unbuffered (h : Agree hidden c c') (id : SessionId) :
    (c'.session? id).map Session.unbuffered = (c.session? id).map Session.unbuffered := by
  by_cases hid : hidden id
  · rw [h.muted id hid, Option.map_map]
    congr 1
    funext s
    exact s.unbuffered_unbuffered
  · rw [h.shown id hid]

theorem isSome_session? (h : Agree hidden c c') (id : SessionId) :
    (c'.session? id).isSome = (c.session? id).isSome := by
  have heq := congrArg Option.isSome (h.unbuffered id)
  simpa using heq

theorem exists_session (h : Agree hidden c c') {id : SessionId} {s : Session}
    (hs : c.session? id = some s) :
    ∃ s', c'.session? id = some s' ∧ s'.unbuffered = s.unbuffered := by
  have heq := h.unbuffered id
  rw [hs, Option.map_some, Option.map_eq_some_iff] at heq
  exact heq

theorem setSession (h : Agree hidden c c') {id : SessionId} {s₀ s₀' s s' : Session}
    (hs₀ : c.session? id = some s₀) (hs₀' : c'.session? id = some s₀')
    (hshown : ¬hidden id → s' = s) (hmuted : hidden id → s' = s.unbuffered)
    (hcatalog : d'.catalog = d.catalog) (hcreate : d'.autoCreate = d.autoCreate)
    (hfaults : d'.faults = d.faults) (hsessions : d.sessions = (c.setSession id s).sessions)
    (hsessions' : d'.sessions = (c'.setSession id s').sessions) : Agree hidden d d' where
  catalog := hcatalog
  autoCreate := hcreate
  faults := hfaults
  length := by
    rw [hsessions, hsessions', Client.setSession, Client.setSession, List.length_set,
      List.length_set, h.length]
  shown id' hid' := by
    rw [session?_of_eq hsessions, session?_of_eq hsessions']
    by_cases hid : id' = id
    · rw [hid, session?_setSession_self hs₀, session?_setSession_self hs₀', hshown (hid ▸ hid')]
    · have hnumber := number_ne_zero hs₀
      rw [session?_setSession_of_ne hnumber hid, session?_setSession_of_ne hnumber hid,
        h.shown id' hid']
  muted id' hid' := by
    rw [session?_of_eq hsessions, session?_of_eq hsessions']
    by_cases hid : id' = id
    · rw [hid, session?_setSession_self hs₀, session?_setSession_self hs₀', hmuted (hid ▸ hid'),
        Option.map_some]
    · have hnumber := number_ne_zero hs₀
      rw [session?_setSession_of_ne hnumber hid, session?_setSession_of_ne hnumber hid,
        h.muted id' hid']

theorem append (h : Agree hidden c c') {s : Session} (hs : s.unbuffered = s)
    (hcatalog : d'.catalog = d.catalog) (hcreate : d'.autoCreate = d.autoCreate)
    (hfaults : d'.faults = d.faults) (hsessions : d.sessions = c.sessions ++ [s])
    (hsessions' : d'.sessions = c'.sessions ++ [s]) : Agree hidden d d' where
  catalog := hcatalog
  autoCreate := hcreate
  faults := hfaults
  length := by rw [hsessions, hsessions', List.length_append, List.length_append, h.length]
  shown id hid := by
    rw [session?_append hsessions, session?_append hsessions', h.length]
    split
    · rfl
    · exact h.shown id hid
  muted id hid := by
    rw [session?_append hsessions, session?_append hsessions', h.length]
    split
    · rw [Option.map_some, hs]
    · exact h.muted id hid

/-! ## Requests -/

theorem lock (h : Agree hidden c c') {caller : Caller} (hcaller : InSight hidden caller) :
    c'.lock caller = c.lock caller := by
  cases caller with
  | plain | stranger => rfl
  | session id => rw [Client.lock, Client.lock, h.shown id (hcaller id rfl)]

theorem runOn (h : Agree hidden c c') (hseed : c'.seed = c.seed) (handle : Handle)
    (writes : Writes) (op : DocumentOp) :
    c'.runOn handle writes op = c.runOn handle writes op := by
  unfold Client.runOn
  rw [h.catalog, hseed]

theorem runDirect (h : Agree hidden c c') (hseed : c'.seed = c.seed) (handle : Handle)
    (op : DocumentOp) :
    (c'.runDirect handle op).1 = (c.runDirect handle op).1 ∧
      Agree hidden (c.runDirect handle op).2 (c'.runDirect handle op).2 := by
  unfold Client.runDirect
  rw [h.runOn hseed]
  cases c.runOn handle ∅ op with
  | error e => exact ⟨rfl, h⟩
  | ok found =>
    obtain ⟨reply, v⟩ := found
    dsimp only
    rw [h.catalog, h.autoCreate]
    cases c.catalog.applyChanges handle.ns v.changes c.autoCreate with
    | error e => exact ⟨rfl, h.of_eq rfl rfl h.faults rfl rfl⟩
    | ok cat => exact ⟨rfl, h.of_eq rfl rfl h.faults rfl rfl⟩

theorem runBuffered (h : Agree hidden c c') (hseed : c'.seed = c.seed) {id : SessionId}
    (hid : ¬hidden id) {s : Session} (hs : c.session? id = some s) (t : OpenTransaction)
    (handle : Handle) (op : DocumentOp) :
    (c'.runBuffered id s t handle op).1 = (c.runBuffered id s t handle op).1 ∧
      Agree hidden (c.runBuffered id s t handle op).2 (c'.runBuffered id s t handle op).2 := by
  unfold Client.runBuffered
  rw [h.runOn hseed]
  cases c.runOn handle (t.pending.writesOf handle.ns) op with
  | error e => exact ⟨rfl, h⟩
  | ok found =>
    obtain ⟨reply, v⟩ := found
    dsimp only
    rw [h.catalog, h.autoCreate]
    split
    · exact ⟨rfl, h.of_eq rfl rfl h.faults rfl rfl⟩
    · have hs' := (h.shown id hid).trans hs
      exact ⟨rfl, h.setSession hs hs' (fun _ => rfl) (absurd · hid) rfl rfl h.faults rfl rfl⟩

theorem runDocuments (h : Agree hidden c c') (hseed : c'.seed = c.seed) {caller : Caller}
    (hcaller : InSight hidden caller) (handle : Handle) (op : DocumentOp) :
    (c'.runDocuments caller handle op).1 = (c.runDocuments caller handle op).1 ∧
      Agree hidden (c.runDocuments caller handle op).2 (c'.runDocuments caller handle op).2 := by
  have hcount := h.countOperation caller
  have hseed' : (c'.countOperation caller).seed = (c.countOperation caller).seed := by
    simpa using hseed
  unfold Client.runDocuments
  cases op.check with
  | error e => exact ⟨rfl, h⟩
  | ok u =>
    dsimp only
    rw [hcount.lock hcaller]
    cases hlock : (c.countOperation caller).lock caller with
    | error e => exact ⟨rfl, hcount⟩
    | ok locked =>
      dsimp only
      cases hopen : openTransaction locked with
      | none => exact hcount.runDirect hseed' handle op
      | some found =>
        obtain ⟨id, s, t⟩ := found
        have hfound : (c.countOperation caller).transactionOf? caller = some (id, s, t) := by
          rw [transactionOf?, hlock]
          exact hopen
        obtain ⟨hid, hs, -, -⟩ := transactionOf?_eq_some_iff.1 hfound
        exact hcount.runBuffered hseed' (hcaller id hid) hs t handle op

theorem createIndex (h : Agree hidden c c') {caller : Caller} (hcaller : InSight hidden caller)
    (ns : Namespace) (i : Index) :
    (c'.createIndex caller ns i).1 = (c.createIndex caller ns i).1 ∧
      Agree hidden (c.createIndex caller ns i).2 (c'.createIndex caller ns i).2 := by
  have hcount := h.countOperation caller
  unfold Client.createIndex
  rw [h.lock hcaller]
  cases c.lock caller with
  | error e => exact ⟨rfl, h⟩
  | ok locked =>
    dsimp only
    rw [hcount.catalog]
    split
    · exact ⟨rfl, hcount⟩
    · split
      · exact ⟨rfl, hcount.of_eq rfl hcount.autoCreate hcount.faults rfl rfl⟩
      · exact ⟨rfl, hcount.of_eq rfl hcount.autoCreate hcount.faults rfl rfl⟩

theorem checkCommand (h : Agree hidden c c') (caller : Caller) (name : String)
    (inTransaction : Bool) :
    c'.checkCommand caller name inTransaction = c.checkCommand caller name inTransaction := by
  cases caller with
  | plain | stranger => rfl
  | session id =>
    unfold Client.checkCommand Client.lock
    dsimp only
    cases hs : c.session? id with
    | none =>
      have hnone := h.unbuffered id
      rw [hs, Option.map_none, Option.map_eq_none_iff] at hnone
      rw [hnone]
    | some s =>
      obtain ⟨s', hs', heq⟩ := h.exists_session hs
      obtain ⟨-, hended, hopen⟩ := Session.of_unbuffered_eq heq
      rw [hs']
      dsimp only
      rw [hended]
      cases s.ended with
      | true => rfl
      | false =>
        simp only [Bool.false_eq_true, if_false, ok_bind, openTransaction, Option.bind_some,
          Option.isSome_map, hopen]

theorem command (h : Agree hidden c c') (caller : Caller) (name : String) (inTransaction : Bool)
    {act : Client → Except StoreError Reply × Client}
    (hact : ∀ d d', Agree hidden d d' → (act d').1 = (act d).1 ∧ Agree hidden (act d).2 (act d').2) :
    (c'.command caller name inTransaction act).1 = (c.command caller name inTransaction act).1 ∧
      Agree hidden (c.command caller name inTransaction act).2
        (c'.command caller name inTransaction act).2 := by
  unfold Client.command
  rw [h.checkCommand]
  cases c.checkCommand caller name inTransaction with
  | error e => exact ⟨rfl, h⟩
  | ok u => exact hact _ _ (h.countOperation caller)

theorem read (h : Agree hidden c c') (caller : Caller) (name : String) (inTransaction : Bool)
    {reply : Client → Except StoreError Reply}
    (hreply : ∀ d d', Agree hidden d d' → reply d' = reply d) :
    (c'.command caller name inTransaction fun c => (reply c, c)).1 =
        (c.command caller name inTransaction fun c => (reply c, c)).1 ∧
      Agree hidden (c.command caller name inTransaction fun c => (reply c, c)).2
        (c'.command caller name inTransaction fun c => (reply c, c)).2 :=
  h.command caller name inTransaction fun d d' hd => ⟨hreply d d' hd, hd⟩

theorem administer (h : Agree hidden c c') (caller : Caller) (name : String) (inTransaction : Bool)
    (change : Catalog → Except StoreError Catalog) :
    (c'.command caller name inTransaction fun c => c.takeCatalog (change c.catalog)).1 =
        (c.command caller name inTransaction fun c => c.takeCatalog (change c.catalog)).1 ∧
      Agree hidden (c.command caller name inTransaction fun c => c.takeCatalog (change c.catalog)).2
        (c'.command caller name inTransaction fun c => c.takeCatalog (change c.catalog)).2 := by
  refine h.command caller name inTransaction fun d d' hd => ?_
  rw [hd.catalog]
  cases change d.catalog with
  | error e => exact ⟨rfl, hd⟩
  | ok cat => exact ⟨rfl, hd.of_eq rfl hd.autoCreate hd.faults rfl rfl⟩

theorem dropIndex (h : Agree hidden c c') (ns : Namespace) (name : String) :
    (c'.dropIndex ns name).1 = (c.dropIndex ns name).1 ∧
      Agree hidden (c.dropIndex ns name).2 (c'.dropIndex ns name).2 := by
  unfold Client.dropIndex
  rw [h.catalog]
  cases c.catalog.collection? ns with
  | none => exact ⟨rfl, h⟩
  | some collection =>
    dsimp only
    cases collection.removeIndex name with
    | error e => exact ⟨rfl, h⟩
    | ok collection => exact ⟨rfl, h.of_eq rfl h.autoCreate h.faults rfl rfl⟩

/-- A request gets the same reply from both, unless a hidden session uses documents or makes an
index. -/
theorem perform (h : Agree hidden c c') (hseed : c'.seed = c.seed) (caller : Caller) {r : Request}
    (hsight : (∃ handle op, r = .documents handle op) ∨ (∃ ns i, r = .createIndex ns i) →
      InSight hidden caller) :
    (c'.perform caller r).1 = (c.perform caller r).1 ∧
      Agree hidden (c.perform caller r).2 (c'.perform caller r).2 := by
  cases r with
  | documents handle op => exact h.runDocuments hseed (hsight (.inl ⟨_, _, rfl⟩)) handle op
  | createIndex ns i => exact h.createIndex (hsight (.inr ⟨_, _, rfl⟩)) ns i
  | dropIndex ns name => exact h.command _ _ _ fun d d' hd => hd.dropIndex ns name
  | listIndexes ns =>
    refine h.read _ _ _ fun d d' hd => ?_
    rw [Client.listIndexes, Client.listIndexes, hd.catalog]
  | listDatabases => exact h.read _ _ _ fun d d' hd => by rw [hd.catalog]
  | listCollections database => exact h.read _ _ _ fun d d' hd => by rw [hd.catalog]
  | dropDatabase name => exact h.administer _ _ _ fun cat => .ok (cat.dropDatabase name)
  | createCollection ns => exact h.administer _ _ _ fun cat => cat.createCollection ns
  | dropCollection ns => exact h.administer _ _ _ fun cat => .ok (cat.dropCollection ns)
  | renameCollection source name =>
    exact h.administer _ _ _ fun cat => cat.renameCollection source name

/-! ## Sessions -/

theorem startSession (h : Agree hidden c c') (options : SessionOptions) :
    (c'.startSession options).1 = (c.startSession options).1 ∧
      Agree hidden (c.startSession options).2 (c'.startSession options).2 := by
  unfold Client.startSession
  rw [takeFault_eq, takeFault_eq, h.faults]
  cases decide (c.faults.armed .sessionStart ≠ 0) with
  | true => exact ⟨rfl, h.of_eq h.catalog h.autoCreate rfl rfl rfl⟩
  | false =>
    dsimp only
    exact ⟨by rw [h.length], h.append rfl h.catalog h.autoCreate rfl rfl rfl⟩

theorem startTransaction (h : Agree hidden c c') {id : SessionId} {s : Session}
    (hs : c.session? id = some s) (options : TransactionOptions) :
    (c'.startTransaction id options).1 = (c.startTransaction id options).1 ∧
      Agree hidden (c.startTransaction id options).2 (c'.startTransaction id options).2 := by
  obtain ⟨s', hs', heq⟩ := h.exists_session hs
  obtain ⟨hoptions, hended, hopen⟩ := Session.of_unbuffered_eq heq
  unfold Client.startTransaction
  rw [getD_session? hs, getD_session? hs']
  dsimp only
  rw [hended, hopen, hoptions, takeFault_eq, takeFault_eq, h.faults]
  split
  · exact ⟨rfl, h⟩
  · split
    · exact ⟨rfl, h⟩
    · cases decide (c.faults.armed .transactionStart ≠ 0) with
      | true => exact ⟨rfl, h.of_eq h.catalog h.autoCreate rfl rfl rfl⟩
      | false =>
        exact ⟨rfl, h.setSession hs hs' (fun _ => rfl) (fun _ => rfl) h.catalog h.autoCreate rfl rfl
          rfl⟩

theorem abortTransaction (h : Agree hidden c c') {id : SessionId} {s : Session}
    (hs : c.session? id = some s) :
    (c'.abortTransaction id).1 = (c.abortTransaction id).1 ∧
      Agree hidden (c.abortTransaction id).2 (c'.abortTransaction id).2 := by
  obtain ⟨s', hs', heq⟩ := h.exists_session hs
  obtain ⟨hoptions, hended, hopen⟩ := Session.of_unbuffered_eq heq
  unfold Client.abortTransaction
  rw [getD_session? hs, getD_session? hs']
  dsimp only
  rw [hoptions, hended]
  cases ht : s.transaction with
  | none =>
    rw [ht, Option.isSome_none, Option.isSome_eq_false_iff, Option.isNone_iff_eq_none] at hopen
    rw [hopen]
    exact ⟨rfl, h⟩
  | some t =>
    rw [ht, Option.isSome_some, Option.isSome_iff_exists] at hopen
    obtain ⟨t', ht'⟩ := hopen
    rw [ht', takeFault_eq, takeFault_eq, h.faults]
    cases decide (c.faults.armed .abort ≠ 0) with
    | true => exact ⟨rfl, h.of_eq h.catalog h.autoCreate rfl rfl rfl⟩
    | false =>
      exact ⟨rfl, h.setSession hs hs' (fun _ => rfl) (fun _ => rfl) h.catalog h.autoCreate rfl rfl
        rfl⟩

theorem endSession (h : Agree hidden c c') {id : SessionId} {s : Session}
    (hs : c.session? id = some s) : Agree hidden (c.endSession id) (c'.endSession id) := by
  obtain ⟨s', hs', heq⟩ := h.exists_session hs
  obtain ⟨hoptions, -, hopen⟩ := Session.of_unbuffered_eq heq
  unfold Client.endSession
  rw [getD_session? hs, getD_session? hs']
  dsimp only
  rw [hoptions, hopen]
  split
  · exact h.setSession hs hs' (fun _ => rfl) (fun _ => rfl) h.catalog h.autoCreate h.faults rfl rfl
  · exact h.setSession hs hs' (fun _ => rfl) (fun _ => rfl) h.catalog h.autoCreate h.faults rfl rfl

theorem commitTransaction (h : Agree hidden c c') {id : SessionId} (hid : ¬hidden id) {s : Session}
    (hs : c.session? id = some s) :
    (c'.commitTransaction id).1 = (c.commitTransaction id).1 ∧
      Agree hidden (c.commitTransaction id).2 (c'.commitTransaction id).2 := by
  have hs' := (h.shown id hid).trans hs
  unfold Client.commitTransaction
  rw [getD_session? hs, getD_session? hs']
  dsimp only
  cases s.transaction with
  | none => exact ⟨rfl, h⟩
  | some t =>
    dsimp only
    rw [takeFault_eq, takeFault_eq, h.faults]
    cases decide (c.faults.armed .commit ≠ 0) with
    | true => exact ⟨rfl, h.of_eq h.catalog h.autoCreate rfl rfl rfl⟩
    | false =>
      dsimp only [Client.setSession]
      rw [h.catalog, h.autoCreate]
      obtain ⟨outcome, catalog⟩ := c.catalog.commit c.autoCreate t.pending
      cases outcome <;>
        exact ⟨rfl, h.setSession hs hs' (fun _ => rfl) (fun _ => rfl) rfl rfl rfl rfl rfl⟩

/-! ## Events -/

theorem onSession (h : Agree hidden c c') {id : SessionId}
    (call : Client → Except StoreError Unit × Client)
    (hcall : ∀ s, c.session? id = some s →
      (call c').1 = (call c).1 ∧ Agree hidden (call c).2 (call c').2) :
    (if (c'.session? id).isSome then Answer.settled (call c').1 else .silent) =
        (if (c.session? id).isSome then Answer.settled (call c).1 else .silent) ∧
      Agree hidden (c.onSession id fun c => (call c).2) (c'.onSession id fun c => (call c).2) := by
  unfold Client.onSession
  rw [h.isSome_session?]
  cases hs : c.session? id with
  | none => exact ⟨rfl, h⟩
  | some s =>
    obtain ⟨houtcome, hafter⟩ := hcall s hs
    exact ⟨congrArg Answer.settled houtcome, hafter⟩

/-- An event gets the same answer from both, unless a hidden session uses documents, makes an index or
commits. -/
theorem after (h : Agree hidden c c') (hseed : c'.seed = c.seed) {e : Event}
    (hsight : ∀ id, hidden id → ¬e.UsesDocuments id ∧ ¬e.MakesIndex id ∧ ¬e.Commits id) :
    c'.answer e = c.answer e ∧ Agree hidden (c.after e) (c'.after e) := by
  cases e with
  | request caller r =>
    obtain ⟨houtcome, hafter⟩ := h.perform hseed caller (r := r) fun hr id hid hidden => by
      obtain ⟨huses, hmakes, -⟩ := hsight id hidden
      rcases hr with ⟨handle, op, rfl⟩ | ⟨ns, i, rfl⟩
      · exact huses (by rw [hid]; rfl)
      · exact hmakes (by rw [hid]; rfl)
    exact ⟨congrArg Answer.reply houtcome, hafter⟩
  | startSession options =>
    obtain ⟨houtcome, hafter⟩ := h.startSession options
    exact ⟨congrArg Answer.started houtcome, hafter⟩
  | startTransaction id options =>
    exact h.onSession (fun c => c.startTransaction id options) fun s hs =>
      h.startTransaction hs options
  | commitTransaction id =>
    exact h.onSession (fun c => c.commitTransaction id) fun s hs =>
      h.commitTransaction (fun hid => (hsight id hid).2.2 rfl) hs
  | abortTransaction id =>
    exact h.onSession (fun c => c.abortTransaction id) fun s hs => h.abortTransaction hs
  | endSession id =>
    obtain ⟨-, hafter⟩ := h.onSession (fun c => (.ok (), c.endSession id)) fun s hs =>
      ⟨rfl, h.endSession hs⟩
    exact ⟨rfl, hafter⟩
  | arm kind n =>
    refine ⟨rfl, h.of_eq h.catalog h.autoCreate ?_ rfl rfl⟩
    rw [Client.after, Client.after, h.faults]
  | reseed seed => exact ⟨rfl, h.of_eq h.catalog h.autoCreate h.faults rfl rfl⟩

theorem afterSeeded (h : Agree hidden c c') {e : Seeded}
    (hsight : ∀ id, hidden id →
      ¬e.event.UsesDocuments id ∧ ¬e.event.MakesIndex id ∧ ¬e.event.Commits id) :
    c'.answerSeeded e = c.answerSeeded e ∧ Agree hidden (c.afterSeeded e) (c'.afterSeeded e) := by
  have hreseeded : Agree hidden (c.after (.reseed e.seed)) (c'.after (.reseed e.seed)) :=
    h.of_eq h.catalog h.autoCreate h.faults rfl rfl
  exact hreseeded.after rfl hsight

theorem answers (h : Agree (fun _ => False) c c') (run : List Seeded) :
    c'.answers run = c.answers run ∧ Agree (fun _ => False) (c.runSeeded run) (c'.runSeeded run) := by
  induction run generalizing c c' with
  | nil => exact ⟨rfl, h⟩
  | cons e rest ih =>
    obtain ⟨hanswer, hafter⟩ := h.afterSeeded (e := e) fun id hid => hid.elim
    obtain ⟨hanswers, hend⟩ := ih hafter
    refine ⟨?_, hend⟩
    rw [Client.answers, Client.answers, hanswer, hanswers]

/-! ## The hidden session -/

theorem update {id : SessionId} (h : Agree (· = id) c c') {s₀ s : Session}
    (hs₀ : c.session? id = some s₀) (hs : s.unbuffered = s₀.unbuffered)
    (hcatalog : c'.catalog = d.catalog) (hcreate : c'.autoCreate = d.autoCreate)
    (hfaults : c'.faults = d.faults) (hsessions : d.sessions = (c.setSession id s).sessions) :
    Agree (· = id) d c' where
  catalog := hcatalog
  autoCreate := hcreate
  faults := hfaults
  length := by rw [hsessions, Client.setSession, List.length_set, h.length]
  shown id' hid' := by
    rw [session?_of_eq hsessions, session?_setSession_of_ne (number_ne_zero hs₀) hid',
      h.shown id' hid']
  muted id' hid' := by
    rw [hid', session?_of_eq hsessions, session?_setSession_self hs₀, h.muted id rfl, hs₀,
      Option.map_some, Option.map_some, hs]

section Own

variable {id : SessionId} {s : Session} {t : OpenTransaction}

theorem inTransaction_eq (h : Agree hidden c c') (id : SessionId) :
    c'.inTransaction id = c.inTransaction id := by
  unfold Client.inTransaction
  cases hs : c.session? id with
  | none =>
    have hnone := h.unbuffered id
    rw [hs, Option.map_none, Option.map_eq_none_iff] at hnone
    rw [hnone]
  | some s =>
    obtain ⟨s', hs', heq⟩ := h.exists_session hs
    rw [hs']
    exact (Session.of_unbuffered_eq heq).2.2

theorem of_ended (h : Agree (· = id) c c') (hended : c.inTransaction id = false) :
    Agree (fun _ => False) c c' := by
  refine ⟨h.catalog, h.autoCreate, h.faults, h.length, fun id' _ => ?_, fun _ hid => hid.elim⟩
  by_cases hid : id' = id
  · rw [h.muted id' hid, hid]
    unfold Client.inTransaction at hended
    cases hs : c.session? id with
    | none => rfl
    | some s =>
      rw [hs, Option.getD_some, Option.isSome_eq_false_iff, Option.isNone_iff_eq_none] at hended
      rw [Option.map_some, Session.unbuffered_of_closed hended]
  · exact h.shown id' hid

/-- Operations on documents in the open transaction change nothing that is not hidden. -/
theorem documents (h : Agree (· = id) c c')
    (hopen : c.transactionOf? (.session id) = some (id, s, t)) (handle : Handle) (op : DocumentOp) :
    Agree (· = id) (c.runDocuments (.session id) handle op).2 c' := by
  cases hcheck : op.check with
  | error e =>
    unfold Client.runDocuments
    rw [hcheck]
    exact h
  | ok u =>
    rw [runDocuments_session hopen handle hcheck]
    obtain ⟨-, hs, -, ht⟩ := transactionOf?_eq_some_iff.1 hopen
    obtain ⟨hcatalog, hsessions⟩ := runBuffered_cases
      (Prod.eta ((c.countOperation (.session id)).runBuffered id s t handle op)).symm
    have hcreate := (c.countOperation (.session id)).runBuffered_autoCreate id s t handle op
    have hfaults := (c.countOperation (.session id)).runBuffered_faults id s t handle op
    generalize (c.countOperation (.session id)).runBuffered id s t handle op = after at *
    rw [countOperation_catalog] at hcatalog
    rw [countOperation_autoCreate] at hcreate
    rw [countOperation_faults] at hfaults
    have hcatalog' := h.catalog.trans hcatalog.symm
    have hcreate' := h.autoCreate.trans hcreate.symm
    have hfaults' := h.faults.trans hfaults.symm
    rcases hsessions with ⟨hsessions, -⟩ | ⟨reply, v, -, -, hsessions⟩
    · rw [countOperation_sessions] at hsessions
      exact h.of_eq hcatalog' hcreate' hfaults' hsessions rfl
    · rw [Client.setSession, countOperation_sessions] at hsessions
      exact h.update hs (s.unbuffered_buffer ht _ _) hcatalog' hcreate' hfaults' hsessions

theorem refusedCommit (h : Agree (· = id) c c') (hc : c.Valid) (hs : c.session? id = some s)
    (ht : s.transaction = some t) (hfailed : (c.commitTransaction id).1 ≠ .ok ()) :
    Agree (· = id) (c.commitTransaction id).2 (c'.commitTransaction id).2 := by
  have hs' : c'.session? id = some s.unbuffered := by rw [h.muted id rfl, hs, Option.map_some]
  have ht' : s.unbuffered.transaction = some { t with pending := ∅ } := by
    rw [Session.unbuffered, ht, Option.map_some]
  unfold Client.commitTransaction at hfailed ⊢
  rw [getD_session? hs] at hfailed ⊢
  rw [getD_session? hs']
  dsimp only at hfailed ⊢
  rw [ht] at hfailed ⊢
  rw [ht']
  dsimp only at hfailed ⊢
  rw [takeFault_eq] at hfailed ⊢
  rw [takeFault_eq, h.faults]
  cases harmed : decide (c.faults.armed .commit ≠ 0) with
  | true => exact h.of_eq h.catalog h.autoCreate rfl rfl rfl
  | false =>
    rw [harmed] at hfailed
    dsimp only [Client.setSession] at hfailed ⊢
    rcases c.catalog.commit_cases c.autoCreate (hc.pending id s t hs ht).sorted with
      ⟨cat, hcommit, -, -⟩ | ⟨e, hcommit, -⟩
    · rw [hcommit] at hfailed
      exact absurd rfl hfailed
    · rw [hcommit]
      -- nothing is buffered in the second client, so its commit leaves the catalog alone too
      exact h.setSession hs hs' (absurd rfl ·) (fun _ => rfl) h.catalog h.autoCreate rfl rfl rfl

theorem usesDocuments (h : Agree (· = id) c c') (hc : c.Valid) (hopen : c.inTransaction id = true)
    {e : Seeded} (he : e.event.UsesDocuments id) : Agree (· = id) (c.afterSeeded e) c' := by
  obtain ⟨seed, event⟩ := e
  have hreseeded : Agree (· = id) (c.after (.reseed seed)) c' :=
    h.of_eq h.catalog h.autoCreate h.faults rfl rfl
  have hvalid : (c.after (.reseed seed)).Valid := hc.of_eq rfl rfl
  obtain ⟨s, t, hs, ht⟩ := exists_openTransaction hopen
  unfold Event.UsesDocuments at he
  split at he
  · rename_i id' handle op hevent
    dsimp only at hevent
    rw [he] at hevent
    rw [hevent]
    exact hreseeded.documents (hvalid.transactionOf? hs ht) handle op
  · exact he.elim

theorem commits (h : Agree (· = id) c c') (hc : c.Valid) (hopen : c.inTransaction id = true)
    {e : Seeded} (he : e.event.Commits id) (hrefused : c.answerSeeded e ≠ .settled (.ok ())) :
    Agree (· = id) (c.afterSeeded e) (c'.afterSeeded e) := by
  obtain ⟨seed, event⟩ := e
  have hreseeded : Agree (· = id) (c.after (.reseed seed)) (c'.after (.reseed seed)) :=
    h.of_eq h.catalog h.autoCreate h.faults rfl rfl
  have hvalid : (c.after (.reseed seed)).Valid := hc.of_eq rfl rfl
  obtain ⟨s, t, hs, ht⟩ := exists_openTransaction hopen
  unfold Event.Commits at he
  split at he
  · rename_i id' hevent
    dsimp only at hevent
    rw [he] at hevent
    have hstarted : ((c.after (.reseed seed)).session? id).isSome = true :=
      Option.isSome_iff_exists.2 ⟨s, hs⟩
    have hstarted' := (hreseeded.isSome_session? id).trans hstarted
    rw [Client.answerSeeded, hevent, Client.answer, if_pos hstarted] at hrefused
    have hfailed : ((c.after (.reseed seed)).commitTransaction id).1 ≠ .ok () :=
      fun hok => hrefused (congrArg Answer.settled hok)
    have hafter := hreseeded.refusedCommit hvalid hs ht hfailed
    rw [hevent]
    show Agree (· = id)
      ((c.after (.reseed seed)).onSession id fun c => (c.commitTransaction id).2)
      ((c'.after (.reseed seed)).onSession id fun c => (c.commitTransaction id).2)
    rw [Client.onSession, Client.onSession, if_pos hstarted, if_pos hstarted']
    exact hafter
  · exact he.elim

theorem self (hself : ∀ s, c.session? id = some s → s.unbuffered = s) : Agree (· = id) c c := by
  refine ⟨rfl, rfl, rfl, rfl, fun _ _ => rfl, fun id' hid => ?_⟩
  rw [hid]
  cases hs : c.session? id with
  | none => rfl
  | some s => rw [Option.map_some, hself s hs]

theorem congr {hidden' : SessionId → Prop} (h : Agree hidden c c')
    (hiff : ∀ id, hidden' id ↔ hidden id) : Agree hidden' c c' := by
  have heq : hidden' = hidden := funext fun id => propext (hiff id)
  rw [heq]
  exact h

end Own

end Agree

/-! ## Runs -/

/-- The session's transaction stays open all through the run. -/
def StaysOpen (id : SessionId) (c : Client) (run : List Seeded) : Prop :=
  ∀ n, (c.runSeeded (run.take n)).inTransaction id = true

theorem staysOpen_nil_iff {id : SessionId} : c.StaysOpen id [] ↔ c.inTransaction id = true := by
  constructor
  · exact fun h => h 0
  · intro h n
    rw [List.take_nil]
    exact h

theorem staysOpen_cons_iff {id : SessionId} {e : Seeded} {rest : List Seeded}
    (hopen : c.inTransaction id = true) :
    c.StaysOpen id (e :: rest) ↔ (c.afterSeeded e).StaysOpen id rest := by
  constructor
  · exact fun h n => h (n + 1)
  · intro h n
    cases n with
    | zero => exact hopen
    | succ n => exact h n

theorem not_staysOpen {id : SessionId} (hended : c.inTransaction id = false) (run : List Seeded) :
    ¬c.StaysOpen id run := by
  intro h
  have hopen : c.inTransaction id = true := h 0
  rw [hended] at hopen
  cases hopen

theorem Valid.afterSeeded (h : c.Valid) {e : Seeded} (he : e.event.Ordered) :
    (c.afterSeeded e).Valid := by
  have hreseeded : (c.after (.reseed e.seed)).Valid := h.of_eq rfl rfl
  exact hreseeded.after he

theorem Agree.withoutDocuments {id : SessionId} (h : Agree (· = id) c c') (hc : c.Valid)
    {steps : List Seeded} (hordered : ∀ e ∈ steps, e.event.Ordered)
    (hindex : ∀ x ∈ c.whileOpen id steps, ¬x.2.event.MakesIndex id)
    (hcommit : ∀ x ∈ c.whileOpen id steps,
      x.2.event.Commits id → x.1.answerSeeded x.2 ≠ .settled (.ok ())) :
    c'.answersBesides id (c.withoutDocuments id steps) = c.answersBesides id steps ∧
      Agree (fun id' => id' = id ∧ c.StaysOpen id steps) (c.runSeeded steps)
        (c'.runSeeded (c.withoutDocuments id steps)) := by
  induction steps generalizing c c' with
  | nil =>
    refine ⟨rfl, ?_⟩
    cases hopen : c.inTransaction id with
    | true => exact h.congr fun id' => and_iff_left (staysOpen_nil_iff.2 hopen)
    | false =>
      exact (h.of_ended hopen).congr fun id' => iff_false_intro fun hid => not_staysOpen hopen _ hid.2
  | cons e rest ih =>
    have hopen' := h.inTransaction_eq id
    cases hopen : c.inTransaction id with
    | false =>
      -- from here on both clients go through the same events
      obtain ⟨hanswers, hend⟩ := (h.of_ended hopen).answers (e :: rest)
      rw [hopen] at hopen'
      refine ⟨?_, ?_⟩
      · simpa [Client.withoutDocuments, Client.answersBesides, hopen, hopen'] using hanswers
      · rw [Client.withoutDocuments, hopen, if_neg Bool.false_ne_true]
        exact hend.congr fun id' => iff_false_intro fun hid => not_staysOpen hopen _ hid.2
    | true =>
      rw [hopen] at hopen'
      have hvalid := hc.afterSeeded (hordered e List.mem_cons_self)
      have hordered' (e' : Seeded) (he' : e' ∈ rest) := hordered e' (List.mem_cons_of_mem _ he')
      rw [Client.whileOpen, hopen, if_pos rfl] at hindex hcommit
      have hindex' (x : Client × Seeded) (hx : x ∈ (c.afterSeeded e).whileOpen id rest) :=
        hindex x (List.mem_cons_of_mem _ hx)
      have hcommit' (x : Client × Seeded) (hx : x ∈ (c.afterSeeded e).whileOpen id rest) :=
        hcommit x (List.mem_cons_of_mem _ hx)
      have hmakes := hindex _ List.mem_cons_self
      have hrefused := hcommit _ List.mem_cons_self
      have hstays (id' : SessionId) :
          id' = id ∧ c.StaysOpen id (e :: rest) ↔
            id' = id ∧ (c.afterSeeded e).StaysOpen id rest :=
        and_congr_right fun _ => staysOpen_cons_iff hopen
      by_cases huses : e.event.UsesDocuments id
      · have hafter := h.usesDocuments hc hopen huses
        obtain ⟨hanswers, hend⟩ := ih hafter hvalid hordered' hindex' hcommit'
        rw [Client.withoutDocuments, Client.answersBesides, hopen, if_pos rfl, if_pos huses,
          if_pos rfl, if_pos (.inl huses)]
        exact ⟨hanswers, hend.congr hstays⟩
      by_cases hcommits : e.event.Commits id
      · have hafter := h.commits hc hopen hcommits (hrefused hcommits)
        obtain ⟨hanswers, hend⟩ := ih hafter hvalid hordered' hindex' hcommit'
        rw [Client.withoutDocuments, hopen, if_pos rfl, if_neg huses, Client.answersBesides,
          Client.answersBesides, hopen, hopen', if_pos rfl, if_pos (.inr hcommits), if_pos rfl,
          if_pos (.inr hcommits)]
        exact ⟨hanswers, hend.congr hstays⟩
      · obtain ⟨hanswer, hafter⟩ := h.afterSeeded (e := e) fun id' hid => by
          rw [hid]
          exact ⟨huses, hmakes, hcommits⟩
        obtain ⟨hanswers, hend⟩ := ih hafter hvalid hordered' hindex' hcommit'
        rw [Client.withoutDocuments, hopen, if_pos rfl, if_neg huses, Client.answersBesides,
          Client.answersBesides, hopen, hopen', if_pos rfl, if_neg (not_or.2 ⟨huses, hcommits⟩),
          if_pos rfl, if_neg (not_or.2 ⟨huses, hcommits⟩), hanswer, hanswers]
        exact ⟨rfl, hend.congr hstays⟩

/-! ## The transaction of a session -/

theorem unbuffered_of_started {id : SessionId} {options : TransactionOptions}
    (hstart : c.answer (.startTransaction id options) = .settled (.ok ())) {s : Session}
    (hs : (c.after (.startTransaction id options)).session? id = some s) : s.unbuffered = s := by
  rw [answer] at hstart
  rw [after, onSession] at hs
  cases hs₀ : c.session? id with
  | none =>
    rw [hs₀] at hstart
    cases hstart
  | some s₀ =>
    rw [hs₀, Option.isSome_some, if_pos rfl, Answer.settled.injEq] at hstart
    rw [hs₀, Option.isSome_some, if_pos rfl] at hs
    obtain ⟨-, options', hsessions⟩ := startTransaction_of_ok hs₀ hstart
    rw [session?_of_eq hsessions, session?_setSession_self hs₀, Option.some.injEq] at hs
    rw [← hs]
    rfl

/-- The answers to everything but operations on documents and commits in an open transaction are the same
as in the run without these operations on documents, and so are the catalog and all other sessions, as
long as no commit of the transaction succeeds. Once it has ended, nothing differs at all. -/
theorem uncommitted_unseen {c : Client} (hc : c.Reachable) {id : SessionId}
    {options : TransactionOptions}
    (hstart : c.answer (.startTransaction id options) = .settled (.ok ())) {steps : List Seeded}
    (hordered : ∀ e ∈ steps, e.event.Ordered)
    (hindex : ∀ x ∈ (c.after (.startTransaction id options)).whileOpen id steps,
      ¬x.2.event.MakesIndex id)
    (hcommit : ∀ x ∈ (c.after (.startTransaction id options)).whileOpen id steps,
      x.2.event.Commits id → x.1.answerSeeded x.2 ≠ .settled (.ok ())) :
    let opened := c.after (.startTransaction id options)
    let muted := opened.withoutDocuments id steps
    opened.answersBesides id muted = opened.answersBesides id steps ∧
      Agree (fun id' => id' = id ∧ opened.StaysOpen id steps) (opened.runSeeded steps)
        (opened.runSeeded muted) := by
  intro opened muted
  have hvalid : opened.Valid := hc.valid.after (e := .startTransaction id options) trivial
  have hself : Agree (· = id) opened opened := .self fun s hs => unbuffered_of_started hstart hs
  exact hself.withoutDocuments hvalid hordered hindex hcommit

/-- In its transaction the session inserts an entry that a plain caller inserts too, so that the commit is
refused. -/
def refusedRun : List Seeded :=
  [⟨0, .request (.session ⟨1⟩) (.documents { ns := ledger } (.insertOne (entry 1 10)))⟩,
    ⟨0, .request .plain (.documents { ns := ledger } (.insertOne (entry 1 20)))⟩,
    ⟨0, .commitTransaction ⟨1⟩⟩,
    ⟨0, .request (.session ⟨1⟩) (.documents { ns := ledger } (.deleteMany .all))⟩,
    ⟨0, .request .plain (.documents { ns := ledger } (.count .all))⟩]

theorem ordered_refusedRun : ∀ e ∈ refusedRun, e.event.Ordered := by
  intro e he
  simp only [refusedRun, List.mem_cons, List.not_mem_nil, or_false] at he
  rcases he with rfl | rfl | rfl | rfl | rfl
  · exact ⟨trivial, ordered_entry 1 10⟩
  · exact ⟨trivial, ordered_entry 1 20⟩
  · trivial
  · exact ⟨trivial, trivial⟩
  · exact ⟨trivial, trivial⟩

theorem uncommitted_unseen_refusedRun :
    let c := (fresh true 0).run [.startSession {}]
    let opened := c.after (.startTransaction ⟨1⟩ {})
    let muted := opened.withoutDocuments ⟨1⟩ refusedRun
    muted.length = 4 ∧
      (∀ x ∈ opened.whileOpen ⟨1⟩ refusedRun, ¬x.2.event.MakesIndex ⟨1⟩) ∧ ¬opened.StaysOpen ⟨1⟩ refusedRun ∧
      opened.answersBesides ⟨1⟩ muted = opened.answersBesides ⟨1⟩ refusedRun ∧
      (opened.runSeeded muted).catalog = (opened.runSeeded refusedRun).catalog := by
  intro c opened muted
  have hc : c.Reachable := ⟨true, 0, [.startSession {}], by simp [Event.Ordered], rfl⟩
  have hstart : c.answer (.startTransaction ⟨1⟩ {}) = .settled (.ok ()) := by rfl
  have hindex : ∀ x ∈ opened.whileOpen ⟨1⟩ refusedRun, ¬x.2.event.MakesIndex ⟨1⟩ := by
    decide +kernel
  have hrefused : ∀ x ∈ opened.whileOpen ⟨1⟩ refusedRun, x.2.event.Commits ⟨1⟩ →
      x.1.answerSeeded x.2 ≠ .settled (.ok ()) := by
    decide +kernel
  have hended : ((opened.runSeeded refusedRun).inTransaction ⟨1⟩) = false := by decide +kernel
  have hlength : muted.length = 4 := by decide +kernel
  obtain ⟨hanswers, hagree⟩ := uncommitted_unseen hc hstart ordered_refusedRun hindex hrefused
  refine ⟨hlength, hindex, fun hopen => ?_, hanswers, hagree.catalog⟩
  have hstill : (opened.runSeeded refusedRun).inTransaction ⟨1⟩ = true := hopen 5
  rw [hended] at hstill
  cases hstill

end Client

end ScopedStore
