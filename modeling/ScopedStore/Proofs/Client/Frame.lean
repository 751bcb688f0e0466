import ScopedStore.Proofs.Client.Commit
import ScopedStore.Proofs.Store.Net

/-!
# What an event leaves alone

Calls on one session, and requests in its open transaction, spare all other sessions
(`Client.Spares`) and what is committed. Only a commit changes what is committed: it applies the buffered
writes of its transaction (`Client.commitTransaction_spares`).
-/

namespace ScopedStore

/-- The buffered writes after the changes of one more request, if it makes any. -/
def Pending.recordAll (p : Pending) : Option (Namespace × Changes) → Pending
  | some (ns, changes) => p.record ns changes
  | none => p

namespace Client

def stored (c : Client) (ns : Namespace) : SortedMap Value Bytes := (c.catalog.collection ns).stored

/-- Every session but the touched ones stays as it is. -/
structure Spares (touched : SessionId → Prop) (c c' : Client) : Prop where
  sessions : ∀ id s, c.session? id = some s → ¬touched id → c'.session? id = some s
  valid : c.Valid → c'.Valid

/-- The session is there as before, but that its transaction may have been closed. -/
def Retains (c : Client) (id : SessionId) (s : Session) : Prop :=
  ∃ s', c.session? id = some s' ∧ s'.ended = s.ended ∧ (s.transaction = none → s'.transaction = none)

def changesBy (c : Client) (id : SessionId) (h : Handle) (op : DocumentOp) : Changes :=
  match c.runOn h (c.writesOf (.session id) h.ns) op with
  | .ok (_, v) => v.changes
  | .error _ => []

/-- The changes that a request adds to the open transaction of a session: those of an operation on
documents that is accepted. -/
def changesOf (c : Client) (id : SessionId) (r : Request) : Option (Namespace × Changes) :=
  match r, (c.perform (.session id) r).1 with
  | .documents h op, .ok _ => some (h.ns, c.changesBy id h op)
  | _, _ => none

variable {c c' : Client} {touched : SessionId → Prop} {id : SessionId} {s s' : Session}

theorem Spares.refl (touched : SessionId → Prop) (c : Client) : Spares touched c c :=
  ⟨fun _ _ hs _ => hs, fun h => h⟩

theorem Spares.trans {c'' : Client} (h : Spares touched c c') (h' : Spares touched c' c'') :
    Spares touched c c'' :=
  ⟨fun id s hs hnot => h'.sessions id s (h.sessions id s hs hnot) hnot, fun hc => h'.valid (h.valid hc)⟩

theorem Spares.of_eq (hsessions : c'.sessions = c.sessions) (hvalid : c.Valid → c'.Valid) :
    Spares touched c c' :=
  ⟨fun id s hs _ => by rw [session?_of_eq hsessions, hs], hvalid⟩

theorem Spares.of_set (hs : c.session? id = some s)
    (hsessions : c'.sessions = (c.setSession id s').sessions) (hvalid : c.Valid → c'.Valid) :
    Spares (· = id) c c' := by
  refine ⟨fun id' s hs' hid => ?_, hvalid⟩
  rw [session?_of_eq hsessions, session?_setSession_of_ne (number_ne_zero hs) hid, hs']

theorem Spares.of_append (hsessions : c'.sessions = c.sessions ++ [s])
    (hvalid : c.Valid → c'.Valid) : Spares touched c c' := by
  refine ⟨fun id' s' hs' _ => ?_, hvalid⟩
  unfold session? at hs' ⊢
  split at hs'
  · cases hs'
  · rename_i hnumber
    rw [if_neg hnumber, hsessions,
      List.getElem?_append_left (List.getElem?_eq_some_iff.1 hs').1, hs']

theorem Spares.of_new {c'' : Client} (h : Spares (fun _ => False) c c')
    (h' : Spares (· = id) c' c'') (hnone : c.session? id = none) :
    Spares (fun _ => False) c c'' := by
  refine ⟨fun id' s hs _ => h'.sessions id' s (h.sessions id' s hs fun hf => hf) fun hid => ?_,
    fun hc => h'.valid (h.valid hc)⟩
  rw [hid, hnone] at hs
  cases hs

theorem stored_of_eq (h : c'.catalog = c.catalog) (ns : Namespace) : c'.stored ns = c.stored ns := by
  unfold stored
  rw [h]

theorem retains_of_eq (hs : c.session? id = some s) (hsessions : c'.sessions = c.sessions) :
    c'.Retains id s :=
  ⟨s, by rw [session?_of_eq hsessions, hs], rfl, fun h => h⟩

theorem retains_of_closed (hs : c.session? id = some s)
    (hsessions : c'.sessions = (c.setSession id { s with transaction := none }).sessions) :
    c'.Retains id s :=
  ⟨{ s with transaction := none }, by rw [session?_of_eq hsessions, session?_setSession_self hs],
    rfl, fun _ => rfl⟩

/-! ## Calls on a session -/

theorem after_onSession (hs : c.session? id = some s) (act : Client → Client) :
    c.onSession id act = act c := by
  unfold onSession
  rw [hs, Option.isSome_some, if_pos rfl]

theorem startSession_spares (c : Client) (options : SessionOptions) :
    Spares (fun _ => False) c (c.startSession options).2 ∧
      (∀ ns, (c.startSession options).2.stored ns = c.stored ns) ∧
      ∀ id, (c.startSession options).1 = .ok id →
        (c.startSession options).2.session? id = some { options := options } ∧
          c.session? id = none := by
  have hvalid (h : c.Valid) : (c.startSession options).2.Valid :=
    h.after (e := .startSession options) trivial
  obtain ⟨hcatalog, hsessions⟩ := c.startSession_cases options
  refine ⟨?_, stored_of_eq hcatalog, fun id hok => ?_⟩
  · rcases hsessions with hsessions | hsessions
    · exact .of_eq hsessions hvalid
    · exact .of_append hsessions hvalid
  · unfold startSession at hok ⊢
    rw [takeFault_eq] at hok ⊢
    cases harmed : decide (c.faults.armed .sessionStart ≠ 0) with
    | true =>
      rw [harmed] at hok
      cases hok
    | false =>
      rw [harmed] at hok
      cases hok
      refine ⟨?_, ?_⟩
      · show (c.sessions ++ [_])[c.sessions.length]? = _
        rw [List.getElem?_append_right (Nat.le_refl _), Nat.sub_self]
        rfl
      · show c.sessions[c.sessions.length]? = none
        exact List.getElem?_eq_none (Nat.le_refl _)

theorem startTransaction_spares (hs : c.session? id = some s) (options : TransactionOptions) :
    Spares (· = id) c (c.startTransaction id options).2 ∧
      (∀ ns, (c.startTransaction id options).2.stored ns = c.stored ns) ∧
      (∃ s', (c.startTransaction id options).2.session? id = some s') ∧
      ((c.startTransaction id options).1 = .ok () → s.ended = false ∧
        ∃ options', (c.startTransaction id options).2.session? id =
          some { s with transaction := some { options := options' } }) := by
  have hvalid (h : c.Valid) : (c.startTransaction id options).2.Valid := by
    have hafter := h.after (e := .startTransaction id options) trivial
    rwa [after, after_onSession hs] at hafter
  obtain ⟨hcatalog, hsessions⟩ := startTransaction_cases hs options
  refine ⟨?_, stored_of_eq hcatalog, ?_, fun hok => ?_⟩
  · rcases hsessions with hsessions | ⟨-, options', hsessions⟩
    · exact .of_eq hsessions hvalid
    · exact .of_set hs hsessions hvalid
  · rcases hsessions with hsessions | ⟨-, options', hsessions⟩
    · exact ⟨s, by rw [session?_of_eq hsessions, hs]⟩
    · exact ⟨_, by rw [session?_of_eq hsessions, session?_setSession_self hs]⟩
  · obtain ⟨hended, options', hsessions⟩ := startTransaction_of_ok hs hok
    exact ⟨hended, options', by rw [session?_of_eq hsessions, session?_setSession_self hs]⟩

theorem endSession_spares (hs : c.session? id = some s) :
    Spares (· = id) c (c.endSession id) ∧ (∀ ns, (c.endSession id).stored ns = c.stored ns) ∧
      (c.endSession id).session? id = some { s with ended := true, transaction := none } := by
  have hvalid (h : c.Valid) : (c.endSession id).Valid := by
    have hafter := h.after (e := .endSession id) trivial
    rwa [after, after_onSession hs] at hafter
  obtain ⟨hcatalog, hsessions, -⟩ := endSession_eq hs
  exact ⟨.of_set hs hsessions hvalid, stored_of_eq hcatalog,
    by rw [session?_of_eq hsessions, session?_setSession_self hs]⟩

theorem abortTransaction_spares (hs : c.session? id = some s) :
    Spares (· = id) c (c.abortTransaction id).2 ∧
      (∀ ns, (c.abortTransaction id).2.stored ns = c.stored ns) ∧
      (c.abortTransaction id).2.Retains id s := by
  have hvalid (h : c.Valid) : (c.abortTransaction id).2.Valid := by
    have hafter := h.after (e := .abortTransaction id) trivial
    rwa [after, after_onSession hs] at hafter
  obtain ⟨hcatalog, hsessions | hsessions⟩ := abortTransaction_cases hs
  · exact ⟨.of_eq hsessions hvalid, stored_of_eq hcatalog, retains_of_eq hs hsessions⟩
  · exact ⟨.of_set hs hsessions hvalid, stored_of_eq hcatalog, retains_of_closed hs hsessions⟩

theorem commitTransaction_spares (hc : c.Valid) (hs : c.session? id = some s) :
    Spares (· = id) c (c.commitTransaction id).2 ∧ (c.commitTransaction id).2.Retains id s ∧
      ((c.commitTransaction id).1 = .ok () → ∃ t, s.transaction = some t ∧
        ∀ ns, (c.commitTransaction id).2.stored ns =
          Changes.written (t.pending.writesOf ns).entries (c.stored ns)) ∧
      ((c.commitTransaction id).1 ≠ .ok () →
        ∀ ns, (c.commitTransaction id).2.stored ns = c.stored ns) := by
  have hvalid (h : c.Valid) : (c.commitTransaction id).2.Valid := h.commitTransaction hs
  cases ht : s.transaction with
  | none =>
    rw [commitTransaction_of_none hs ht]
    refine ⟨.refl _ c, retains_of_eq hs rfl, fun hok => ?_, fun _ _ => rfl⟩
    cases hok
  | some t =>
    by_cases harmed : c.faults.commits = 0
    · obtain ⟨-, -, hsessions, -⟩ := commitTransaction_of_unarmed hs ht harmed
      refine ⟨.of_set hs hsessions hvalid, retains_of_closed hs hsessions,
        fun hok => ⟨t, rfl, fun ns => ?_⟩,
        fun hfailed => stored_of_eq (catalog_of_refused hc hs ht harmed hfailed)⟩
      have hcollection := collection?_of_committed hc hs ht harmed hok ns
      rw [stored, Catalog.collection, hcollection, Catalog.getD_changed, Collection.foldl_applyChange]
      rfl
    · obtain ⟨houtcome, hcatalog, hsessions⟩ := commitTransaction_of_armed hs ht harmed
      refine ⟨.of_eq hsessions hvalid, retains_of_eq hs hsessions, fun hok => ?_,
        fun _ => stored_of_eq hcatalog⟩
      rw [houtcome] at hok
      cases hok

/-! ## Requests in an open transaction -/

variable {t : OpenTransaction}

theorem stored_put (cat : Catalog) (ns ns' : Namespace) (collection : Collection)
    (h : collection.stored = (cat.collection ns).stored) :
    ((cat.put ns collection).collection ns').stored = (cat.collection ns').stored := by
  unfold Catalog.collection
  by_cases hns : ns' = ns
  · rw [hns, Catalog.collection?_put_self, Option.getD_some, h]
    rfl
  · rw [Catalog.collection?_put_of_ne cat collection hns]

theorem stored_createIndex (hc : c.Valid) (caller : Caller) (ns : Namespace) (i : Index)
    (ns' : Namespace) : (c.createIndex caller ns i).2.stored ns' = c.stored ns' := by
  have hput := stored_put c.catalog ns ns' (c.catalog.collection ns) rfl
  obtain ⟨-, ⟨hcatalog, -⟩ | ⟨hcatalog, -⟩ | ⟨name, added, -, -, hadd, hcatalog⟩⟩ :=
    createIndex_cases (Prod.eta (c.createIndex caller ns i)).symm
  · exact stored_of_eq hcatalog ns'
  · unfold stored
    rw [hcatalog, hput]
  · have hadded : added.stored = (c.catalog.collection ns).stored :=
      ((hc.catalog.collection ns).addIndex hadd).2
    unfold stored
    rw [hcatalog, stored_put _ ns ns' added ?_, hput]
    rw [hadded, stored_put c.catalog ns ns (c.catalog.collection ns) rfl]

theorem stored_createCollection {cat cat' : Catalog} {ns : Namespace}
    (h : cat.createCollection ns = .ok cat') (ns' : Namespace) :
    (cat'.collection ns').stored = (cat.collection ns').stored := by
  unfold Catalog.createCollection at h
  split at h
  · cases h
  · rename_i hnone
    cases h
    refine stored_put cat ns ns' {} ?_
    rw [Option.not_isSome_iff_eq_none] at hnone
    rw [Catalog.collection, hnone]
    rfl

theorem command_refused (hc : c.Valid) (hs : c.session? id = some s) (ht : s.transaction = some t)
    (name : String) (act : Client → Except StoreError Reply × Client) :
    c.command (.session id) name false act = (.error (.notInTransaction name), c) := by
  have hended := hc.ended_eq_false hs ht
  have hcheck : c.checkCommand (.session id) name false = .error (.notInTransaction name) := by
    unfold checkCommand
    rw [lock_of_session hs hended]
    simp [openTransaction, ht, ok_bind]
  unfold command
  rw [hcheck]

/-- The changes are added to what the open transaction of a session has buffered. Nothing else is
touched. -/
structure Buffers (c c' : Client) (id : SessionId) (s : Session) (t : OpenTransaction)
    (changes : Option (Namespace × Changes)) : Prop where
  spares : Spares (· = id) c c'
  stored : ∀ ns, c'.stored ns = c.stored ns
  session : ∃ t', c'.session? id = some { s with transaction := some t' } ∧
    t'.pending = t.pending.recordAll changes

section Performing

variable (hs : c.session? id = some s) (ht : s.transaction = some t)

include hs

theorem Buffers.of_set {ns : Namespace} {changes : Changes} (hvalid : c.Valid → c'.Valid)
    (hsessions : c'.sessions = (c.setSession id (s.buffer t ns changes)).sessions)
    (hcatalog : c'.catalog = c.catalog) : Buffers c c' id s t (some (ns, changes)) := by
  refine ⟨.of_set hs hsessions hvalid, stored_of_eq hcatalog,
    { t with pending := t.pending.record ns changes }, ?_, rfl⟩
  rw [session?_of_eq hsessions, session?_setSession_self hs, Session.buffer]

include ht

theorem Buffers.of_quiet (hvalid : c.Valid → c'.Valid) (hsessions : c'.sessions = c.sessions)
    (hstored : ∀ ns, c'.stored ns = c.stored ns) : Buffers c c' id s t none := by
  refine ⟨.of_eq hsessions hvalid, hstored, t, ?_, rfl⟩
  rw [session?_of_eq hsessions, hs, ← ht]

theorem buffers_read (name : String) (reply : Client → Except StoreError Reply)
    (hvalid : c.Valid → (c.command (.session id) name true fun c => (reply c, c)).2.Valid) :
    Buffers c (c.command (.session id) name true fun c => (reply c, c)).2 id s t none := by
  rcases c.command_cases (.session id) name true fun c => (reply c, c) with h | h
  · exact .of_quiet hs ht hvalid (by rw [h]) fun ns => by rw [h]
  · refine .of_quiet hs ht hvalid ?_ (stored_of_eq ?_)
    · rw [h]
      exact countOperation_sessions c _
    · rw [h]
      exact countOperation_catalog c _

variable (hc : c.Valid)

include hc

theorem buffers_refused (name : String) (act : Client → Except StoreError Reply × Client) :
    Buffers c (c.command (.session id) name false act).2 id s t none := by
  rw [command_refused hc hs ht]
  exact .of_quiet hs ht (fun h => h) rfl fun _ => rfl

theorem buffers_createCollection (ns : Namespace) :
    Buffers c (c.perform (.session id) (.createCollection ns)).2 id s t none := by
  have hvalid (_ : c.Valid) : (c.perform (.session id) (.createCollection ns)).2.Valid :=
    hc.perform (.session id) trivial
  have hcatalog := countOperation_catalog c (.session id)
  have hsessions := countOperation_sessions c (.session id)
  rcases c.command_cases (.session id) "create" true
      fun c => c.takeCatalog (c.catalog.createCollection ns) with h | h
  · exact .of_quiet hs ht hvalid (congrArg Client.sessions h) (stored_of_eq (congrArg Client.catalog h))
  · have hperform : (c.perform (.session id) (.createCollection ns)).2 =
        ((c.countOperation (.session id)).takeCatalog (c.catalog.createCollection ns)).2 :=
      (congrArg Prod.snd h).trans (by rw [hcatalog])
    cases hcreate : c.catalog.createCollection ns with
    | error e =>
      rw [hcreate] at hperform
      exact .of_quiet hs ht hvalid ((congrArg Client.sessions hperform).trans hsessions)
        (stored_of_eq ((congrArg Client.catalog hperform).trans hcatalog))
    | ok cat =>
      rw [hcreate] at hperform
      refine .of_quiet hs ht hvalid ((congrArg Client.sessions hperform).trans hsessions) fun ns' => ?_
      unfold stored
      rw [hperform]
      exact stored_createCollection hcreate ns'

theorem buffers_documents {h : Handle} {op : DocumentOp} (hr : (Request.documents h op).Ordered) :
    Buffers c (c.perform (.session id) (.documents h op)).2 id s t
      (c.changesOf id (.documents h op)) := by
  have hvalid (_ : c.Valid) : (c.perform (.session id) (.documents h op)).2.Valid :=
    hc.perform (.session id) hr
  have htransaction := hc.transactionOf? hs ht
  have hrefused (hfailed : ∃ e, (c.perform (.session id) (.documents h op)).1 = .error e) :
      c.changesOf id (.documents h op) = none := by
    obtain ⟨e, he⟩ := hfailed
    unfold changesOf
    rw [he]
  rcases runDocuments_cases (Prod.eta (c.runDocuments (.session id) h op)).symm with
    ⟨hcatalog, hsessions, hfailed⟩ | ⟨hnone, -⟩ | ⟨id', s', t', hopen, hrun⟩
  · rw [hrefused hfailed]
    exact .of_quiet hs ht hvalid hsessions (stored_of_eq hcatalog)
  · rw [htransaction] at hnone
    cases hnone
  · rw [htransaction] at hopen
    cases hopen
    obtain ⟨hcatalog, ⟨hsessions, hfailed⟩ | ⟨reply, v, hok, hon, hsessions⟩⟩ := runBuffered_cases hrun
    · rw [countOperation_sessions] at hsessions
      rw [countOperation_catalog] at hcatalog
      rw [hrefused hfailed]
      exact .of_quiet hs ht hvalid hsessions (stored_of_eq hcatalog)
    · rw [countOperation_catalog] at hcatalog
      rw [countOperation_runOn] at hon
      rw [setSession, countOperation_sessions] at hsessions
      have hreply : (c.perform (.session id) (.documents h op)).1 = .ok reply := hok
      have hchanges : c.changesOf id (.documents h op) = some (h.ns, v.changes) := by
        unfold changesOf changesBy
        rw [hreply]
        dsimp only
        rw [writesOf_eq htransaction, hon]
      rw [hchanges]
      exact .of_set hs hvalid hsessions hcatalog

/-- A request in an open transaction changes nothing that is committed, and adds its changes to the
transaction if it is accepted. -/
theorem perform_buffers {r : Request} (hr : r.Ordered) :
    Buffers c (c.perform (.session id) r).2 id s t (c.changesOf id r) := by
  have hvalid (_ : c.Valid) : (c.perform (.session id) r).2.Valid := hc.perform (.session id) hr
  cases r with
  | documents h op => exact buffers_documents hs ht hc hr
  | createIndex ns i =>
    have hsessions := (createIndex_cases (Prod.eta (c.createIndex (.session id) ns i)).symm).1
    exact .of_quiet hs ht hvalid hsessions (stored_createIndex hc (.session id) ns i)
  | createCollection ns => exact buffers_createCollection hs ht hc ns
  | dropIndex ns name => exact buffers_refused hs ht hc "dropIndexes" _
  | dropDatabase name => exact buffers_refused hs ht hc "dropDatabase" _
  | dropCollection ns => exact buffers_refused hs ht hc "drop" _
  | renameCollection source name => exact buffers_refused hs ht hc "renameCollection" _
  | listIndexes ns => exact buffers_read hs ht "listIndexes" (fun c => c.listIndexes ns) hvalid
  | listDatabases =>
    exact buffers_read hs ht "listDatabases" (fun c => .ok (.names c.catalog.databaseNames)) hvalid
  | listCollections database =>
    exact buffers_read hs ht "listCollections"
      (fun c => .ok (.names (c.catalog.collectionNames database))) hvalid

end Performing

theorem netOf_record (hc : c.Valid) (hs : c.session? id = some s) (ht : s.transaction = some t)
    {r : Request} (hr : r.Ordered) {changes : Namespace → Changes} {ns : Namespace}
    {added : Changes} (h : t.pending.NetOf changes c.stored)
    (hadded : c.changesOf id r = some (ns, added)) :
    (t.pending.record ns added).NetOf
      (fun ns' => if ns' = ns then changes ns ++ added else changes ns') c.stored := by
  unfold changesOf at hadded
  split at hadded
  · rename_i handle op reply _
    cases hadded
    unfold changesBy
    rw [writesOf_eq (hc.transactionOf? hs ht)]
    cases hrun : c.runOn handle (t.pending.writesOf handle.ns) op with
    | error e =>
      have hsame : (fun ns' => if ns' = handle.ns then changes handle.ns ++ [] else changes ns') =
          changes := by
        funext ns'
        split
        · rename_i hns
          rw [hns, List.append_nil]
        · rfl
      dsimp only
      rw [hsame]
      exact h
    | ok found =>
      obtain ⟨reply, v⟩ := found
      have hpending := hc.pending id s t hs ht
      have hv := hc.runOn hr.1 hr.2 (hpending.writesOf _) hrun
      obtain ⟨v₀, hload, hop⟩ := runOn_eq_ok_iff.1 hrun
      have hv₀ := View.valid_load (hc.catalog.collection handle.ns) (hpending.writesOf _) hload
      exact h.record hc.catalog hpending hload (op.steps hr.1 hr.2 hv₀ hop) hv
  · cases hadded

end Client

end ScopedStore
