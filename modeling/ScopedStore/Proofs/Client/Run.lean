import ScopedStore.Proofs.Client.Session

/-!
# Runs of a client

Everything that can happen to a client is an event: a request by anyone, a call on one of its
sessions, or arming the fault plan. A run is a list of events in any order, so it interleaves plain
callers and any number of sessions. `Valid` holds of a new client and is kept by every event whose
values are ordered, hence it holds of every reachable client.
-/

namespace ScopedStore

inductive Event where
  | request (caller : Caller) (r : Request)
  | startSession (options : SessionOptions)
  | startTransaction (id : SessionId) (options : TransactionOptions)
  | commitTransaction (id : SessionId)
  | abortTransaction (id : SessionId)
  | endSession (id : SessionId)
  | arm (kind : FaultKind) (n : Nat)
  /-- The identifiers that are made from now on come from another seed. -/
  | reseed (seed : Nat)

/-- The values that an event brings are ordered. -/
def Event.Ordered : Event → Prop
  | .request _ r => r.Ordered
  | _ => True

namespace Client

/-- The client after a call on a session; there is none on a session that was never started. -/
def onSession (c : Client) (id : SessionId) (act : Client → Client) : Client :=
  if (c.session? id).isSome then act c else c

def after (c : Client) : Event → Client
  | .request caller r => (c.perform caller r).2
  | .startSession options => (c.startSession options).2
  | .startTransaction id options => c.onSession id fun c => (c.startTransaction id options).2
  | .commitTransaction id => c.onSession id fun c => (c.commitTransaction id).2
  | .abortTransaction id => c.onSession id fun c => (c.abortTransaction id).2
  | .endSession id => c.onSession id fun c => c.endSession id
  | .arm kind n => { c with faults := c.faults.arm kind n }
  | .reseed seed => { c with seed := seed }

def run (c : Client) (events : List Event) : Client := events.foldl after c

/-- A client on which nothing has happened. -/
def fresh (autoCreate : Bool) (seed : Nat) : Client := { autoCreate := autoCreate, seed := seed }

/-- The client comes out of a run on a new one. -/
def Reachable (c : Client) : Prop :=
  ∃ autoCreate seed events, (∀ e ∈ events, e.Ordered) ∧ c = (fresh autoCreate seed).run events

theorem run_induction {P : Client → Prop} {c : Client} {events : List Event}
    (hevents : ∀ e ∈ events, e.Ordered) (init : P c)
    (step : ∀ c e, e.Ordered → P c → P (c.after e)) : P (c.run events) := by
  induction events generalizing c with
  | nil => exact init
  | cons e rest ih =>
    exact ih (fun e' he' => hevents e' (List.mem_cons_of_mem _ he'))
      (step c e (hevents e List.mem_cons_self) init)

/-! ## The invariant -/

/-- The invariant of a client: its collections and the buffered writes of its open transactions are
valid, and no ended session has an open transaction. -/
structure Valid (c : Client) : Prop where
  catalog : c.catalog.Valid
  pending : ∀ id s t, c.session? id = some s → s.transaction = some t → t.pending.Valid
  ended : ∀ id s, c.session? id = some s → s.ended = true → s.transaction = none

theorem valid_fresh (autoCreate : Bool) (seed : Nat) : (fresh autoCreate seed).Valid where
  catalog ns c h := by cases h
  pending id s t h := by simp [session?, fresh] at h
  ended id s h := by simp [session?, fresh] at h

theorem Valid.of_eq {c c' : Client} (h : c.Valid) (hcatalog : c'.catalog = c.catalog)
    (hsessions : c'.sessions = c.sessions) : c'.Valid where
  catalog := hcatalog ▸ h.catalog
  pending id s t hs := h.pending id s t (session?_of_eq hsessions id ▸ hs)
  ended id s hs := h.ended id s (session?_of_eq hsessions id ▸ hs)

theorem Valid.of_catalog {c c' : Client} (h : c.Valid) (hcatalog : c'.catalog.Valid)
    (hsessions : c'.sessions = c.sessions) : c'.Valid := by
  have hbefore : ({ c' with catalog := c.catalog } : Client).Valid := h.of_eq rfl hsessions
  exact ⟨hcatalog, hbefore.pending, hbefore.ended⟩

structure ValidSession (s : Session) : Prop where
  pending : ∀ t, s.transaction = some t → t.pending.Valid
  ended : s.ended = true → s.transaction = none

theorem Valid.setSession {c c' : Client} (h : c.Valid) {id : SessionId} {s₀ s : Session}
    (hid : c.session? id = some s₀) (hs : ValidSession s) (hcatalog : c'.catalog.Valid)
    (hsessions : c'.sessions = (c.setSession id s).sessions) : c'.Valid where
  catalog := hcatalog
  pending id' s' t hs' ht := by
    rw [session?_of_eq hsessions] at hs'
    rcases session?_setSession hid s hs' with ⟨-, rfl⟩ | ⟨-, hs'⟩
    · exact hs.pending t ht
    · exact h.pending id' s' t hs' ht
  ended id' s' hs' hended := by
    rw [session?_of_eq hsessions] at hs'
    rcases session?_setSession hid s hs' with ⟨-, rfl⟩ | ⟨-, hs'⟩
    · exact hs.ended hended
    · exact h.ended id' s' hs' hended

theorem Valid.ended_eq_false {c : Client} (h : c.Valid) {id : SessionId} {s : Session}
    {t : OpenTransaction} (hs : c.session? id = some s) (ht : s.transaction = some t) :
    s.ended = false := by
  cases hended : s.ended with
  | false => rfl
  | true =>
    rw [h.ended id s hs hended] at ht
    cases ht

theorem Valid.transactionOf? {c : Client} (h : c.Valid) {id : SessionId} {s : Session}
    {t : OpenTransaction} (hs : c.session? id = some s) (ht : s.transaction = some t) :
    c.transactionOf? (.session id) = some (id, s, t) :=
  transactionOf?_eq_some_iff.2 ⟨rfl, hs, h.ended_eq_false hs ht, ht⟩

theorem Valid.writesOf {c : Client} (h : c.Valid) (caller : Caller) (ns : Namespace) :
    ValidChanges (c.writesOf caller ns).entries := by
  rw [Client.writesOf]
  split
  · rename_i id s t hopen
    obtain ⟨-, hs, -, ht⟩ := transactionOf?_eq_some_iff.1 hopen
    exact (h.pending id s t hs ht).writesOf ns
  · exact validChanges_empty

/-! ## Requests keep it -/

theorem Valid.runOn {c : Client} (h : c.Valid) {handle : Handle} {op : DocumentOp}
    (hnarrow : handle.narrow.Ordered) (hop : op.Ordered) {writes : Writes}
    (hwrites : ValidChanges writes.entries) {reply : Reply} {v : View}
    (hrun : c.runOn handle writes op = .ok (reply, v)) : v.Valid := by
  obtain ⟨v₀, hload, hrun⟩ := runOn_eq_ok_iff.1 hrun
  have hv₀ := View.valid_load (h.catalog.collection handle.ns) hwrites hload
  exact (op.steps hnarrow hop hv₀ hrun).valid hv₀

theorem valid_applyChanges {cat cat' : Catalog} (h : cat.Valid) {ns : Namespace}
    {changes : Changes} (hchanges : ValidChanges changes) {create : Bool}
    (happly : cat.applyChanges ns changes create = .ok cat') : cat'.Valid := by
  intro ns' c' hc'
  have hcollection := h.collection ns
  have hcat' := Catalog.applyChanges_eq_ok happly ns'
  rw [hcat'] at hc'
  split at hc'
  · have hchanged := hcollection.foldl_applyChange hchanges
    rw [Catalog.collection, ← Catalog.getD_changed, hc'] at hchanged
    exact hchanged
  · exact h ns' c' hc'

theorem Valid.runDocuments {c : Client} (h : c.Valid) (caller : Caller) {handle : Handle}
    {op : DocumentOp} (hnarrow : handle.narrow.Ordered) (hop : op.Ordered) :
    (c.runDocuments caller handle op).2.Valid := by
  have hcount : (c.countOperation caller).Valid := h.of_eq (by simp) (by simp)
  rcases runDocuments_cases (Prod.eta (c.runDocuments caller handle op)).symm with
    ⟨hcatalog, hsessions, -⟩ | ⟨-, hrun⟩ | ⟨id, s, t, hopen, hrun⟩
  · exact h.of_eq hcatalog hsessions
  · obtain ⟨hsessions, ⟨hcatalog, -⟩ | ⟨reply, v, -, hon, happly⟩⟩ := runDirect_cases hrun
    · exact hcount.of_eq hcatalog hsessions
    · have hv := hcount.runOn hnarrow hop validChanges_empty hon
      exact hcount.of_catalog (valid_applyChanges hcount.catalog hv.changes happly) hsessions
  · obtain ⟨-, hs, hended, ht⟩ := transactionOf?_eq_some_iff.1 hopen
    obtain ⟨hcatalog, ⟨hsessions, -⟩ | ⟨reply, v, -, hon, hsessions⟩⟩ := runBuffered_cases hrun
    · exact hcount.of_eq hcatalog hsessions
    · have hpending := h.pending id s t hs ht
      have hv := hcount.runOn hnarrow hop (hpending.writesOf _) hon
      have hs' : (c.countOperation caller).session? id = some s := by
        rw [session?_of_eq (countOperation_sessions c caller), hs]
      refine hcount.setSession hs' ⟨fun t' ht' => ?_, fun hended' => ?_⟩ (hcatalog ▸ hcount.catalog)
        hsessions
      · cases ht'
        exact hpending.record _ hv.changes
      · rw [Session.buffer, hended] at hended'
        cases hended'

theorem Valid.createIndex {c : Client} (h : c.Valid) (caller : Caller) (ns : Namespace)
    (i : Index) : (c.createIndex caller ns i).2.Valid := by
  have hput := h.catalog.put ns (h.catalog.collection ns)
  obtain ⟨hsessions, ⟨hcatalog, -⟩ | ⟨hcatalog, -⟩ | ⟨name, added, -, -, hadd, hcatalog⟩⟩ :=
    createIndex_cases (Prod.eta (c.createIndex caller ns i)).symm
  · exact h.of_eq hcatalog hsessions
  · exact h.of_catalog (hcatalog ▸ hput) hsessions
  · have hadded := ((h.catalog.collection ns).addIndex hadd).1
    exact h.of_catalog (hcatalog ▸ hput.put ns hadded) hsessions

theorem Valid.perform {c : Client} (h : c.Valid) (caller : Caller) {r : Request} (hr : r.Ordered) :
    (c.perform caller r).2.Valid := by
  by_cases hdocuments : ∃ handle op, r = .documents handle op
  · obtain ⟨handle, op, rfl⟩ := hdocuments
    exact h.runDocuments caller hr.1 hr.2
  by_cases hindex : ∃ ns i, r = .createIndex ns i
  · obtain ⟨ns, i, rfl⟩ := hindex
    exact h.createIndex caller ns i
  obtain ⟨hsessions, hwithin | ⟨ns, name, before, after, hbefore, hafter, hcatalog⟩⟩ :=
    c.perform_administration caller (fun handle op heq => hdocuments ⟨handle, op, heq⟩)
      fun ns i heq => hindex ⟨ns, i, heq⟩
  · exact h.of_catalog (h.catalog.of_within hwithin) hsessions
  · have hafter' := (h.catalog ns before hbefore).removeIndex hafter
    exact h.of_catalog (hcatalog ▸ h.catalog.put ns hafter') hsessions

/-! ## Every event keeps it -/

theorem session?_of_append {c c' : Client} {s₀ : Session} (h : c'.sessions = c.sessions ++ [s₀])
    {id : SessionId} {s : Session} (hs : c'.session? id = some s) :
    c.session? id = some s ∨ s = s₀ := by
  rw [session?] at hs ⊢
  split at hs
  · cases hs
  · rename_i hnumber
    rw [if_neg hnumber]
    rw [h, List.getElem?_append] at hs
    split at hs
    · exact .inl hs
    · exact .inr (List.mem_singleton.1 (List.mem_of_getElem? hs))

theorem Valid.append {c c' : Client} (h : c.Valid) {s₀ : Session} (hs₀ : ValidSession s₀)
    (hcatalog : c'.catalog = c.catalog) (hsessions : c'.sessions = c.sessions ++ [s₀]) : c'.Valid where
  catalog := hcatalog ▸ h.catalog
  pending id s t hs ht := by
    rcases session?_of_append hsessions hs with hs | rfl
    · exact h.pending id s t hs ht
    · exact hs₀.pending t ht
  ended id s hs hended := by
    rcases session?_of_append hsessions hs with hs | rfl
    · exact h.ended id s hs hended
    · exact hs₀.ended hended

theorem valid_commit {cat : Catalog} (h : cat.Valid) (create : Bool) {p : Pending} (hp : p.Valid) :
    (cat.commit create p).2.Valid := by
  rcases cat.commit_cases create hp.sorted with ⟨cat', hcommit, -, hcat'⟩ | ⟨e, hcommit, -⟩
  · rw [hcommit]
    intro ns c hc
    rw [hcat' ns] at hc
    have hchanged := (h.collection ns).foldl_applyChange (hp.writesOf ns)
    rw [Catalog.collection, ← Catalog.getD_changed, hc] at hchanged
    exact hchanged
  · rw [hcommit]
    exact h

theorem onSession_induction {P : Client → Prop} {c : Client} (h : P c) {id : SessionId}
    {act : Client → Client} (hact : ∀ s, c.session? id = some s → P (act c)) :
    P (c.onSession id act) := by
  unfold onSession
  split
  · rename_i hsome
    obtain ⟨s, hs⟩ := Option.isSome_iff_exists.1 hsome
    exact hact s hs
  · exact h

theorem validSession_of_closed {s : Session} (h : s.transaction = none) : ValidSession s where
  pending t ht := by
    rw [h] at ht
    cases ht
  ended _ := h

theorem Valid.commitTransaction {c : Client} (h : c.Valid) {id : SessionId} {s : Session}
    (hs : c.session? id = some s) : (c.commitTransaction id).2.Valid := by
  cases ht : s.transaction with
  | none =>
    rw [commitTransaction_of_none hs ht]
    exact h
  | some t =>
    by_cases harmed : c.faults.commits = 0
    · obtain ⟨-, hcatalog, hsessions, -⟩ := commitTransaction_of_unarmed hs ht harmed
      have hvalid := valid_commit h.catalog c.autoCreate (h.pending id s t hs ht)
      exact h.setSession hs (validSession_of_closed rfl) (hcatalog ▸ hvalid) hsessions
    · obtain ⟨-, hcatalog, hsessions⟩ := commitTransaction_of_armed hs ht harmed
      exact h.of_eq hcatalog hsessions

theorem Valid.after {c : Client} (h : c.Valid) {e : Event} (he : e.Ordered) :
    (c.after e).Valid := by
  cases e with
  | request caller r => exact h.perform caller he
  | startSession options =>
    obtain ⟨hcatalog, hsessions | hsessions⟩ := c.startSession_cases options
    · exact h.of_eq hcatalog hsessions
    · exact h.append (validSession_of_closed rfl) hcatalog hsessions
  | startTransaction id options =>
    rw [Client.after]
    refine onSession_induction h fun s hs => ?_
    obtain ⟨hcatalog, hsessions | ⟨hended, options', hsessions⟩⟩ := startTransaction_cases hs options
    · exact h.of_eq hcatalog hsessions
    · refine h.setSession hs ⟨fun t ht => ?_, fun hended' => ?_⟩ (hcatalog ▸ h.catalog) hsessions
      · cases ht
        exact Pending.valid_empty
      · rw [hended] at hended'
        cases hended'
  | commitTransaction id =>
    rw [Client.after]
    exact onSession_induction h fun s hs => h.commitTransaction hs
  | abortTransaction id =>
    rw [Client.after]
    refine onSession_induction h fun s hs => ?_
    obtain ⟨hcatalog, hsessions | hsessions⟩ := abortTransaction_cases hs
    · exact h.of_eq hcatalog hsessions
    · exact h.setSession hs (validSession_of_closed rfl) (hcatalog ▸ h.catalog) hsessions
  | endSession id =>
    rw [Client.after]
    refine onSession_induction h fun s hs => ?_
    obtain ⟨hcatalog, hsessions, -⟩ := endSession_eq hs
    exact h.setSession hs (validSession_of_closed rfl) (hcatalog ▸ h.catalog) hsessions
  | arm kind n | reseed seed => exact h.of_eq rfl rfl

theorem Reachable.valid {c : Client} (h : c.Reachable) : c.Valid := by
  obtain ⟨autoCreate, seed, events, hevents, rfl⟩ := h
  exact run_induction hevents (valid_fresh autoCreate seed) fun c e he hc => hc.after he

end Client

end ScopedStore
