import ScopedStore.Client.Request
import ScopedStore.Proofs.Operation

/-!
# What a request does

The catalog and the sessions after a request, one lemma for each kind. An operation on documents
either fails, or it runs on a view that it loaded; then its changes go to the catalog when the caller
works in no transaction, and into the buffered writes of the caller's transaction otherwise.
-/

namespace ScopedStore

def Session.buffer (s : Session) (t : OpenTransaction) (ns : Namespace) (changes : Changes) :
    Session :=
  { s with transaction := some { t with pending := t.pending.record ns changes } }

namespace Client

/-! ## Sessions in the table -/

theorem session?_of_eq {c c' : Client} (h : c'.sessions = c.sessions) (id : SessionId) :
    c'.session? id = c.session? id := by
  rw [session?, session?, h]

theorem session?_setSession_self {c : Client} {id : SessionId} {s₀ : Session}
    (h : c.session? id = some s₀) (s : Session) : (c.setSession id s).session? id = some s := by
  rw [session?] at h ⊢
  split at h
  · cases h
  · rename_i hnumber
    rw [if_neg hnumber, setSession, List.getElem?_set_self (List.getElem?_eq_some_iff.1 h).1]

theorem session?_setSession_of_ne {c : Client} {id id' : SessionId} (hid : id.number ≠ 0)
    (h : id' ≠ id) (s : Session) : (c.setSession id s).session? id' = c.session? id' := by
  rw [session?, session?]
  by_cases hnumber : id'.number = 0
  · rw [if_pos hnumber, if_pos hnumber]
  · have hplace : id.number - 1 ≠ id'.number - 1 := fun heq => by
      obtain ⟨n⟩ := id
      obtain ⟨n'⟩ := id'
      exact h (congrArg SessionId.mk (by simp only at heq hid hnumber; omega))
    rw [if_neg hnumber, if_neg hnumber, setSession, List.getElem?_set_ne hplace]

theorem number_ne_zero {c : Client} {id : SessionId} {s : Session} (h : c.session? id = some s) :
    id.number ≠ 0 := by
  intro hnumber
  rw [session?, if_pos hnumber] at h
  cases h

theorem session?_setSession {c : Client} {id : SessionId} {s₀ : Session}
    (h : c.session? id = some s₀) (s : Session) {id' : SessionId} {s' : Session}
    (hs' : (c.setSession id s).session? id' = some s') :
    (id' = id ∧ s' = s) ∨ (id' ≠ id ∧ c.session? id' = some s') := by
  by_cases hid : id' = id
  · rw [hid, session?_setSession_self h, Option.some.injEq] at hs'
    exact .inl ⟨hid, hs'.symm⟩
  · rw [session?_setSession_of_ne (number_ne_zero h) hid] at hs'
    exact .inr ⟨hid, hs'⟩

/-! ## Callers -/

@[simp] theorem countOperation_catalog (c : Client) (caller : Caller) :
    (c.countOperation caller).catalog = c.catalog := by
  cases caller <;> rfl

@[simp] theorem countOperation_sessions (c : Client) (caller : Caller) :
    (c.countOperation caller).sessions = c.sessions := by
  cases caller <;> rfl

@[simp] theorem countOperation_autoCreate (c : Client) (caller : Caller) :
    (c.countOperation caller).autoCreate = c.autoCreate := by
  cases caller <;> rfl

@[simp] theorem countOperation_seed (c : Client) (caller : Caller) :
    (c.countOperation caller).seed = c.seed := by
  cases caller <;> rfl

@[simp] theorem countOperation_faults (c : Client) (caller : Caller) :
    (c.countOperation caller).faults = c.faults := by
  cases caller <;> rfl

@[simp] theorem countOperation_lock (c : Client) (caller caller' : Caller) :
    (c.countOperation caller).lock caller' = c.lock caller' := by
  cases caller <;> rfl

theorem lock_of_eq {c c' : Client} (h : c'.sessions = c.sessions) (caller : Caller) :
    c'.lock caller = c.lock caller := by
  cases caller with
  | plain | stranger => rfl
  | session id => rw [lock, lock, session?_of_eq h]

theorem lock_of_session {c : Client} {id : SessionId} {s : Session} (hs : c.session? id = some s)
    (hended : s.ended = false) : c.lock (.session id) = .ok (some (id, s)) := by
  rw [lock, hs]
  simp [hended]

def transactionOf? (c : Client) (caller : Caller) : Option (SessionId × Session × OpenTransaction) :=
  match c.lock caller with
  | .ok locked => openTransaction locked
  | .error _ => none

theorem transactionOf?_eq_some_iff {c : Client} {caller : Caller} {id : SessionId} {s : Session}
    {t : OpenTransaction} :
    c.transactionOf? caller = some (id, s, t) ↔
      caller = .session id ∧ c.session? id = some s ∧ s.ended = false ∧ s.transaction = some t := by
  rw [transactionOf?]
  cases caller with
  | plain => simp [lock, openTransaction]
  | stranger => simp [lock]
  | session id' =>
    rw [lock]
    cases hs : c.session? id' with
    | none =>
      simp only [reduceCtorEq, Caller.session.injEq, false_iff, not_and]
      rintro rfl hs'
      rw [hs] at hs'
      cases hs'
    | some s' =>
      cases hended : s'.ended with
      | true =>
        simp only [hended, if_true, reduceCtorEq, Caller.session.injEq, false_iff, not_and]
        rintro rfl hs' hended'
        rw [hs, Option.some.injEq] at hs'
        rw [← hs', hended] at hended'
        cases hended'
      | false =>
        simp only [hended, openTransaction, Option.bind_some, Option.map_eq_some_iff, Prod.mk.injEq,
          Caller.session.injEq, Bool.false_eq_true, if_false]
        constructor
        · rintro ⟨t', ht', rfl, rfl, rfl⟩
          exact ⟨rfl, hs, hended, ht'⟩
        · rintro ⟨rfl, hs', -, ht⟩
          rw [hs, Option.some.injEq] at hs'
          exact ⟨t, hs' ▸ ht, rfl, hs', rfl⟩

/-- The buffered writes of a caller's open transaction in a namespace. -/
def writesOf (c : Client) (caller : Caller) (ns : Namespace) : Writes :=
  match c.transactionOf? caller with
  | some (_, _, t) => t.pending.writesOf ns
  | none => ∅

theorem writesOf_eq {c : Client} {caller : Caller} {id : SessionId} {s : Session}
    {t : OpenTransaction} (h : c.transactionOf? caller = some (id, s, t)) (ns : Namespace) :
    c.writesOf caller ns = t.pending.writesOf ns := by
  rw [writesOf, h]

theorem writesOf_eq_empty {c : Client} {caller : Caller} (h : c.transactionOf? caller = none)
    (ns : Namespace) : c.writesOf caller ns = ∅ := by
  rw [writesOf, h]

theorem writesOf_of_eq {c c' : Client} (h : c'.sessions = c.sessions) (caller : Caller)
    (ns : Namespace) : c'.writesOf caller ns = c.writesOf caller ns := by
  rw [writesOf, writesOf, transactionOf?, transactionOf?, lock_of_eq h]

/-- The view that the next operation of a caller on a namespace starts from. -/
def viewOf (c : Client) (caller : Caller) (ns : Namespace) : Except StoreError View :=
  View.load c.catalog ns (c.writesOf caller ns) c.seed

/-! ## Operations on documents -/

@[simp] theorem countOperation_runOn (c : Client) (caller : Caller) (h : Handle) (writes : Writes)
    (op : DocumentOp) : (c.countOperation caller).runOn h writes op = c.runOn h writes op := by
  cases caller <;> rfl

theorem runOn_eq_ok_iff {c : Client} {h : Handle} {writes : Writes} {op : DocumentOp}
    {reply : Reply} {v : View} :
    c.runOn h writes op = .ok (reply, v) ↔
      ∃ v₀, View.load c.catalog h.ns writes c.seed = .ok v₀ ∧ op.run h.narrow v₀ = .ok (reply, v) :=
  bind_eq_ok

theorem runDirect_cases {c c' : Client} {h : Handle} {op : DocumentOp}
    {out : Except StoreError Reply} (hrun : c.runDirect h op = (out, c')) :
    c'.sessions = c.sessions ∧
      ((c'.catalog = c.catalog ∧ ∃ e, out = .error e) ∨
        ∃ reply v, out = .ok reply ∧ c.runOn h ∅ op = .ok (reply, v) ∧
          c.catalog.applyChanges h.ns v.changes c.autoCreate = .ok c'.catalog) := by
  rw [runDirect] at hrun
  split at hrun
  · cases hrun
    exact ⟨rfl, .inl ⟨rfl, _, rfl⟩⟩
  · rename_i reply v hon
    simp only at hrun
    split at hrun
    · rename_i cat happly
      cases hrun
      exact ⟨rfl, .inr ⟨reply, v, rfl, hon, happly⟩⟩
    · cases hrun
      exact ⟨rfl, .inl ⟨rfl, _, rfl⟩⟩

theorem runBuffered_cases {c c' : Client} {id : SessionId} {s : Session} {t : OpenTransaction}
    {h : Handle} {op : DocumentOp} {out : Except StoreError Reply}
    (hrun : c.runBuffered id s t h op = (out, c')) :
    c'.catalog = c.catalog ∧
      ((c'.sessions = c.sessions ∧ ∃ e, out = .error e) ∨
        ∃ reply v, out = .ok reply ∧ c.runOn h (t.pending.writesOf h.ns) op = .ok (reply, v) ∧
          c'.sessions = (c.setSession id (s.buffer t h.ns v.changes)).sessions) := by
  rw [runBuffered] at hrun
  split at hrun
  · cases hrun
    exact ⟨rfl, .inl ⟨rfl, _, rfl⟩⟩
  · rename_i reply v hon
    simp only at hrun
    split at hrun
    · cases hrun
      exact ⟨rfl, .inl ⟨rfl, _, rfl⟩⟩
    · cases hrun
      exact ⟨rfl, .inr ⟨reply, v, rfl, hon, rfl⟩⟩

theorem runDocuments_plain (c : Client) (h : Handle) {op : DocumentOp} (hcheck : op.check = .ok ()) :
    c.runDocuments .plain h op = (c.countOperation .plain).runDirect h op := by
  rw [runDocuments, hcheck]
  rfl

theorem runDocuments_session {c : Client} {id : SessionId} {s : Session} {t : OpenTransaction}
    (hopen : c.transactionOf? (.session id) = some (id, s, t)) (h : Handle) {op : DocumentOp}
    (hcheck : op.check = .ok ()) :
    c.runDocuments (.session id) h op =
      (c.countOperation (.session id)).runBuffered id s t h op := by
  obtain ⟨-, hs, hended, ht⟩ := transactionOf?_eq_some_iff.1 hopen
  have hfound : openTransaction (some (id, s)) = some (id, s, t) := by
    show s.transaction.map (fun t => (id, s, t)) = some (id, s, t)
    rw [ht]
    rfl
  rw [runDocuments, hcheck]
  dsimp only
  rw [countOperation_lock, lock_of_session hs hended]
  dsimp only
  rw [hfound]

/-- An operation fails and changes neither the catalog nor a session, or is refused at once, or runs
directly or buffered as the caller works in a transaction or not. -/
theorem runDocuments_cases {c c' : Client} {caller : Caller} {h : Handle} {op : DocumentOp}
    {out : Except StoreError Reply} (hrun : c.runDocuments caller h op = (out, c')) :
    (c'.catalog = c.catalog ∧ c'.sessions = c.sessions ∧ ∃ e, out = .error e) ∨
      (c.transactionOf? caller = none ∧ (c.countOperation caller).runDirect h op = (out, c')) ∨
      ∃ id s t, c.transactionOf? caller = some (id, s, t) ∧
        (c.countOperation caller).runBuffered id s t h op = (out, c') := by
  rw [runDocuments] at hrun
  rw [transactionOf?]
  split at hrun
  · cases hrun
    exact .inl ⟨rfl, rfl, _, rfl⟩
  · simp only [countOperation_lock] at hrun
    cases hlock : c.lock caller with
    | error e =>
      rw [hlock] at hrun
      cases hrun
      exact .inl ⟨by simp, by simp, _, rfl⟩
    | ok locked =>
      rw [hlock] at hrun
      simp only at hrun
      split at hrun
      · rename_i id s t hopen
        exact .inr (.inr ⟨id, s, t, hopen, hrun⟩)
      · rename_i hopen
        exact .inr (.inl ⟨hopen, hrun⟩)

theorem runDirect_faults (c : Client) (h : Handle) (op : DocumentOp) :
    (c.runDirect h op).2.faults = c.faults := by
  unfold runDirect
  split
  · rfl
  · dsimp only
    split <;> rfl

theorem runBuffered_faults (c : Client) (id : SessionId) (s : Session) (t : OpenTransaction)
    (h : Handle) (op : DocumentOp) : (c.runBuffered id s t h op).2.faults = c.faults := by
  unfold runBuffered
  split
  · rfl
  · dsimp only
    split <;> rfl

theorem runBuffered_autoCreate (c : Client) (id : SessionId) (s : Session) (t : OpenTransaction)
    (h : Handle) (op : DocumentOp) :
    (c.runBuffered id s t h op).2.autoCreate = c.autoCreate := by
  unfold runBuffered
  split
  · rfl
  · dsimp only
    split <;> rfl

theorem runDocuments_faults (c : Client) (caller : Caller) (h : Handle) (op : DocumentOp) :
    (c.runDocuments caller h op).2.faults = c.faults := by
  unfold runDocuments
  split
  · rfl
  · dsimp only
    split
    · exact countOperation_faults c caller
    · split
      · rw [runBuffered_faults, countOperation_faults]
      · rw [runDirect_faults, countOperation_faults]

/-! ## Indexes -/

theorem createIndex_cases {c c' : Client} {caller : Caller} {ns : Namespace} {i : Index}
    {out : Except StoreError Reply} (hrun : c.createIndex caller ns i = (out, c')) :
    c'.sessions = c.sessions ∧
      ((c'.catalog = c.catalog ∧ ((∃ e, c.lock caller = .error e) ∨ i.keys.isEmpty = true) ∧
          ∃ e, out = .error e) ∨
        (c'.catalog = c.catalog.put ns (c.catalog.collection ns) ∧ ∃ e, out = .error e ∧
          (c.catalog.collection ns).addIndex ns i (c.writesOf caller ns) = .error e) ∨
        ∃ name added, out = .ok (.name name) ∧ i.keys.isEmpty = false ∧
          (c.catalog.collection ns).addIndex ns i (c.writesOf caller ns) = .ok (name, added) ∧
          c'.catalog = (c.catalog.put ns (c.catalog.collection ns)).put ns added) := by
  rw [createIndex] at hrun
  rw [writesOf, transactionOf?]
  cases hlock : c.lock caller with
  | error e =>
    rw [hlock] at hrun
    cases hrun
    exact ⟨rfl, .inl ⟨rfl, .inl ⟨e, rfl⟩, e, rfl⟩⟩
  | ok locked =>
    rw [hlock] at hrun
    simp only at hrun
    split at hrun
    · rename_i hkeys
      cases hrun
      exact ⟨by simp, .inl ⟨by simp, .inr hkeys, _, rfl⟩⟩
    · rename_i hkeys
      rw [countOperation_catalog] at hrun
      split at hrun
      · rename_i e hadd
        cases hrun
        exact ⟨by simp, .inr (.inl ⟨rfl, e, rfl, hadd⟩)⟩
      · rename_i name added hadd
        cases hrun
        exact ⟨by simp, .inr (.inr ⟨name, added, rfl, by simpa using hkeys, hadd, rfl⟩)⟩

theorem dropIndex_cases (c : Client) (ns : Namespace) (name : String) :
    (c.dropIndex ns name).2.sessions = c.sessions ∧
      ((c.dropIndex ns name).2.catalog = c.catalog ∨
        ∃ before after, c.catalog.collection? ns = some before ∧
          before.removeIndex name = .ok after ∧
          (c.dropIndex ns name).2.catalog = c.catalog.put ns after) := by
  rw [dropIndex]
  split
  · exact ⟨rfl, .inl rfl⟩
  · rename_i before hbefore
    split
    · exact ⟨rfl, .inl rfl⟩
    · rename_i after hafter
      exact ⟨rfl, .inr ⟨before, after, hbefore, hafter, rfl⟩⟩

/-! ## Commands -/

theorem command_cases (c : Client) (caller : Caller) (name : String) (inTransaction : Bool)
    (act : Client → Except StoreError Reply × Client) :
    (c.command caller name inTransaction act).2 = c ∨
      c.command caller name inTransaction act = act (c.countOperation caller) := by
  rw [command]
  split
  · exact .inl rfl
  · exact .inr rfl

theorem takeCatalog_cases (c : Client) (outcome : Except StoreError Catalog)
    (h : ∀ cat, outcome = .ok cat → cat.Within c.catalog) :
    (c.takeCatalog outcome).2.sessions = c.sessions ∧
      (c.takeCatalog outcome).2.catalog.Within c.catalog := by
  cases outcome with
  | ok cat => exact ⟨rfl, h cat rfl⟩
  | error e => exact ⟨rfl, Catalog.within_refl _⟩

theorem perform_administration (c : Client) (caller : Caller) {r : Request}
    (hdocuments : ∀ h op, r ≠ .documents h op) (hindex : ∀ ns i, r ≠ .createIndex ns i) :
    (c.perform caller r).2.sessions = c.sessions ∧
      ((c.perform caller r).2.catalog.Within c.catalog ∨
        ∃ ns name before after, c.catalog.collection? ns = some before ∧
          before.removeIndex name = .ok after ∧
          (c.perform caller r).2.catalog = c.catalog.put ns after) := by
  have hcommand {name : String} {inTransaction : Bool}
      {act : Client → Except StoreError Reply × Client}
      (hact : (act (c.countOperation caller)).2.sessions = c.sessions ∧
        (act (c.countOperation caller)).2.catalog.Within c.catalog) :
      (c.command caller name inTransaction act).2.sessions = c.sessions ∧
        (c.command caller name inTransaction act).2.catalog.Within c.catalog := by
    rcases c.command_cases caller name inTransaction act with h | h
    · rw [h]
      exact ⟨rfl, Catalog.within_refl _⟩
    · rwa [h]
  have htake (outcome : Except StoreError Catalog)
      (h : ∀ cat, outcome = .ok cat → cat.Within c.catalog) :
      ((c.countOperation caller).takeCatalog outcome).2.sessions = c.sessions ∧
        ((c.countOperation caller).takeCatalog outcome).2.catalog.Within c.catalog := by
    have := (c.countOperation caller).takeCatalog_cases outcome (by simpa using h)
    simpa using this
  have hread {reply : Except StoreError Reply} :
      ((reply, c.countOperation caller).2 : Client).sessions = c.sessions ∧
        ((reply, c.countOperation caller).2 : Client).catalog.Within c.catalog := by
    simpa using Catalog.within_refl _
  cases r with
  | documents h op => exact absurd rfl (hdocuments h op)
  | createIndex ns i => exact absurd rfl (hindex ns i)
  | dropIndex ns name =>
    rw [perform]
    rcases c.command_cases caller "dropIndexes" false fun c => c.dropIndex ns name with h | h
    · rw [h]
      exact ⟨rfl, .inl (Catalog.within_refl _)⟩
    · rw [h]
      obtain ⟨hsessions, hcat⟩ := (c.countOperation caller).dropIndex_cases ns name
      rw [countOperation_sessions] at hsessions
      rw [countOperation_catalog] at hcat
      refine ⟨hsessions, ?_⟩
      rcases hcat with hcat | ⟨before, after, hbefore, hafter, hcat⟩
      · rw [hcat]
        exact .inl (Catalog.within_refl _)
      · exact .inr ⟨ns, name, before, after, hbefore, hafter, hcat⟩
  | listIndexes ns | listDatabases | listCollections database =>
    exact (hcommand hread).imp_right .inl
  | dropDatabase name =>
    refine (hcommand (htake _ fun cat hcat => ?_)).imp_right .inl
    cases hcat
    simpa using Catalog.within_dropDatabase c.catalog name
  | createCollection ns =>
    refine (hcommand (htake _ fun cat hcat => ?_)).imp_right .inl
    exact Catalog.within_createCollection (by simpa using hcat)
  | dropCollection ns =>
    refine (hcommand (htake _ fun cat hcat => ?_)).imp_right .inl
    cases hcat
    simpa using Catalog.within_dropCollection c.catalog ns
  | renameCollection source name =>
    refine (hcommand (htake _ fun cat hcat => ?_)).imp_right .inl
    exact Catalog.within_renameCollection (by simpa using hcat)

theorem perform_plain_sessions (c : Client) (r : Request) :
    (c.perform .plain r).2.sessions = c.sessions := by
  by_cases hdocuments : ∃ h op, r = .documents h op
  · obtain ⟨h, op, rfl⟩ := hdocuments
    rcases runDocuments_cases (Prod.eta (c.runDocuments .plain h op)).symm with
      ⟨-, hsessions, -⟩ | ⟨-, hrun⟩ | ⟨id, s, t, hopen, -⟩
    · exact hsessions
    · exact (runDirect_cases hrun).1.trans (countOperation_sessions c .plain)
    · cases hopen
  by_cases hindex : ∃ ns i, r = .createIndex ns i
  · obtain ⟨ns, i, rfl⟩ := hindex
    exact (createIndex_cases (Prod.eta (c.createIndex .plain ns i)).symm).1
  · exact (c.perform_administration .plain (fun h op heq => hdocuments ⟨h, op, heq⟩)
      fun ns i heq => hindex ⟨ns, i, heq⟩).1

end Client

end ScopedStore
