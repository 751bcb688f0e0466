import ScopedStore.Proofs.Client.Commit

/-!
# Failed operations leave no trace

An operation on documents changes a view, and only its success hands the changes on: to the catalog,
or in a transaction to the buffered writes of the operation's own namespace. So an operation that
fails, at whatever document or write of a batch, leaves the client as it was but for what it counted
(`documents_leave_no_trace`), and everyone reads after it what they read before (`viewOf_of_failed`).
-/

namespace ScopedStore

namespace Client

variable {c c' : Client} {caller : Caller} {id : SessionId} {s : Session} {t : OpenTransaction}
  {h : Handle} {op : DocumentOp} {e : StoreError} {reply : Reply}

/-- The clients agree in all but what they have counted and the next identifier that they make. -/
def SameStore (c c' : Client) : Prop := c' = { c with seed := c'.seed, stats := c'.stats }

theorem sameStore_countOperation (c : Client) (caller : Caller) :
    SameStore c (c.countOperation caller) := by
  cases caller <;> rfl

theorem SameStore.trans {c'' : Client} (h : SameStore c c') (h' : SameStore c' c'') :
    SameStore c c'' := by
  rw [SameStore] at h h' ⊢
  rw [h', h]

theorem SameStore.catalog (h : SameStore c c') : c'.catalog = c.catalog := by
  rw [h]

theorem SameStore.sessions (h : SameStore c c') : c'.sessions = c.sessions := by
  rw [h]

/-! ## Failure -/

theorem sameStore_of_runDirect (hrun : c.runDirect h op = (.error e, c')) : SameStore c c' := by
  rw [runDirect] at hrun
  split at hrun
  · cases hrun
    rfl
  · dsimp only at hrun
    split at hrun <;> cases hrun
    rfl

theorem sameStore_of_runBuffered (hrun : c.runBuffered id s t h op = (.error e, c')) :
    SameStore c c' := by
  rw [runBuffered] at hrun
  split at hrun
  · cases hrun
    rfl
  · dsimp only at hrun
    split at hrun <;> cases hrun
    rfl

theorem sameStore_of_failed (hrun : c.perform caller (.documents h op) = (.error e, c')) :
    SameStore c c' := by
  have hcount := c.sameStore_countOperation caller
  rw [perform, runDocuments] at hrun
  split at hrun
  · cases hrun
    rfl
  · dsimp only at hrun
    split at hrun
    · cases hrun
      exact hcount
    · split at hrun
      · exact hcount.trans (sameStore_of_runBuffered hrun)
      · exact hcount.trans (sameStore_of_runDirect hrun)

theorem docs_load_eq (cat : Catalog) (ns : Namespace) (writes : Writes) (seed seed' : Nat) :
    (View.load cat ns writes seed).map View.docs = (View.load cat ns writes seed').map View.docs := by
  rw [View.load, View.load]
  cases ((cat.collection? ns).getD {}).documents with
  | error e => rfl
  | ok docs =>
    rw [ok_bind, ok_bind]
    cases writes.overlay docs <;> rfl

theorem viewOf_of_failed (hrun : c.perform caller (.documents h op) = (.error e, c'))
    (reader : Caller) (ns : Namespace) :
    (c'.viewOf reader ns).map View.docs = (c.viewOf reader ns).map View.docs := by
  have hsame := sameStore_of_failed hrun
  rw [viewOf, viewOf, writesOf_of_eq hsame.sessions, hsame.catalog]
  exact docs_load_eq c.catalog ns (c.writesOf reader ns) c'.seed c.seed

/-! ## Success -/

theorem buffers_of_succeeded (hopen : c.transactionOf? caller = some (id, s, t))
    (hrun : c.perform caller (.documents h op) = (.ok reply, c')) :
    c'.catalog = c.catalog ∧ ∃ pending : Pending,
      c'.sessions =
        (c.setSession id { s with transaction := some { t with pending := pending } }).sessions ∧
      ∀ ns, ns ≠ h.ns → pending.find? ns = t.pending.find? ns := by
  rw [perform] at hrun
  rcases runDocuments_cases hrun with ⟨-, -, e, he⟩ | ⟨hnone, -⟩ | ⟨id', s', t', hopen', hrun⟩
  · cases he
  · rw [hopen] at hnone
    cases hnone
  · cases hopen.symm.trans hopen'
    obtain ⟨hcatalog, ⟨-, e, he⟩ | ⟨-, v, -, -, hsessions⟩⟩ := runBuffered_cases hrun
    · cases he
    · rw [countOperation_catalog] at hcatalog
      rw [setSession, countOperation_sessions] at hsessions
      exact ⟨hcatalog, t.pending.record h.ns v.changes, hsessions,
        fun ns hns => t.pending.find?_record_of_ne hns v.changes⟩

theorem applies_of_succeeded (hnone : c.transactionOf? caller = none)
    (hrun : c.perform caller (.documents h op) = (.ok reply, c')) :
    c'.sessions = c.sessions ∧
      ∀ ns, ns ≠ h.ns → c'.catalog.collection? ns = c.catalog.collection? ns := by
  rw [perform] at hrun
  rcases runDocuments_cases hrun with ⟨-, -, e, he⟩ | ⟨-, hrun⟩ | ⟨id, s, t, hopen, -⟩
  · cases he
  · obtain ⟨hsessions, ⟨-, e, he⟩ | ⟨-, v, -, -, happly⟩⟩ := runDirect_cases hrun
    · cases he
    · rw [countOperation_sessions] at hsessions
      refine ⟨hsessions, fun ns hns => ?_⟩
      rw [Catalog.applyChanges_eq_ok happly ns, if_neg hns, countOperation_catalog]
  · rw [hnone] at hopen
    cases hopen

/-- An operation on documents that fails leaves the client as it was but for what it has counted and
the identifiers it makes next, so that no caller reads anything else in any namespace than before. One
that succeeds in a transaction leaves the catalog, every other session and the buffered writes of
every other namespace; one that succeeds outside leaves every session and every other collection. -/
theorem documents_leave_no_trace (c : Client) (caller : Caller) (h : Handle) (op : DocumentOp) :
    let outcome := (c.perform caller (.documents h op)).1
    let c' := (c.perform caller (.documents h op)).2
    (∀ e, outcome = .error e →
      c' = { c with seed := c'.seed, stats := c'.stats } ∧
        ∀ reader ns,
          (c'.viewOf reader ns).map View.docs = (c.viewOf reader ns).map View.docs) ∧
      (∀ reply id s t, outcome = .ok reply → c.transactionOf? caller = some (id, s, t) →
        c'.catalog = c.catalog ∧ ∃ pending : Pending,
          c'.sessions =
            (c.setSession id { s with transaction := some { t with pending := pending } }).sessions ∧
          ∀ ns, ns ≠ h.ns → pending.find? ns = t.pending.find? ns) ∧
      ∀ reply, outcome = .ok reply → c.transactionOf? caller = none →
        c'.sessions = c.sessions ∧
          ∀ ns, ns ≠ h.ns → c'.catalog.collection? ns = c.catalog.collection? ns := by
  intro outcome c'
  refine ⟨fun e he => ?_, fun reply id s t hreply hopen => ?_, fun reply hreply hnone => ?_⟩
  · have hrun : c.perform caller (.documents h op) = (.error e, c') := Prod.ext he rfl
    exact ⟨sameStore_of_failed hrun, viewOf_of_failed hrun⟩
  · exact buffers_of_succeeded hopen (Prod.ext hreply rfl)
  · exact applies_of_succeeded hnone (Prod.ext hreply rfl)

/-! ## A batch that fails late -/

/-- Deletes an entry, changes the other one and inserts a third, and then inserts it once more. -/
def brokenBatch : DocumentOp :=
  .bulkWrite [.deleteOne (.id (.integer 1)),
    .replaceOne (.id (.integer 4)) (entry 4 44) false,
    .insertOne (entry 5 50),
    .insertOne (entry 5 55)]

theorem documents_leave_no_trace_brokenBatch :
    let c := (fresh true 0).run ledgerRun
    let c' := (c.perform (.session ⟨1⟩) (.documents { ns := ledger } brokenBatch)).2
    c.Reachable ∧
      (c.perform (.session ⟨1⟩) (.documents { ns := ledger } brokenBatch)).1 =
        .error (.duplicateKey ledger Index.idName [.integer 5]) ∧
      c'.catalog = c.catalog ∧
      c'.session? ⟨1⟩ = some { transaction := some { pending := ledgerPending } } := by
  have hsession : ((fresh true 0).run ledgerRun).session? ⟨1⟩ =
      some { transaction := some { pending := ledgerPending } } := by
    decide +kernel
  have hfailed : (((fresh true 0).run ledgerRun).perform (.session ⟨1⟩)
      (.documents { ns := ledger } brokenBatch)).1 =
        .error (.duplicateKey ledger Index.idName [.integer 5]) := by
    rfl
  obtain ⟨hsame, -⟩ := (documents_leave_no_trace ((fresh true 0).run ledgerRun) (.session ⟨1⟩)
    { ns := ledger } brokenBatch).1 _ hfailed
  refine ⟨reachable_ledgerRun, hfailed, SameStore.catalog hsame, ?_⟩
  rw [session?_of_eq (SameStore.sessions hsame), hsession]

end Client

end ScopedStore
