import ScopedStore.Proofs.Client.Run

/-!
# Committing a transaction

A commit accepts the buffered writes exactly when they agree with the catalog in every namespace
(`Catalog.Accepts`), whatever others have committed since the transaction was opened. Then it makes the
view of its session the view of everyone; otherwise the catalog stays as it is.
-/

namespace ScopedStore

namespace Client

theorem viewOf_plain (c : Client) (ns : Namespace) :
    c.viewOf .plain ns = View.load c.catalog ns ∅ c.seed := rfl

theorem viewOf_session {c : Client} (hc : c.Valid) {id : SessionId} {s : Session}
    {t : OpenTransaction} (hs : c.session? id = some s) (ht : s.transaction = some t)
    (ns : Namespace) :
    c.viewOf (.session id) ns = View.load c.catalog ns (t.pending.writesOf ns) c.seed := by
  rw [viewOf, writesOf_eq (hc.transactionOf? hs ht)]

section Commit

variable {c : Client} {id : SessionId} {s : Session} {t : OpenTransaction}

theorem commitTransaction_eq_ok_iff (hc : c.Valid) (hs : c.session? id = some s)
    (ht : s.transaction = some t)
    (hdecode : ∀ ns, (c.catalog.collection ns).Decodes ∧
      Writes.Decode (t.pending.writesOf ns).entries)
    (hunarmed : c.faults.commits = 0) :
    (c.commitTransaction id).1 = .ok () ↔
      ∀ ns, c.catalog.Accepts c.autoCreate ns (t.pending.writesOf ns) := by
  have hpending := hc.pending id s t hs ht
  have haccepts (ns : Namespace) :
      c.catalog.checkWrites c.autoCreate ns (t.pending.writesOf ns) = .ok () ↔
        c.catalog.Accepts c.autoCreate ns (t.pending.writesOf ns) :=
    Catalog.checkWrites_eq_ok_iff hc.catalog (hdecode ns).1 (hpending.writesOf ns) (hdecode ns).2
  rw [(commitTransaction_of_unarmed hs ht hunarmed).1, ← forall_congr' haccepts]
  rcases c.catalog.commit_cases c.autoCreate hpending.sorted with
    ⟨cat, hcommit, hcheck, -⟩ | ⟨e, hcommit, hcheck⟩ <;> rw [hcommit]
  · exact iff_of_true rfl hcheck
  · exact iff_of_false (fun hok => by cases hok) hcheck

theorem catalog_of_refused (hc : c.Valid) (hs : c.session? id = some s)
    (ht : s.transaction = some t) (hunarmed : c.faults.commits = 0)
    (hfailed : (c.commitTransaction id).1 ≠ .ok ()) :
    (c.commitTransaction id).2.catalog = c.catalog := by
  obtain ⟨houtcome, hcatalog, -, -⟩ := commitTransaction_of_unarmed hs ht hunarmed
  rw [houtcome] at hfailed
  rcases c.catalog.commit_cases c.autoCreate (hc.pending id s t hs ht).sorted with
    ⟨cat, hcommit, -, -⟩ | ⟨e, hcommit, -⟩
  · rw [hcommit] at hfailed
    exact absurd rfl hfailed
  · rw [hcatalog, hcommit]

theorem collection?_of_committed (hc : c.Valid) (hs : c.session? id = some s)
    (ht : s.transaction = some t) (hunarmed : c.faults.commits = 0)
    (hok : (c.commitTransaction id).1 = .ok ()) (ns : Namespace) :
    (c.commitTransaction id).2.catalog.collection? ns =
      Catalog.changed (t.pending.writesOf ns).entries (c.catalog.collection? ns) := by
  obtain ⟨houtcome, hcatalog, -, -⟩ := commitTransaction_of_unarmed hs ht hunarmed
  rw [houtcome] at hok
  rcases c.catalog.commit_cases c.autoCreate (hc.pending id s t hs ht).sorted with
    ⟨cat, hcommit, -, hcat⟩ | ⟨e, hcommit, -⟩
  · rw [hcatalog, hcommit, hcat ns]
  · rw [hcommit] at hok
    cases hok

theorem viewOf_of_committed (hc : c.Valid) (hs : c.session? id = some s)
    (ht : s.transaction = some t) (hunarmed : c.faults.commits = 0)
    (hok : (c.commitTransaction id).1 = .ok ()) {ns : Namespace} {v : View}
    (hview : c.viewOf (.session id) ns = .ok v) :
    (c.commitTransaction id).2.viewOf .plain ns = .ok v := by
  obtain ⟨-, -, -, hseed⟩ := commitTransaction_of_unarmed hs ht hunarmed
  rw [viewOf_session hc hs ht] at hview
  rw [viewOf_plain, hseed]
  exact View.load_of_changed (hc.catalog.collection ns) ((hc.pending id s t hs ht).writesOf ns)
    (collection?_of_committed hc hs ht hunarmed hok ns) hview

end Commit

/-- Where everything decodes, an unarmed commit of an open transaction succeeds exactly when the
catalog accepts its buffered writes in every namespace. A commit that succeeds makes what the session
reads in every namespace the committed documents, and keeps indexes and namespaces without buffered
writes. One that is refused keeps the catalog; either way the transaction is closed. A commit that
fails by the fault plan keeps the catalog and all sessions. -/
theorem commitTransaction_publishes {c : Client} (hc : c.Reachable) {id : SessionId} {s : Session}
    {t : OpenTransaction} (hs : c.session? id = some s) (ht : s.transaction = some t)
    (hdecode : ∀ ns, (c.catalog.collection ns).Decodes ∧
      Writes.Decode (t.pending.writesOf ns).entries) :
    let outcome := (c.commitTransaction id).1
    let c' := (c.commitTransaction id).2
    (c.faults.commits = 0 →
      (outcome = .ok () ↔
        ∀ ns, c.catalog.Accepts c.autoCreate ns (t.pending.writesOf ns)) ∧
      (outcome = .ok () → ∀ ns,
        (∃ v, c.viewOf (.session id) ns = .ok v ∧ c'.viewOf .plain ns = .ok v) ∧
          (c'.catalog.collection ns).indexes = (c.catalog.collection ns).indexes ∧
          ((t.pending.writesOf ns).entries = [] →
            c'.catalog.collection? ns = c.catalog.collection? ns)) ∧
      (outcome ≠ .ok () → c'.catalog = c.catalog) ∧
      c'.session? id = some { s with transaction := none }) ∧
    (c.faults.commits ≠ 0 →
      outcome = .error (.injected "commitTransaction") ∧ c'.catalog = c.catalog ∧
        c'.sessions = c.sessions) := by
  intro outcome c'
  have hvalid := hc.valid
  refine ⟨fun hunarmed => ?_, commitTransaction_of_armed hs ht⟩
  have hclosed : c'.session? id = some { s with transaction := none } := by
    rw [session?_of_eq (commitTransaction_of_unarmed hs ht hunarmed).2.2.1,
      session?_setSession_self hs]
  refine ⟨commitTransaction_eq_ok_iff hvalid hs ht hdecode hunarmed, fun hok ns => ?_,
    catalog_of_refused hvalid hs ht hunarmed, hclosed⟩
  have hcollection := collection?_of_committed hvalid hs ht hunarmed hok ns
  refine ⟨?_, ?_, fun hempty => ?_⟩
  · obtain ⟨v, hload⟩ := View.load_isOk_iff.2 (hdecode ns)
    have hview := (viewOf_session hvalid hs ht ns).trans hload
    exact ⟨v, hview, viewOf_of_committed hvalid hs ht hunarmed hok hview⟩
  · rw [Catalog.collection, hcollection, Catalog.getD_changed, Collection.foldl_applyChange]
    rfl
  · rw [hcollection, hempty]
    rfl

/-! ## A commit of several writes -/

def entry (id amount : Int64) : Document := ⟨[("_id", .integer id), ("amount", .integer amount)]⟩

def ledger : Namespace := ⟨"app", "ledger"⟩

def replaceEntry (id amount : Int64) : DocumentOp :=
  .replaceOne (.id (.integer id)) (entry id amount) false

/-- A session replaces one entry, deletes another and inserts a third in a transaction, while a plain
caller inserts a fourth. -/
def ledgerRun : List Event :=
  [.request .plain (.documents { ns := ledger } (.insertMany [entry 1 10, entry 2 20])),
    .startSession {},
    .startTransaction ⟨1⟩ {},
    .request (.session ⟨1⟩) (.documents { ns := ledger } (replaceEntry 1 11)),
    .request (.session ⟨1⟩) (.documents { ns := ledger } (.deleteOne (.id (.integer 2)))),
    .request (.session ⟨1⟩) (.documents { ns := ledger } (.insertOne (entry 3 30))),
    .request .plain (.documents { ns := ledger } (.insertOne (entry 4 40)))]

def ledgerPending : Pending :=
  ⟨[(ledger, ⟨[(.integer 1, .replace (entry 1 11).encode), (.integer 2, .delete),
    (.integer 3, .insert (entry 3 30).encode)]⟩)]⟩

theorem ordered_entry (id amount : Int64) : (entry id amount).Ordered :=
  Document.ordered_pair (by decide) trivial trivial

theorem reachable_ledgerRun : ((fresh true 0).run ledgerRun).Reachable := by
  refine ⟨true, 0, ledgerRun, fun e he => ?_, rfl⟩
  simp only [ledgerRun, List.mem_cons, List.not_mem_nil, or_false] at he
  rcases he with rfl | rfl | rfl | rfl | rfl | rfl | rfl
  · refine ⟨trivial, fun d hd => ?_⟩
    rcases List.mem_cons.1 hd with rfl | hd
    · exact ordered_entry 1 10
    · rw [List.mem_singleton.1 hd]
      exact ordered_entry 2 20
  · trivial
  · trivial
  · exact ⟨trivial, trivial, ordered_entry 1 11⟩
  · exact ⟨trivial, trivial⟩
  · exact ⟨trivial, ordered_entry 3 30⟩
  · exact ⟨trivial, ordered_entry 4 40⟩

theorem commitTransaction_publishes_ledgerRun :
    let c := (fresh true 0).run ledgerRun
    let c' := (c.commitTransaction ⟨1⟩).2
    c.Reachable ∧ c.faults.commits = 0 ∧ (c.commitTransaction ⟨1⟩).1 = .ok () ∧
      ∀ ns, ∃ v, c.viewOf (.session ⟨1⟩) ns = .ok v ∧ c'.viewOf .plain ns = .ok v := by
  have hsession : ((fresh true 0).run ledgerRun).session? ⟨1⟩ =
      some { transaction := some { pending := ledgerPending } } := by
    decide +kernel
  have hstored (ns : Namespace) :
      (((fresh true 0).run ledgerRun).catalog.collection ns).Decodes :=
    Catalog.decodes_collection (by decide +kernel) ns
  have hbuffered (ns : Namespace) : Writes.Decode (ledgerPending.writesOf ns).entries :=
    Pending.decode_writesOf (by decide +kernel) ns
  have hok : (((fresh true 0).run ledgerRun).commitTransaction ⟨1⟩).1 = .ok () := by
    rfl
  obtain ⟨hunarmed, -⟩ := commitTransaction_publishes reachable_ledgerRun hsession rfl
    fun ns => ⟨hstored ns, hbuffered ns⟩
  obtain ⟨-, hpublished, -⟩ := hunarmed rfl
  exact ⟨reachable_ledgerRun, rfl, hok, fun ns => (hpublished hok ns).1⟩

end Client

end ScopedStore
