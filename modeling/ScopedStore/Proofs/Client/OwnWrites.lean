import ScopedStore.Proofs.Client.Run

/-!
# Reading one's own writes

After an operation in a transaction its caller loads the view anew: what is committed, under the merged
writes. This shows the documents that the operation ended with as long as its changes can be read back,
but for one case: a deletion cancels an insertion of the same transaction, and then a document shows
that somebody else has committed under the same identifier in the meantime (`shows_ownWrites_iff`).
-/

namespace ScopedStore

namespace Client

theorem buffered_of_perform {c c' : Client} {id : SessionId} {s : Session} {t : OpenTransaction}
    (hc : c.Valid) (hs : c.session? id = some s) (ht : s.transaction = some t) {h : Handle}
    {op : DocumentOp} {reply : Reply}
    (hrun : c.perform (.session id) (.documents h op) = (.ok reply, c')) :
    c'.catalog = c.catalog ∧ ∃ v, c.runOn h (t.pending.writesOf h.ns) op = .ok (reply, v) ∧
      c'.transactionOf? (.session id) =
        some (id, s.buffer t h.ns v.changes,
          { t with pending := t.pending.record h.ns v.changes }) := by
  have hended := hc.ended_eq_false hs ht
  have hopen := hc.transactionOf? hs ht
  rw [perform] at hrun
  rcases runDocuments_cases hrun with ⟨-, -, e, he⟩ | ⟨hnone, -⟩ | ⟨id', s', t', hopen', hrun⟩
  · cases he
  · rw [hopen] at hnone
    cases hnone
  · cases hopen.symm.trans hopen'
    obtain ⟨hcatalog, ⟨-, e, he⟩ | ⟨reply', v, hreply, hon, hsessions⟩⟩ := runBuffered_cases hrun
    · cases he
    · cases hreply
      rw [countOperation_catalog] at hcatalog
      rw [countOperation_runOn] at hon
      have hs' : (c.countOperation (.session id)).session? id = some s := by
        rw [session?_of_eq (countOperation_sessions c _), hs]
      refine ⟨hcatalog, v, hon, transactionOf?_eq_some_iff.2 ⟨rfl, ?_, hended, rfl⟩⟩
      rw [session?_of_eq hsessions, session?_setSession_self hs']

/-- After an operation in an open transaction the session's next view of the namespace shows exactly
the documents that the operation ended with if and only if what the operation wrote decodes, and
nothing is committed where the operation deleted an insertion of its transaction. -/
theorem shows_ownWrites_iff {c : Client} (hc : c.Reachable) {id : SessionId} {s : Session}
    {t : OpenTransaction} (hs : c.session? id = some s) (ht : s.transaction = some t) {h : Handle}
    {op : DocumentOp} (hordered : (Request.documents h op).Ordered) {reply : Reply} {c' : Client}
    (hrun : c.perform (.session id) (.documents h op) = (.ok reply, c')) :
    ∃ v, c.runOn h (t.pending.writesOf h.ns) op = .ok (reply, v) ∧
      ((c'.viewOf (.session id) h.ns).map View.docs = .ok v.docs ↔
        Writes.Decode v.changes ∧
          ∀ key bytes, (t.pending.writesOf h.ns).find? key = some (.insert bytes) →
            v.docs.find? key = none → (c.catalog.collection h.ns).stored.find? key = none) := by
  have hvalid := hc.valid
  obtain ⟨hcatalog, v, hon, hopen⟩ := buffered_of_perform hvalid hs ht hrun
  refine ⟨v, hon, ?_⟩
  have hpending := hvalid.pending id s t hs ht
  have hwrites := hpending.writesOf h.ns
  have hcollection := hvalid.catalog.collection h.ns
  obtain ⟨v₀, hload, hop⟩ := runOn_eq_ok_iff.1 hon
  have hv₀ := View.valid_load hcollection hwrites hload
  have hsteps := op.steps hordered.1 hordered.2 hv₀ hop
  have hv := hsteps.valid hv₀
  obtain ⟨hstored, hold⟩ := View.load_isOk_iff.1 ⟨v₀, hload⟩
  have hbase := hsteps.find?_base hwrites.sorted hload
  have hmerged := (hpending.record h.ns hv.changes).writesOf h.ns
  have hview : c'.viewOf (.session id) h.ns =
      View.load c.catalog h.ns ((t.pending.record h.ns v.changes).writesOf h.ns) c'.seed := by
    rw [viewOf, writesOf_eq hopen, hcatalog]
  rw [hview]
  constructor
  · intro heq
    obtain ⟨v', hload', hdocs⟩ := map_eq_ok.1 heq
    have hnew := (hv.decode_record_iff hwrites hold).1 (View.load_isOk_iff.1 ⟨v', hload'⟩).2
    refine ⟨hnew, fun key bytes hinsert hdeleted => ?_⟩
    have hshown := congrFun (View.find?_of_load hmerged.sorted hload') key
    rw [hdocs] at hshown
    rcases hv.over_record hbase hold hnew key with ⟨-, hover⟩ | ⟨hnot, -⟩
    · rw [hdeleted] at hshown
      exact Collection.find?_eq_none_of_document? hstored (hover.symm.trans hshown.symm)
    · exact absurd ⟨⟨bytes, hinsert⟩, hdeleted⟩ hnot
  · rintro ⟨hnew, hfree⟩
    obtain ⟨v', hload'⟩ := View.load_isOk_iff.2
      ⟨hstored, (hv.decode_record_iff hwrites hold).2 hnew⟩
    have hv' := View.valid_load hcollection hmerged hload'
    refine map_eq_ok.2 ⟨v', hload', SortedMap.ext_find? hv'.docs_sorted hv.docs_sorted fun key => ?_⟩
    rw [View.find?_of_load hmerged.sorted hload']
    rcases hv.over_record hbase hold hnew key with ⟨⟨⟨bytes, hinsert⟩, hdeleted⟩, hover⟩ | ⟨-, hover⟩
    · rw [hover, hdeleted, Collection.document?, hfree key bytes hinsert hdeleted]
      rfl
    · exact hover

/-! ## A deletion that is overtaken -/

def counter (n : Int64) : Document := ⟨[("_id", .integer 1), ("n", .integer n)]⟩

theorem ordered_counter (n : Int64) : (counter n).Ordered :=
  Document.ordered_pair (by decide) trivial trivial

def counters : Namespace := ⟨"app", "counters"⟩

/-- A session inserts the counter in a transaction, and then a plain caller does. -/
def overtaken : List Event :=
  [.startSession {},
    .startTransaction ⟨1⟩ {},
    .request (.session ⟨1⟩) (.documents { ns := counters } (.insertOne (counter 1))),
    .request .plain (.documents { ns := counters } (.insertOne (counter 2)))]

def overtakenSession : Session :=
  { transaction := some { pending := ⟨[(counters, ⟨[(.integer 1, .insert (counter 1).encode)]⟩)]⟩ } }

def deleteCounter : DocumentOp := .deleteOne (.id (.integer 1))

theorem reachable_overtaken : ((fresh true 0).run overtaken).Reachable := by
  refine ⟨true, 0, overtaken, fun e he => ?_, rfl⟩
  simp only [overtaken, List.mem_cons, List.not_mem_nil, or_false] at he
  rcases he with rfl | rfl | rfl | rfl
  · trivial
  · trivial
  · exact ⟨trivial, ordered_counter 1⟩
  · exact ⟨trivial, ordered_counter 2⟩

theorem shows_ownWrites_iff_of_overtaken :
    let c := (fresh true 0).run overtaken
    let after := c.perform (.session ⟨1⟩) (.documents { ns := counters } deleteCounter)
    c.Reachable ∧ c.session? ⟨1⟩ = some overtakenSession ∧ after.1 = .ok (.deleted 1) ∧
      ∃ t v, overtakenSession.transaction = some t ∧
        c.runOn { ns := counters } (t.pending.writesOf counters) deleteCounter =
          .ok (.deleted 1, v) ∧
        ((after.2.viewOf (.session ⟨1⟩) counters).map View.docs = .ok v.docs ↔
          Writes.Decode v.changes ∧
            ∀ key bytes, (t.pending.writesOf counters).find? key = some (.insert bytes) →
              v.docs.find? key = none →
                (c.catalog.collection counters).stored.find? key = none) := by
  have hsession : ((fresh true 0).run overtaken).session? ⟨1⟩ = some overtakenSession := by
    decide +kernel
  have hreply : (((fresh true 0).run overtaken).perform (.session ⟨1⟩)
      (.documents { ns := counters } deleteCounter)).1 = .ok (.deleted 1) := by
    rfl
  have hordered : (Request.documents { ns := counters } deleteCounter).Ordered := ⟨trivial, trivial⟩
  obtain ⟨v, hv⟩ := shows_ownWrites_iff reachable_overtaken hsession rfl hordered (Prod.ext hreply rfl)
  exact ⟨reachable_overtaken, hsession, hreply, _, v, rfl, hv⟩

theorem shape_singleton (d : Document) : ({} : FindOptions).shape [d] = [d] := by
  simp [FindOptions.shape, sortDocuments]

/-- A document that was just deleted in a transaction is found by the next read in it. -/
theorem finds_deleted_of_overtaken :
    let c := (fresh true 0).run overtaken
    let after := c.perform (.session ⟨1⟩) (.documents { ns := counters } deleteCounter)
    let read := after.2.perform (.session ⟨1⟩) (.documents { ns := counters } (.find .all {}))
    c.Reachable ∧ after.1 = .ok (.deleted 1) ∧ read.1 = .ok (.documents [counter 2]) := by
  have hread : ((((fresh true 0).run overtaken).perform (.session ⟨1⟩)
      (.documents { ns := counters } deleteCounter)).2.perform (.session ⟨1⟩)
        (.documents { ns := counters } (.find .all {}))).1 =
      .ok (.documents (({} : FindOptions).shape [counter 2])) := by
    rfl
  rw [shape_singleton] at hread
  exact ⟨reachable_overtaken, rfl, hread⟩

end Client

end ScopedStore
