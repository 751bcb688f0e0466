import ScopedStore.Proofs.Batch
import ScopedStore.Proofs.Client.Aftermath
import ScopedStore.Proofs.Client.Representation

/-!
# A batch is the sequence of its writes

A batch works on one view and writes only the net changes at its end, while single operations load and
apply in between. After each write the client that performs the single operations shows what the view of
the batch shows (`KeepsUp`): applying the changes of a view and loading again gives the documents of the
view, as long as they can be read back. At the end both have stored the same bytes (`batch_eq_sequence`).
-/

namespace ScopedStore

namespace Client

/-- Performs the writes of a batch one after the other as single plain operations, up to the first that
fails, and gives their replies. -/
def writeSingly (h : Handle) : List WriteModel → Client → Except StoreError (List Reply) × Client
  | [], c => (.ok [], c)
  | m :: rest, c =>
    match c.perform .plain (.documents h m.op) with
    | (.error e, c) => (.error e, c)
    | (.ok reply, c) =>
      match writeSingly h rest c with
      | (.error e, c) => (.error e, c)
      | (.ok replies, c) => (.ok (reply :: replies), c)

variable {c₀ c c' : Client} {h : Handle} {w₀ w : View} {m : WriteModel} {models : List WriteModel}

theorem ordered_op (hm : m.Ordered) : m.op.Ordered := by
  cases m <;> exact hm

/-! ## What single writes and a batch share -/

/-- A client that has performed single writes shows what the view of a batch shows that has come as
far, and differs from the client before only in the documents of one collection, the identifiers it
makes next and what it has counted. -/
structure KeepsUp (c₀ : Client) (w₀ : View) (h : Handle) (c : Client) (w : View) : Prop where
  valid : c.Valid
  tidy : c.catalog.Tidy
  same : c = { c₀ with catalog := c.catalog, seed := c.seed, stats := c.stats }
  others : ∀ ns, ns ≠ h.ns → c.catalog.collection? ns = c₀.catalog.collection? ns
  place : (c.catalog.collection? h.ns).isSome
  indexes : (c.catalog.collection h.ns).indexes = (c₀.catalog.collection h.ns).indexes
  steps : w₀.Steps w
  view : ∃ v, c.viewOf .plain h.ns = .ok v ∧ v.Alike w

theorem perform_plain_eq {op : DocumentOp} (hcheck : op.check = .ok ())
    (hplace : (c.catalog.collection? h.ns).isSome) {v : View}
    (hview : c.viewOf .plain h.ns = .ok v) :
    (∃ e, op.run h.narrow v = .error e ∧
        c.perform .plain (.documents h op) = (.error e, c.countOperation .plain)) ∨
      ∃ reply v' catalog, op.run h.narrow v = .ok (reply, v') ∧
        c.catalog.applyChanges h.ns v'.changes c.autoCreate = .ok catalog ∧
        c.perform .plain (.documents h op) =
          (.ok reply, { c.countOperation .plain with seed := v'.seed, catalog := catalog }) := by
  have hperform : c.perform .plain (.documents h op) =
      (c.countOperation .plain).deliver none h.ns (op.run h.narrow v) :=
    perform_eq hcheck rfl hview
  cases hrun : op.run h.narrow v with
  | error e => exact .inl ⟨e, rfl, by rw [hperform, hrun]; rfl⟩
  | ok r =>
    obtain ⟨reply, v'⟩ := r
    obtain ⟨catalog, happly⟩ := Catalog.exists_applyChanges.2 fun _ => .inr hplace
    refine .inr ⟨reply, v', catalog, rfl, happly, ?_⟩
    rw [hperform, hrun, deliver, handOn]
    simp only [show openTransaction none = none from rfl, countOperation_catalog,
      countOperation_autoCreate, happly]
    rfl

theorem isSome_collection?_of_applied {cat cat' : Catalog} {ns : Namespace} {changes : Changes}
    {create : Bool} (happly : cat.applyChanges ns changes create = .ok cat')
    (hplace : (cat.collection? ns).isSome) : (cat'.collection? ns).isSome := by
  rw [Catalog.applyChanges_eq_ok happly, if_pos rfl, Catalog.changed]
  split
  · exact hplace
  · rfl

theorem alike_of_applied (hc : c.Valid) {v v' : View} (hview : c.viewOf .plain h.ns = .ok v)
    (hsteps : v.Steps v') (hc' : c'.Valid) (hsessions : c'.sessions = c.sessions)
    (hseed : c'.seed = v'.seed) {create : Bool}
    (happly : c.catalog.applyChanges h.ns v'.changes create = .ok c'.catalog)
    (hdecodes : (c'.catalog.collection h.ns).Decodes) :
    ∃ v'', c'.viewOf .plain h.ns = .ok v'' ∧ v''.Alike v' := by
  obtain ⟨v'', hview''⟩ : ∃ v'', c'.viewOf .plain h.ns = .ok v'' :=
    View.load_isOk_iff.2 ⟨hdecodes, Writes.decode_empty⟩
  have hv := View.valid_load (hc.catalog.collection h.ns) validChanges_empty hview
  have hv'' := View.valid_load (hc'.catalog.collection h.ns) validChanges_empty hview''
  have hv' := hsteps.valid hv
  have hdocs : v''.docs = v'.docs := by
    refine SortedMap.ext_find? hv''.docs_sorted hv'.docs_sorted fun id => ?_
    have hkept := kept?_of_applied hc hview hsteps rfl hsessions happly id
    cases hd : v'.docs.find? id with
    | some d =>
      rw [find?_iff_holds hc' hview'']
      rw [hd, Option.map_some] at hkept
      exact ⟨(hv'.own id d hd).1, hkept⟩
    | none =>
      rw [hd, kept?_of_viewOf hc' hview''] at hkept
      exact Option.map_eq_none_iff.1 hkept
  have hindexes : (c'.catalog.collection h.ns).indexes = (c.catalog.collection h.ns).indexes := by
    rw [Catalog.collection_of_applyChanges happly, if_pos rfl, Collection.foldl_applyChange]
  obtain ⟨hns, hloaded, -⟩ := frame_of_viewOf hview
  obtain ⟨hns'', hloaded'', hseed'', -⟩ := frame_of_viewOf hview''
  obtain ⟨hns', -, hindexes'⟩ := hsteps.frame
  exact ⟨v'', hview'', View.alike_of_eq (hns''.trans (hns'.trans hns).symm) hdocs
    (by rw [hloaded'', hindexes, hindexes', hloaded]) (hseed''.trans hseed)⟩

/-! ## Step by step -/

section Steps

variable (hkeepsUp : KeepsUp c₀ w₀ h c w) (hw₀ : w₀.Valid) (hnarrow : h.narrow.Ordered)
include hkeepsUp hw₀ hnarrow

theorem KeepsUp.perform (hm : m.Ordered) {out : Except StoreError Reply}
    (hrun : c.perform .plain (.documents h m.op) = (out, c'))
    (hdecodes : (c'.catalog.collection h.ns).Decodes) :
    (∃ e, out = .error e ∧ m.op.run h.narrow w = .error e) ∨
      ∃ reply w', out = .ok reply ∧ m.op.run h.narrow w = .ok (reply, w') ∧
        KeepsUp c₀ w₀ h c' w' := by
  obtain ⟨v, hview, halike⟩ := hkeepsUp.view
  have hcorresponds := m.corresponds_run h.narrow halike
  generalize hbatch : m.op.run h.narrow w = outcome at hcorresponds
  rcases perform_plain_eq m.check_op hkeepsUp.place hview with
    ⟨e, hop, hperform⟩ | ⟨reply, v', catalog, hop, happly, hperform⟩
  · rw [hop] at hcorresponds
    cases hcorresponds
    cases hrun.symm.trans hperform
    exact .inl ⟨e, rfl, rfl⟩
  · rw [hop] at hcorresponds
    cases hcorresponds with
    | @ended _ s hbeside =>
      obtain ⟨reply', w'⟩ := s
      obtain ⟨rfl, halike'⟩ := hbeside
      cases hrun.symm.trans hperform
      have hop' := ordered_op hm
      have hv := View.valid_load (hkeepsUp.valid.catalog.collection h.ns) validChanges_empty hview
      have hvalid : (c.perform .plain (.documents h m.op)).2.Valid :=
        hkeepsUp.valid.perform .plain ⟨hnarrow, hop'⟩
      have htidy : (c.perform .plain (.documents h m.op)).2.catalog.Tidy :=
        tidy_perform hkeepsUp.tidy hkeepsUp.valid .plain _
      rw [hperform] at hvalid htidy
      obtain ⟨v'', hview'', halike''⟩ := alike_of_applied hkeepsUp.valid hview
        (m.op.steps hnarrow hop' hv hop) hvalid rfl rfl happly hdecodes
      have hcatalog := Catalog.applyChanges_eq_ok happly
      refine .inr ⟨reply, w', rfl, rfl, hvalid, htidy, ?_, fun ns hns => ?_,
        isSome_collection?_of_applied happly hkeepsUp.place, ?_, ?_, v'', hview'',
        halike''.trans halike'⟩
      · have hsame := hkeepsUp.same
        rw [hsame]
        rfl
      · rw [hcatalog ns, if_neg hns, hkeepsUp.others ns hns]
      · rw [Catalog.collection_of_applyChanges happly, if_pos rfl, Collection.foldl_applyChange]
        exact hkeepsUp.indexes
      · exact hkeepsUp.steps.trans
          (m.op.steps hnarrow hop' (hkeepsUp.steps.valid hw₀) hbatch)

end Steps

theorem writeSingly_of_error {e : StoreError} (rest : List WriteModel)
    (hrun : c.perform .plain (.documents h m.op) = (.error e, c')) :
    c.writeSingly h (m :: rest) = (.error e, c') := by
  rw [writeSingly, hrun]

theorem writeSingly_of_ok {reply : Reply} (rest : List WriteModel)
    (hrun : c.perform .plain (.documents h m.op) = (.ok reply, c')) :
    c.writeSingly h (m :: rest) =
      ((c'.writeSingly h rest).1.map (reply :: ·), (c'.writeSingly h rest).2) := by
  rw [writeSingly, hrun]
  dsimp only
  rcases c'.writeSingly h rest with ⟨outcome, c''⟩
  cases outcome <;> rfl

/-- The single writes fail where the batch fails; where they succeed, the batch ends with the sum of their
replies and the client has kept up with it. -/
theorem keepsUp_writeSingly (hw₀ : w₀.Valid) (hnarrow : h.narrow.Ordered)
    (hmodels : ∀ m ∈ models, m.Ordered) (hkeepsUp : KeepsUp c₀ w₀ h c w)
    (hdecodes : ∀ n ≤ models.length,
      ((c.writeSingly h (models.take n)).2.catalog.collection h.ns).Decodes)
    (b : BulkReply) :
    (∃ e, (c.writeSingly h models).1 = .error e ∧
        View.writeModels h.narrow models b w = .error e) ∨
      ∃ replies w', (c.writeSingly h models).1 = .ok replies ∧
        View.writeModels h.narrow models b w = .ok (replies.foldl BulkReply.add b, w') ∧
        KeepsUp c₀ w₀ h (c.writeSingly h models).2 w' := by
  induction models generalizing c w b with
  | nil => exact .inr ⟨[], w, rfl, rfl, hkeepsUp⟩
  | cons m rest ih =>
    rcases hperform : c.perform .plain (.documents h m.op) with ⟨out, c₁⟩
    have hm := hmodels m List.mem_cons_self
    rw [View.writeModels, View.writeModel_eq]
    have hfirst := hdecodes 1 (by simp)
    rw [List.take_succ_cons, List.take_zero] at hfirst
    cases out with
    | error e =>
      rw [writeSingly_of_error [] hperform] at hfirst
      rw [writeSingly_of_error rest hperform]
      rcases hkeepsUp.perform hw₀ hnarrow hm hperform hfirst with ⟨e', he, hop⟩ | ⟨_, _, hok, -⟩
      · cases he
        rw [hop]
        exact .inl ⟨e, rfl, rfl⟩
      · cases hok
    | ok reply =>
      rw [writeSingly_of_ok [] hperform] at hfirst
      rw [writeSingly_of_ok rest hperform]
      rcases hkeepsUp.perform hw₀ hnarrow hm hperform hfirst with
        ⟨e', he, -⟩ | ⟨reply', w₁, hreply, hop, hkeepsUp₁⟩
      · cases he
      · cases hreply
        have hdecodes₁ (n : Nat) (hn : n ≤ rest.length) :
            ((c₁.writeSingly h (rest.take n)).2.catalog.collection h.ns).Decodes := by
          have hlater := hdecodes (n + 1) (Nat.succ_le_succ hn)
          rwa [List.take_succ_cons, writeSingly_of_ok _ hperform] at hlater
        rw [hop]
        rcases ih (fun m' hm' => hmodels m' (List.mem_cons_of_mem _ hm')) hkeepsUp₁ hdecodes₁
          (b.add reply) with ⟨e, hsingle, hbatch⟩ | ⟨replies, w', hsingle, hbatch, hkeepsUp'⟩
        · exact .inl ⟨e, by rw [hsingle]; rfl, hbatch⟩
        · exact .inr ⟨reply :: replies, w', by rw [hsingle]; rfl, hbatch, hkeepsUp'⟩

/-! ## The batch -/

/-- A catalog that a view of a batch is applied to is the one that the single writes have left. -/
theorem KeepsUp.catalog_eq (hkeepsUp : KeepsUp c₀ w₀ h c w) (hc₀ : c₀.Valid) (htidy : c₀.catalog.Tidy)
    (hplace : (c₀.catalog.collection? h.ns).isSome) (hview : c₀.viewOf .plain h.ns = .ok w₀)
    {catalog : Catalog}
    (happly : c₀.catalog.applyChanges h.ns w.changes c₀.autoCreate = .ok catalog) :
    catalog = c.catalog := by
  have hcatalog := Catalog.applyChanges_eq_ok happly
  have hcollection := Catalog.collection_of_applyChanges happly h.ns
  rw [if_pos rfl] at hcollection
  obtain ⟨v, hview', halike⟩ := hkeepsUp.view
  have hw₀ := View.valid_load (hc₀.catalog.collection h.ns) validChanges_empty hview
  have hchanges := (hkeepsUp.steps.valid hw₀).changes
  have hstored : (catalog.collection h.ns).stored = (c.catalog.collection h.ns).stored := by
    refine SortedMap.ext_find? ?_ (hkeepsUp.valid.catalog.collection h.ns).sorted fun id => ?_
    · rw [hcollection]
      exact ((hc₀.catalog.collection h.ns).foldl_applyChange hchanges).sorted
    · let c₁ : Client := { c₀ with catalog := catalog }
      have hsessions : c₁.sessions = c₀.sessions := rfl
      have hbatch : c₁.kept? .plain h.ns id = (w.docs.find? id).map Document.encode :=
        kept?_of_applied hc₀ hview hkeepsUp.steps rfl hsessions happly id
      have hsingle := kept?_of_viewOf hkeepsUp.valid hview' id
      rw [← halike.docs_eq] at hsingle
      exact hbatch.trans hsingle.symm
  have hindexes : (catalog.collection h.ns).indexes = (c.catalog.collection h.ns).indexes := by
    rw [hcollection, Collection.foldl_applyChange, hkeepsUp.indexes]
  have heq : catalog.collection h.ns = c.catalog.collection h.ns := by
    generalize catalog.collection h.ns = left at hstored hindexes
    generalize c.catalog.collection h.ns = right at hstored hindexes
    obtain ⟨stored, indexes⟩ := left
    obtain ⟨stored', indexes'⟩ := right
    cases hstored
    cases hindexes
    rfl
  refine Catalog.Tidy.ext_collection? (htidy.applyChanges happly) hkeepsUp.tidy fun ns => ?_
  by_cases hns : ns = h.ns
  · obtain ⟨left, hleft⟩ := Option.isSome_iff_exists.1 (isSome_collection?_of_applied happly hplace)
    obtain ⟨right, hright⟩ := Option.isSome_iff_exists.1 hkeepsUp.place
    rw [Catalog.collection_of_eq_some hleft, Catalog.collection_of_eq_some hright] at heq
    rw [hns, hleft, hright, heq]
  · rw [hcatalog, if_neg hns, hkeepsUp.others ns hns]

theorem KeepsUp.seed_eq (hkeepsUp : KeepsUp c₀ w₀ h c w) : w.seed = c.seed := by
  obtain ⟨v, hview, base, touched, rfl⟩ := hkeepsUp.view
  exact (frame_of_viewOf hview).2.2.1

/-- A plain batch on an existing collection is the sequence of its writes, as long as everything that the
sequence stores can be read back: where every single write succeeds, the batch succeeds, adds up their
replies, and leaves the same client but for what it counts; where one fails, the batch fails with the
same error and leaves the client as it was but for what it counts. -/
theorem batch_eq_sequence {c : Client} (hc : c.Reachable) {h : Handle} {models : List WriteModel}
    (hordered : (Request.documents h (.bulkWrite models)).Ordered)
    (hplace : (c.catalog.collection? h.ns).isSome)
    (hdecodes : ∀ n ≤ models.length,
      ((c.writeSingly h (models.take n)).2.catalog.collection h.ns).Decodes) :
    let batch := c.perform .plain (.documents h (.bulkWrite models))
    let singly := c.writeSingly h models
    (∀ replies, singly.1 = .ok replies → ∃ b, batch.1 = .ok (.bulk b) ∧ b.Sums replies ∧
        batch.2 = { singly.2 with stats := batch.2.stats }) ∧
      ∀ e, singly.1 = .error e →
        batch.1 = .error e ∧ batch.2 = { c with stats := batch.2.stats } := by
  intro batch singly
  obtain ⟨hnarrow, hmodels⟩ := hordered
  obtain ⟨w₀, hview⟩ : ∃ w₀, c.viewOf .plain h.ns = .ok w₀ :=
    View.load_isOk_iff.2 ⟨hdecodes 0 (Nat.zero_le _), Writes.decode_empty⟩
  have hw₀ := View.valid_load (hc.valid.catalog.collection h.ns) validChanges_empty hview
  have hinit : KeepsUp c w₀ h c w₀ :=
    ⟨hc.valid, hc.tidy, rfl, fun _ _ => rfl, hplace, rfl, .refl, w₀, hview,
      View.alike_of_eq rfl rfl rfl rfl⟩
  have hrun : (DocumentOp.bulkWrite models).run h.narrow w₀ =
      (View.writeModels h.narrow models {} w₀).map fun r => (.bulk r.1, r.2) := by
    rw [DocumentOp.run]
    cases View.writeModels h.narrow models {} w₀ <;> rfl
  have hcheck : (DocumentOp.bulkWrite models).check = .ok () := rfl
  have hbatch := perform_plain_eq hcheck hplace hview
  rw [hrun] at hbatch
  rcases keepsUp_writeSingly hw₀ hnarrow hmodels hinit hdecodes {} with
    ⟨e, hsingle, hwritten⟩ | ⟨replies, w, hsingle, hwritten, hkeepsUp⟩
  · rw [hwritten] at hbatch
    rcases hbatch with ⟨e', he, hperform⟩ | ⟨_, _, _, hok, -⟩
    · cases he
      refine ⟨fun replies hreplies => ?_, fun e' he' => ?_⟩
      · cases hsingle.symm.trans hreplies
      · cases hsingle.symm.trans he'
        rw [show batch = _ from hperform]
        exact ⟨rfl, rfl⟩
    · cases hok
  · rw [hwritten] at hbatch
    rcases hbatch with ⟨e', he, -⟩ | ⟨reply, v', catalog, hok, happly, hperform⟩
    · cases he
    · cases hok
      refine ⟨fun replies' hreplies => ?_, fun e he => ?_⟩
      · cases hsingle.symm.trans hreplies
        have hcatalog := hkeepsUp.catalog_eq hc.valid hc.tidy hplace hview happly
        have hseed := hkeepsUp.seed_eq
        rw [show batch = _ from hperform]
        refine ⟨_, rfl, BulkReply.sums_foldl_add replies, ?_⟩
        rw [show singly = _ from rfl, hkeepsUp.same, ← hcatalog, ← hseed]
        rfl
      · cases hsingle.symm.trans he

/-! ## A batch on the ledger -/

/-- Inserts an entry, raises the larger ones, replaces one, inserts one by an upsert, and deletes the
inserted entry and inserts it anew. -/
def ledgerBatch : List WriteModel :=
  [.insertOne (entry 5 50),
    .updateMany (.range .atLeast "amount" (.integer 40)) ⟨[.increment "amount" 5]⟩ false,
    .replaceOne (.id (.integer 1)) (entry 1 12) false,
    .updateOne (.id (.integer 6)) ⟨[.set "amount" (.integer 60)]⟩ true,
    .deleteOne (.id (.integer 5)),
    .insertOne (entry 5 51)]

theorem ordered_ledgerBatch : ∀ m ∈ ledgerBatch, m.Ordered := by
  intro m hm
  simp only [ledgerBatch, List.mem_cons, List.not_mem_nil, or_false] at hm
  rcases hm with rfl | rfl | rfl | rfl | rfl | rfl
  · exact ordered_entry 5 50
  · exact ⟨trivial, Update.ordered_single trivial⟩
  · exact ⟨trivial, ordered_entry 1 12⟩
  · exact ⟨trivial, Update.ordered_single trivial⟩
  · exact trivial
  · exact ordered_entry 5 51

theorem batch_eq_sequence_ledgerRun :
    let c := (fresh true 0).run ledgerRun
    let h : Handle := { ns := ledger }
    let batch := c.perform .plain (.documents h (.bulkWrite ledgerBatch))
    let singly := c.writeSingly h ledgerBatch
    c.Reachable ∧
      singly.1 = .ok [.id (.integer 5),
        .updated { matched := 2, modified := 2 }, .updated { matched := 1, modified := 1 },
        .updated { upsertedId := some (.integer 6) }, .deleted 1, .id (.integer 5)] ∧
      batch.1 = .ok (.bulk
        { inserted := 2, matched := 3, modified := 3, deleted := 1, upsertedIds := [.integer 6] }) ∧
      batch.2 = { singly.2 with stats := batch.2.stats } := by
  intro c h batch singly
  have hordered : (Request.documents h (.bulkWrite ledgerBatch)).Ordered :=
    ⟨trivial, ordered_ledgerBatch⟩
  have hplace : (c.catalog.collection? h.ns).isSome := by
    decide +kernel
  have hdecodes : ∀ n ≤ ledgerBatch.length,
      ((c.writeSingly h (ledgerBatch.take n)).2.catalog.collection h.ns).Decodes := by
    decide +kernel
  have hsingly : singly.1 = .ok [.id (.integer 5),
      .updated { matched := 2, modified := 2 }, .updated { matched := 1, modified := 1 },
      .updated { upsertedId := some (.integer 6) }, .deleted 1, .id (.integer 5)] := by
    decide +kernel
  have hreachable : c.Reachable := reachable_ledgerRun
  -- What is left follows from these facts; with its value the run would be computed once more.
  clear_value c
  obtain ⟨hok, -⟩ := batch_eq_sequence hreachable hordered hplace hdecodes
  obtain ⟨b, hb, hsums, hstore⟩ := hok _ hsingly
  have heq : b =
      { inserted := 2, matched := 3, modified := 3, deleted := 1, upsertedIds := [.integer 6] } := by
    obtain ⟨inserted, matched, modified, deleted, upsertedIds⟩ := b
    obtain ⟨rfl, rfl, rfl, rfl, rfl⟩ := hsums
    rfl
  rw [heq] at hb
  exact ⟨hreachable, hsingly, hb, hstore⟩

end Client

end ScopedStore
