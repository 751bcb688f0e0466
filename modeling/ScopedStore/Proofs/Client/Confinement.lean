import ScopedStore.Proofs.Client.NoTrace
import ScopedStore.Proofs.Client.Readability

/-!
# Narrowed handles

A handle that is narrowed by a chain of filters reaches only the documents that all of them accept.
Nothing that is done through it changes another document, whatever the operation and its outcome
(`holds_of_outside`). What is read through it is what a handle that is not narrowed reads from any
client that holds just those documents, but for one case: the operation decodes the other documents of
the collection too, and fails if it cannot (`reads_narrowed_iff`).
-/

namespace ScopedStore

def DocumentOp.isRead : DocumentOp → Bool
  | .findOne _ _ | .find _ _ | .count _ | .distinct _ _ | .aggregate _ => true
  | _ => false

/-! ## Chains of filters -/

namespace Handle

theorem ns_foldl_withFilter (filters : List Filter) (h : Handle) :
    (filters.foldl withFilter h).ns = h.ns := by
  induction filters generalizing h with
  | nil => rfl
  | cons f rest ih => exact ih (h.withFilter f)

theorem narrow_foldl_withFilter (filters : List Filter) (h : Handle) :
    (filters.foldl withFilter h).narrow = filters.foldl Filter.and h.narrow := by
  induction filters generalizing h with
  | nil => rfl
  | cons f rest ih => exact ih (h.withFilter f)

theorem ordered_foldl_withFilter {filters : List Filter} (hfilters : ∀ f ∈ filters, f.Ordered)
    {h : Handle} (hnarrow : h.narrow.Ordered) : (filters.foldl withFilter h).narrow.Ordered := by
  induction filters generalizing h with
  | nil => exact hnarrow
  | cons f rest ih =>
    exact ih (fun g hg => hfilters g (List.mem_cons_of_mem _ hg))
      (hnarrow.and (hfilters f List.mem_cons_self))

end Handle

/-! ## Reading a view -/

namespace View

variable {v v' : View} {narrow : Filter}

theorem matching_of_narrowed (h : v'.documents = v.documents.filter narrow.accepts) (f : Filter) :
    v.matching (narrow.and f) = v'.matching f := by
  rw [matching, matching, h, Filter.filter_accepts_and]

theorem exists_run_of_isRead {op : DocumentOp} (hread : op.isRead = true) (narrow : Filter)
    (v : View) : ∃ reply, op.run narrow v = .ok (reply, v) := by
  cases op with
  | findOne f o | find f o | count f | distinct field f | aggregate stages => exact ⟨_, rfl⟩
  | _ => cases hread

theorem run_of_narrowed (h : v'.documents = v.documents.filter narrow.accepts) {op : DocumentOp}
    (hread : op.isRead = true) :
    ∃ reply, op.run narrow v = .ok (reply, v) ∧ op.run .all v' = .ok (reply, v') := by
  have hmatching (f : Filter) : v'.matching (Filter.all.and f) = v.matching (narrow.and f) :=
    (matching_of_narrowed h f).symm
  cases op with
  | findOne f o | find f o | count f | distinct field f =>
    refine ⟨_, rfl, ?_⟩
    rw [DocumentOp.run, hmatching]
  | aggregate stages =>
    refine ⟨_, rfl, ?_⟩
    have hall : v'.matching .all = v.matching narrow := by
      rw [matching, matching, h, List.filter_filter]
      congr 1
    rw [DocumentOp.run, hall]
  | _ => cases hread

theorem documents_of_restricted (hv : v.docs.Sorted) (hv' : v'.docs.Sorted)
    (h : ∀ id d, v'.docs.find? id = some d ↔
      v.docs.find? id = some d ∧ narrow.accepts d = true) :
    v'.documents = v.documents.filter narrow.accepts := by
  let kept : Documents := ⟨v.docs.entries.filter fun e => narrow.accepts e.2⟩
  have hkept : kept.Sorted := List.Pairwise.filter _ hv
  have heq : v'.docs = kept := by
    refine SortedMap.ext_find? hv' hkept fun id => Option.ext fun d => ?_
    rw [h, hkept.find?_eq_some_iff, hv.find?_eq_some_iff]
    exact (List.mem_filter (p := fun e : Value × Document => narrow.accepts e.2)).symm
  rw [documents, heq, documents]
  show (v.docs.entries.filter fun e => narrow.accepts e.2).map Prod.snd = _
  rw [SortedMap.values, List.filter_map]
  rfl

end View

namespace Client

variable {c c' : Client} {caller : Caller} {h : Handle} {op : DocumentOp} {ns : Namespace}
  {id : Value} {d : Document} {v : View}

/-! ## What a client holds for a caller -/

/-- The bytes that a caller has under an identifier: those of its open transaction, or the committed
ones. -/
def kept? (c : Client) (caller : Caller) (ns : Namespace) (id : Value) : Option Bytes :=
  ((c.writesOf caller ns).find? id).elim ((c.catalog.collection ns).stored.find? id) Write.bytes?

/-- A caller has a document under an identifier, whether or not it can be decoded. -/
def Holds (c : Client) (caller : Caller) (ns : Namespace) (id : Value) (d : Document) : Prop :=
  d.Ordered ∧ c.kept? caller ns id = some d.encode

theorem Valid.writtenFor_of_kept? (hc : c.Valid) {bytes : Bytes}
    (hbytes : c.kept? caller ns id = some bytes) : WrittenFor id bytes := by
  rw [kept?] at hbytes
  cases hwrite : (c.writesOf caller ns).find? id with
  | none =>
    rw [hwrite] at hbytes
    exact (hc.catalog.collection ns).written id bytes hbytes
  | some w =>
    rw [hwrite] at hbytes
    exact (hc.writesOf caller ns).written _ (SortedMap.mem_of_find? hwrite) bytes hbytes

theorem find?_of_viewOf (hc : c.Valid) (hview : c.viewOf caller ns = .ok v) (id : Value) :
    v.docs.find? id = (c.kept? caller ns id).bind Document.decode? := by
  rw [View.find?_of_load (hc.writesOf caller ns).sorted hview, Writes.shownOver, kept?]
  show ((c.writesOf caller ns).find? id).elim _ _ = _
  cases (c.writesOf caller ns).find? id <;> rfl

theorem isSome_decode?_of_viewOf (hview : c.viewOf caller ns = .ok v) {bytes : Bytes}
    (hbytes : c.kept? caller ns id = some bytes) : (Document.decode? bytes).isSome := by
  obtain ⟨hstored, hwrites⟩ := View.load_isOk_iff.1 ⟨v, hview⟩
  rw [kept?] at hbytes
  cases hwrite : (c.writesOf caller ns).find? id with
  | none =>
    rw [hwrite] at hbytes
    exact hstored (id, bytes) (SortedMap.mem_of_find? hbytes)
  | some w =>
    rw [hwrite] at hbytes
    exact hwrites _ (SortedMap.mem_of_find? hwrite) bytes hbytes

theorem find?_iff_holds (hc : c.Valid) (hview : c.viewOf caller ns = .ok v) :
    v.docs.find? id = some d ↔ c.Holds caller ns id d := by
  rw [find?_of_viewOf hc hview, Holds]
  constructor
  · intro hd
    obtain ⟨bytes, hbytes, hdecode⟩ := Option.bind_eq_some_iff.1 hd
    obtain ⟨d', hordered, -, rfl⟩ := hc.writtenFor_of_kept? hbytes
    rw [Document.eq_of_decode?_encode hordered hdecode]
    exact ⟨hordered, hbytes⟩
  · rintro ⟨hordered, hbytes⟩
    obtain ⟨d', hd'⟩ := Option.isSome_iff_exists.1 (isSome_decode?_of_viewOf hview hbytes)
    rw [hbytes, Option.bind_some, hd', Document.eq_of_decode?_encode hordered hd']

/-! ## Reading -/

theorem check_of_isRead (hread : op.isRead = true) : op.check = .ok () := by
  cases op with
  | findOneAndUpdate => cases hread
  | _ => rfl

theorem setSession_of_session? {id : SessionId} {s : Session} (hs : c.session? id = some s) :
    c.setSession id s = c := by
  rw [session?, if_neg (number_ne_zero hs)] at hs
  obtain ⟨hlt, hget⟩ := List.getElem?_eq_some_iff.1 hs
  rw [setSession, ← hget, List.set_getElem_self]

theorem frame_of_viewOf {ns : Namespace} {v : View} (hview : c.viewOf caller ns = .ok v) :
    v.ns = ns ∧ v.indexes = (c.catalog.collection ns).indexes ∧ v.seed = c.seed ∧ v.changes = [] := by
  obtain ⟨loaded, docs, -, -, rfl⟩ := View.load_eq_ok_iff.1 hview
  exact ⟨rfl, rfl, rfl, rfl⟩

theorem perform_of_isRead (hread : op.isRead = true) :
    c.perform caller (.documents h op) =
      (do
        let _ ← c.lock caller
        let v ← c.viewOf caller h.ns
        (op.run h.narrow v).map Prod.fst, c.countOperation caller) := by
  rw [perform, runDocuments, check_of_isRead hread]
  simp only [countOperation_lock]
  cases hlock : c.lock caller with
  | error e => rfl
  | ok locked =>
    have hopen : c.transactionOf? caller = openTransaction locked := by rw [transactionOf?, hlock]
    rw [ok_bind]
    simp only
    cases hview : c.viewOf caller h.ns with
    | error e =>
      have hon {writes : Writes} (hwrites : c.writesOf caller h.ns = writes) :
          (c.countOperation caller).runOn h writes op = .error e := by
        rw [countOperation_runOn, runOn, ← hwrites, show View.load _ _ _ _ = .error e from hview]
        rfl
      split
      · rename_i id s t hlocked
        rw [runBuffered, hon (writesOf_eq (hopen.trans hlocked) h.ns)]
        rfl
      · rename_i hlocked
        rw [runDirect, hon (writesOf_eq_empty (hopen.trans hlocked) h.ns)]
        rfl
    | ok v =>
      obtain ⟨reply, hrun⟩ := View.exists_run_of_isRead hread h.narrow v
      obtain ⟨-, -, hseed, hchanges⟩ := frame_of_viewOf hview
      have hon {writes : Writes} (hwrites : c.writesOf caller h.ns = writes) :
          (c.countOperation caller).runOn h writes op = .ok (reply, v) := by
        rw [countOperation_runOn]
        exact runOn_eq_ok_iff.2 ⟨v, hwrites ▸ hview, hrun⟩
      have hseed' : { c.countOperation caller with seed := v.seed } = c.countOperation caller := by
        rw [hseed, ← countOperation_seed c caller]
      rw [ok_bind, hrun]
      split
      · rename_i id s t hlocked
        rw [runBuffered, hon (writesOf_eq (hopen.trans hlocked) h.ns)]
        obtain ⟨-, hs, -, ht⟩ := transactionOf?_eq_some_iff.1 (hopen.trans hlocked)
        have hs' : (c.countOperation caller).session? id =
            some { s with transaction := some { t with pending := t.pending } } := by
          rw [session?_of_eq (countOperation_sessions c caller), hs, ← ht]
        simp only [hchanges, hseed', List.isEmpty_nil, Bool.not_true, Bool.and_false, Bool.false_and,
          Bool.false_eq_true, if_false, Pending.record, if_true, setSession_of_session? hs']
        rfl
      · rename_i hlocked
        rw [runDirect, hon (writesOf_eq_empty (hopen.trans hlocked) h.ns)]
        simp only [hchanges, hseed', Catalog.applyChanges, List.isEmpty_nil, if_true]
        rfl

theorem perform_of_run {locked : Option (SessionId × Session)} (hlock : c.lock caller = .ok locked)
    (hread : op.isRead = true) (hview : c.viewOf caller h.ns = .ok v) {reply : Reply}
    (hrun : op.run h.narrow v = .ok (reply, v)) :
    (c.perform caller (.documents h op)).1 = .ok reply := by
  rw [perform_of_isRead hread, hlock, ok_bind, hview, ok_bind, hrun]
  rfl

/-- What is read through a narrowed handle is what a handle that is not narrowed reads from a client
that holds just the documents which the filter accepts, if and only if everything under the caller's
view decodes. -/
theorem reads_narrowed_iff (hc : c.Valid) (hc' : c'.Valid)
    {locked : Option (SessionId × Session)} (hlock : c.lock caller = .ok locked) {v' : View}
    (hview' : c'.viewOf .plain ns = .ok v')
    (hrestricted : ∀ id d, v'.docs.find? id = some d ↔
      c.Holds caller h.ns id d ∧ h.narrow.accepts d = true) (hread : op.isRead = true) :
    (c.perform caller (.documents h op)).1 = (c'.perform .plain (.documents { ns := ns } op)).1 ↔
      ∃ v, c.viewOf caller h.ns = .ok v := by
  have hplain : c'.lock .plain = .ok none := rfl
  have hread' {reply : Reply} (hrun : op.run .all v' = .ok (reply, v')) :
      (c'.perform .plain (.documents { ns := ns } op)).1 = .ok reply :=
    perform_of_run (h := { ns := ns }) hplain hread hview' hrun
  constructor
  · intro heq
    obtain ⟨reply, hrun'⟩ := View.exists_run_of_isRead hread .all v'
    by_contra hnot
    have hfailed := perform_eq_undecodable hlock (check_of_isRead hread)
      fun hdecodes => hnot (View.load_isOk_iff.2 hdecodes)
    rw [heq, hread' hrun'] at hfailed
    cases hfailed
  · rintro ⟨v, hview⟩
    have hv := View.valid_load (hc.catalog.collection h.ns) (hc.writesOf caller h.ns) hview
    have hv' := View.valid_load (hc'.catalog.collection ns) validChanges_empty hview'
    obtain ⟨reply, hrun, hrun'⟩ := View.run_of_narrowed
      (View.documents_of_restricted hv.docs_sorted hv'.docs_sorted fun id d =>
        (hrestricted id d).trans (and_congr_left' (find?_iff_holds hc hview).symm)) hread
    rw [perform_of_run hlock hread hview hrun, hread' hrun']

/-! ## Writing -/

theorem kept?_of_eq (hcatalog : c'.catalog = c.catalog) (hsessions : c'.sessions = c.sessions)
    (caller : Caller) (ns : Namespace) (id : Value) :
    c'.kept? caller ns id = c.kept? caller ns id := by
  rw [kept?, kept?, writesOf_of_eq hsessions, hcatalog]

theorem findIn?_changes_of_outside (hc : c.Valid) (hordered : (Request.documents h op).Ordered)
    (hholds : c.Holds caller h.ns id d) (hout : h.narrow.accepts d ≠ true) {reply : Reply}
    (hon : c.runOn h (c.writesOf caller h.ns) op = .ok (reply, v)) :
    v.Valid ∧ SortedMap.findIn? id v.changes = none := by
  obtain ⟨v₀, hload, hrun⟩ := runOn_eq_ok_iff.1 hon
  have hv₀ := View.valid_load (hc.catalog.collection h.ns) (hc.writesOf caller h.ns) hload
  have hwithin := op.within hordered.1 hordered.2 hv₀ hrun
  have htouched : v₀.touched.find? id = none := by
    obtain ⟨loaded, docs, -, -, rfl⟩ := View.load_eq_ok_iff.1 hload
    rfl
  obtain ⟨-, hkept⟩ :=
    View.StepsWithin.outside hwithin ((find?_iff_holds hc hload).2 hholds) hout
  refine ⟨(View.StepsWithin.steps hwithin).valid hv₀, ?_⟩
  rw [View.findIn?_changes, if_neg (View.find?_touched_eq_none_iff.1 (hkept.trans htouched))]

/-- No operation through a handle changes what a caller holds outside of the handle's filter. -/
theorem holds_of_outside (hc : c.Valid) (hordered : (Request.documents h op).Ordered)
    (hholds : c.Holds caller h.ns id d) (hout : h.narrow.accepts d ≠ true) :
    (c.perform caller (.documents h op)).2.Holds caller h.ns id d := by
  refine ⟨hholds.1, Eq.trans ?_ hholds.2⟩
  have hunwritten {v : View} {reply : Reply}
      (hon : c.runOn h (c.writesOf caller h.ns) op = .ok (reply, v)) :=
    findIn?_changes_of_outside hc hordered hholds hout hon
  rw [perform]
  generalize hafter : c.runDocuments caller h op = after
  obtain ⟨outcome, c'⟩ := after
  rcases runDocuments_cases hafter with
    ⟨hcatalog, hsessions, -⟩ | ⟨hclosed, hrun⟩ | ⟨sid, s, t, hopen, -⟩
  · exact kept?_of_eq hcatalog hsessions caller h.ns id
  · obtain ⟨hsessions, ⟨hcatalog, -⟩ | ⟨reply, v, -, hon, happly⟩⟩ := runDirect_cases hrun
    · rw [countOperation_sessions] at hsessions
      rw [countOperation_catalog] at hcatalog
      exact kept?_of_eq hcatalog hsessions caller h.ns id
    · rw [countOperation_sessions] at hsessions
      rw [countOperation_runOn, ← writesOf_eq_empty hclosed h.ns] at hon
      rw [countOperation_catalog] at happly
      obtain ⟨hv, hnone⟩ := hunwritten hon
      have hstored : (c'.catalog.collection h.ns).stored.find? id =
          (c.catalog.collection h.ns).stored.find? id := by
        rw [Catalog.collection_of_applyChanges happly, if_pos rfl, Collection.foldl_applyChange]
        exact (SortedMap.find?_reviseAll _ _ hv.changes.sorted id).trans (by rw [hnone]; rfl)
      rw [kept?, kept?, writesOf_of_eq hsessions, hstored]
  · obtain ⟨rfl, hs, -, ht⟩ := transactionOf?_eq_some_iff.1 hopen
    cases outcome with
    | error e =>
      have hsame : SameStore c c' := sameStore_of_failed hafter
      exact kept?_of_eq hsame.catalog hsame.sessions _ h.ns id
    | ok reply =>
      obtain ⟨hcatalog, v, hon, hopen'⟩ := buffered_of_perform hc hs ht hafter
      rw [← writesOf_eq hopen] at hon
      obtain ⟨hv, hnone⟩ := hunwritten hon
      have hwrites : (c'.writesOf (.session sid) h.ns).find? id =
          (c.writesOf (.session sid) h.ns).find? id := by
        rw [writesOf_eq hopen', writesOf_eq hopen,
          Pending.find?_writesOf_record _ _ hv.changes.sorted, hnone]
        rfl
      rw [kept?, kept?, hwrites, hcatalog]

/-! ## A client that holds a part of the documents -/

def holding (ns : Namespace) (docs : List (Value × Document)) : Client :=
  { catalog := ({} : Catalog).put ns { stored := ⟨docs.map fun e => (e.1, e.2.encode)⟩ } }

theorem exists_restricted (hc : c.Valid) (hview : c.viewOf caller ns = .ok v)
    (P : Document → Prop) :
    ∃ (c' : Client) (v' : View), c'.Valid ∧ c'.viewOf .plain ns = .ok v' ∧
      ∀ id d, v'.docs.find? id = some d ↔ c.Holds caller ns id d ∧ P d := by
  classical
  have hv := View.valid_load (hc.catalog.collection ns) (hc.writesOf caller ns) hview
  let docs := v.docs.entries.filter fun e => decide (P e.2)
  have hmem {id : Value} {d : Document} :
      (id, d) ∈ docs ↔ v.docs.find? id = some d ∧ P d := by
    rw [hv.docs_sorted.find?_eq_some_iff, List.mem_filter, decide_eq_true_iff]
  have hreadable {id : Value} {d : Document} (hd : v.docs.find? id = some d) :
      Document.decode? d.encode = some d := by
    obtain ⟨hordered, hbytes⟩ := (find?_iff_holds hc hview).1 hd
    obtain ⟨d', hd'⟩ := Option.isSome_iff_exists.1 (isSome_decode?_of_viewOf hview hbytes)
    rw [hd', Document.eq_of_decode?_encode hordered hd']
  have hcollection : (holding ns docs).catalog.collection ns =
      { stored := ⟨docs.map fun e => (e.1, e.2.encode)⟩ } := by
    rw [Catalog.collection, holding, Catalog.collection?_put_self]
    rfl
  have hsorted : (SortedMap.mk (docs.map fun e => (e.1, e.2.encode))).Sorted :=
    List.pairwise_map.2 (List.Pairwise.filter _ hv.docs_sorted)
  have hfind {id : Value} {bytes : Bytes} :
      (SortedMap.mk (docs.map fun e => (e.1, e.2.encode))).find? id = some bytes ↔
        ∃ d, (v.docs.find? id = some d ∧ P d) ∧ d.encode = bytes := by
    rw [hsorted.find?_eq_some_iff, List.mem_map]
    constructor
    · rintro ⟨e, he, heq⟩
      cases heq
      exact ⟨e.2, hmem.1 he, rfl⟩
    · rintro ⟨d, hd, rfl⟩
      exact ⟨(id, d), hmem.2 hd, rfl⟩
  have hvalid : (holding ns docs).Valid := by
    refine (valid_fresh true 0).of_catalog (Catalog.Valid.put (valid_fresh true 0).catalog ns
      ⟨hsorted, fun id bytes hbytes => ?_, ⟨[], rfl⟩, List.nodup_singleton _⟩) rfl
    obtain ⟨d, ⟨hd, -⟩, rfl⟩ := hfind.1 hbytes
    exact ⟨d, (hv.own id d hd).1, (hv.own id d hd).2, rfl⟩
  obtain ⟨v', hview'⟩ : ∃ v', (holding ns docs).viewOf .plain ns = .ok v' := by
    refine View.load_isOk_iff.2 ⟨?_, Writes.decode_empty⟩
    rw [hcollection]
    intro e he
    obtain ⟨e', he', rfl⟩ := List.mem_map.1 he
    rw [hreadable (hmem.1 he').1]
    rfl
  refine ⟨_, v', hvalid, hview', fun id d => ?_⟩
  have hkept : (holding ns docs).kept? .plain ns id =
      (SortedMap.mk (docs.map fun e => (e.1, e.2.encode))).find? id := by
    rw [kept?, hcollection]
    rfl
  rw [find?_iff_holds hvalid hview', Holds, hkept, hfind, ← find?_iff_holds hc hview]
  constructor
  · rintro ⟨hordered, d', hd', hencode⟩
    have heq := Document.eq_of_decode?_encode hordered (hencode ▸ hreadable hd'.1)
    exact heq ▸ hd'
  · rintro ⟨hd, hP⟩
    exact ⟨(hv.own id d hd).1, d, ⟨hd, hP⟩, rfl⟩

/-! ## All operations -/

theorem runOn_of_succeeded {reply : Reply}
    (hok : (c.perform caller (.documents h op)).1 = .ok reply) :
    ∃ v, c.runOn h (c.writesOf caller h.ns) op = .ok (reply, v) := by
  rw [perform] at hok
  rcases runDocuments_cases (Prod.eta (c.runDocuments caller h op)).symm with
    ⟨-, -, e, hfailed⟩ | ⟨hclosed, hrun⟩ | ⟨id, s, t, hopen, hrun⟩
  · cases hok.symm.trans hfailed
  · obtain ⟨-, ⟨-, e, hfailed⟩ | ⟨reply', v, hreply, hon, -⟩⟩ := runDirect_cases hrun
    · cases hok.symm.trans hfailed
    · cases hok.symm.trans hreply
      rw [countOperation_runOn] at hon
      exact ⟨v, writesOf_eq_empty hclosed h.ns ▸ hon⟩
  · obtain ⟨-, ⟨-, e, hfailed⟩ | ⟨reply', v, hreply, hon, -⟩⟩ := runBuffered_cases hrun
    · cases hok.symm.trans hfailed
    · cases hok.symm.trans hreply
      rw [countOperation_runOn] at hon
      exact ⟨v, writesOf_eq hopen h.ns ▸ hon⟩

/-- Through a handle that is narrowed by a chain of filters a caller reaches its own documents, those
that every filter accepts. What it reads is what a handle that is not narrowed reads from any client
that holds just these, if and only if everything under the caller's view decodes; then there is such a
client. An operation that succeeds takes steps each of which replaces or deletes only an own document.
Whatever the operation and its outcome, the caller holds every other document as before. -/
theorem narrowed_confines_iff {c : Client} (hc : c.Reachable) {caller : Caller}
    {locked : Option (SessionId × Session)} (hlock : c.lock caller = .ok locked) (ns : Namespace)
    {filters : List Filter} (hfilters : ∀ f ∈ filters, f.Ordered) :
    let h : Handle := filters.foldl Handle.withFilter { ns := ns }
    let Own : Document → Prop := fun d => ∀ f ∈ filters, f.accepts d = true
    let HoldsOwn : View → Prop := fun v' =>
      ∀ id d, v'.docs.find? id = some d ↔ c.Holds caller ns id d ∧ Own d
    (∀ (c' : Client) (v' : View), c'.Valid → c'.viewOf .plain ns = .ok v' → HoldsOwn v' →
      ∀ op : DocumentOp, op.isRead = true →
        ((c.perform caller (.documents h op)).1 =
            (c'.perform .plain (.documents { ns := ns } op)).1 ↔
          ∃ v, c.viewOf caller ns = .ok v)) ∧
      ((∃ v, c.viewOf caller ns = .ok v) →
        ∃ (c' : Client) (v' : View), c'.Valid ∧ c'.viewOf .plain ns = .ok v' ∧ HoldsOwn v') ∧
      (∀ op : DocumentOp, op.Ordered → ∀ reply,
        (c.perform caller (.documents h op)).1 = .ok reply →
          ∃ v v', c.viewOf caller ns = .ok v ∧
            c.runOn h (c.writesOf caller ns) op = .ok (reply, v') ∧ View.StepsWithin Own v v') ∧
      ∀ op : DocumentOp, op.Ordered → ∀ id d, c.Holds caller ns id d → ¬Own d →
        (c.perform caller (.documents h op)).2.Holds caller ns id d := by
  intro h Own HoldsOwn
  have hvalid := hc.valid
  have hns : h.ns = ns := Handle.ns_foldl_withFilter filters _
  have hnarrow : h.narrow.Ordered := Handle.ordered_foldl_withFilter hfilters trivial
  have hown (d : Document) : h.narrow.accepts d = true ↔ Own d := by
    rw [Handle.narrow_foldl_withFilter, Filter.accepts_foldl_and]
    exact and_iff_right rfl
  have hOwn : (fun d => h.narrow.accepts d = true) = Own := funext fun d => propext (hown d)
  refine ⟨fun c' v' hc' hview' hholds op hread => ?_, fun ⟨v, hview⟩ =>
    exists_restricted hvalid hview Own, fun op hop reply hok => ?_,
    fun op hop id d hholds hout => ?_⟩
  · have hiff := reads_narrowed_iff (h := h) hvalid hc' hlock hview'
      (fun id d => by rw [hns, hown]; exact hholds id d) hread
    rwa [hns] at hiff
  · obtain ⟨v', hon⟩ := runOn_of_succeeded hok
    obtain ⟨v, hload, hrun⟩ := runOn_eq_ok_iff.1 hon
    have hv := View.valid_load (hvalid.catalog.collection h.ns) (hvalid.writesOf caller h.ns) hload
    have hwithin := op.within hnarrow hop hv hrun
    rw [hOwn] at hwithin
    rw [hns] at hload hon
    exact ⟨v, v', hload, hon, hwithin⟩
  · rw [← hns] at hholds ⊢
    exact holds_of_outside hvalid ⟨hnarrow, hop⟩ hholds fun haccepts => hout ((hown d).1 haccepts)

/-! ## Rooms of two tenants -/

def room (id : Int64) (tenant : Int64) : Document :=
  ⟨[("_id", .integer id), ("tenant", .integer tenant)]⟩

def rooms : Namespace := ⟨"app", "rooms"⟩

def ofTenant (tenant : Int64) : Filter := .eq "tenant" (.integer tenant)

def letRooms (docs : List Document) : Event :=
  .request .plain (.documents { ns := rooms } (.insertMany docs))

theorem ordered_room (id : Int64) (tenant : Int64) : (room id tenant).Ordered :=
  Document.ordered_pair (by decide) trivial trivial

theorem narrowed_confines_iff_rooms :
    let c := (fresh true 0).run [letRooms [room 2 7, room 3 8]]
    let h : Handle := [ofTenant 7].foldl Handle.withFilter { ns := rooms }
    c.Reachable ∧ c.lock .plain = .ok none ∧ (∀ f ∈ [ofTenant 7], f.Ordered) ∧
      (∃ (c' : Client) (v' : View), c'.viewOf .plain rooms = .ok v' ∧
        v'.docs.find? (.integer 3) ≠ some (room 3 8) ∧
        (c.perform .plain (.documents h (.find .all {}))).1 =
          (c'.perform .plain (.documents { ns := rooms } (.find .all {}))).1) ∧
      (c.perform .plain (.documents h (.deleteMany .all))).1 = .ok (.deleted 1) ∧
      (c.perform .plain (.documents h (.deleteMany .all))).2.Holds .plain rooms (.integer 3)
        (room 3 8) := by
  intro c h
  have hreachable : c.Reachable := by
    refine ⟨true, 0, _, fun e he => ?_, rfl⟩
    rw [List.mem_singleton.1 he]
    refine ⟨trivial, fun d hd => ?_⟩
    rcases List.mem_cons.1 hd with rfl | hd
    · exact ordered_room 2 7
    · rw [List.mem_singleton.1 hd]
      exact ordered_room 3 8
  have hfilters : ∀ f ∈ [ofTenant 7], f.Ordered := by
    intro f hf
    rw [List.mem_singleton.1 hf]
    trivial
  have hlock : c.lock .plain = .ok none := rfl
  obtain ⟨hreads, hexists, -, hkeeps⟩ :=
    narrowed_confines_iff hreachable hlock rooms hfilters
  have hview : ∃ v, c.viewOf .plain rooms = .ok v :=
    View.load_isOk_iff.2
      ⟨Catalog.decodes_collection (by decide +kernel) rooms, Writes.decode_empty⟩
  have hbob : c.Holds .plain rooms (.integer 3) (room 3 8) := ⟨ordered_room 3 8, by rfl⟩
  have hdeleted : (((fresh true 0).run [letRooms [room 2 7, room 3 8]]).perform .plain
      (.documents { ns := rooms, narrow := ofTenant 7 } (.deleteMany .all))).1 =
        .ok (.deleted 1) := by
    rfl
  have hother : ¬∀ f ∈ [ofTenant 7], f.accepts (room 3 8) = true := by decide +kernel
  obtain ⟨c', v', hc', hview', hholds⟩ := hexists hview
  refine ⟨hreachable, rfl, hfilters, ⟨c', v', hview', fun hshown => ?_, ?_⟩, hdeleted, ?_⟩
  · exact hother ((hholds _ _).1 hshown).2
  · exact (hreads c' v' hc' hview' hholds (.find .all {}) rfl).2 hview
  · exact hkeeps (.deleteMany .all) trivial _ _ hbob hother

/-- A room that is nested too deeply keeps everyone from reading the rooms of a tenant to whom it does
not belong. -/
theorem reads_fail_of_buried :
    let c := (fresh true 0).run (letRooms [room 2 7] :: burial rooms)
    let c' := (fresh true 0).run [letRooms [room 2 7]]
    let h : Handle := [ofTenant 7].foldl Handle.withFilter { ns := rooms }
    c.Reachable ∧ c'.Reachable ∧
      (c.catalog.collection rooms).stored.entries =
        [(.integer 1, (buried 128).encode), (.integer 2, (room 2 7).encode)] ∧
      (c'.catalog.collection rooms).stored.entries = [(.integer 2, (room 2 7).encode)] ∧
      (ofTenant 7).accepts (buried 128) = false ∧
      (ofTenant 7).accepts (room 2 7) = true ∧
      (c.perform .plain (.documents h (.find .all {}))).1 = .error .undecodable ∧
      (c'.perform .plain (.documents { ns := rooms } (.find .all {}))).1 =
        .ok (.documents [room 2 7]) := by
  intro c c' h
  have hletting : (letRooms [room 2 7]).Ordered := by
    refine ⟨trivial, fun d hd => ?_⟩
    rw [List.mem_singleton.1 hd]
    exact ordered_room 2 7
  have hstored : (c.catalog.collection rooms).stored.entries =
      [(.integer 1, (buried 128).encode), (.integer 2, (room 2 7).encode)] := by
    rfl
  have hfailed : (c.perform .plain (.documents h (.find .all {}))).1 = .error .undecodable := by
    refine perform_eq_undecodable rfl rfl fun hdecodes => ?_
    have hmem : (.integer 1, (buried 128).encode) ∈ (c.catalog.collection rooms).stored.entries := by
      rw [hstored]
      exact List.mem_cons_self
    have hrooms : (c.catalog.collection rooms).Decodes := hdecodes.1
    have hdecode := hrooms _ hmem
    rw [Document.decode?_encode (ordered_buried 128), isReadable_buried] at hdecode
    cases hdecode
  have hfound : (c'.perform .plain (.documents { ns := rooms } (.find .all {}))).1 =
      .ok (.documents (({} : FindOptions).shape [room 2 7])) := by
    rfl
  rw [shape_singleton] at hfound
  refine ⟨⟨true, 0, _, fun e he => ?_, rfl⟩, ⟨true, 0, _, fun e he => ?_, rfl⟩, hstored, by rfl,
    by decide +kernel, by decide +kernel, hfailed, hfound⟩
  · rcases List.mem_cons.1 he with rfl | he
    · exact hletting
    · exact ordered_burial rooms e he
  · rw [List.mem_singleton.1 he]
    exact hletting

end Client

end ScopedStore
