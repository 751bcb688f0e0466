import ScopedStore.Proofs.Client.Confinement

/-!
# What an operation leaves

An operation that has a view runs on it, and hands the view on where it succeeds: to the catalog, or to
the buffered writes of the caller's transaction (`perform_eq`). After that the caller holds the documents
that the operation ended with, but for one case: where it deletes what its transaction has inserted,
nothing is left of either, and what is stored shows again (`kept?_of_handOn`).
-/

namespace ScopedStore

/-! ## Applying the changes of a view -/

theorem Collection.Valid.find?_stored {c : Collection} (hc : c.Valid) (hdecodes : c.Decodes)
    (id : Value) : c.stored.find? id = (c.document? id).map Document.encode := by
  cases hbytes : c.stored.find? id with
  | none =>
    rw [Collection.document?, hbytes]
    rfl
  | some bytes =>
    obtain ⟨d, hordered, -, rfl⟩ := hc.written id bytes hbytes
    obtain ⟨d', hd'⟩ := Option.isSome_iff_exists.1 (hdecodes (id, _) (SortedMap.mem_of_find? hbytes))
    rw [Collection.document?, hbytes, Option.bind_some, hd', Document.eq_of_decode?_encode hordered hd',
      Option.map_some]

theorem View.Valid.find?_applied {v : View} (hv : v.Valid) {c : Collection} (hc : c.Valid)
    (hdecodes : c.Decodes) (hbase : v.base.find? = c.document?) (id : Value) :
    (v.changes.foldl Collection.applyChange c).stored.find? id =
      (v.docs.find? id).map Document.encode := by
  rw [Collection.foldl_applyChange]
  refine (SortedMap.find?_reviseAll _ _ hv.changes.sorted id).trans ?_
  cases hw : SortedMap.findIn? id v.changes with
  | none => rw [Option.elim_none, hv.tracked.find?_eq_base hw, hbase, hc.find?_stored hdecodes]
  | some w => exact (of_findIn?_changes hw).1

namespace Client

variable {c c' : Client} {caller : Caller} {h : Handle} {op : DocumentOp} {ns : Namespace}
  {locked : Option (SessionId × Session)} {id : Value} {d : Document} {v v₀ : View}

/-! ## Handing a view on -/

/-- Hands the changes of a view on to the open transaction of a locked session, or to the catalog. -/
def handOn (c : Client) (locked : Option (SessionId × Session)) (ns : Namespace) (v : View) :
    Except StoreError Unit × Client :=
  let c := { c with seed := v.seed }
  match openTransaction locked with
  | some (id, s, t) =>
    if !c.autoCreate && !v.changes.isEmpty && (c.catalog.collection? ns).isNone then
      (.error (.namespaceNotFound ns), c)
    else (.ok (), c.setSession id (s.buffer t ns v.changes))
  | none =>
    match c.catalog.applyChanges ns v.changes c.autoCreate with
    | .ok catalog => (.ok (), { c with catalog := catalog })
    | .error e => (.error e, c)

theorem exists_handOn (c : Client) (locked : Option (SessionId × Session)) {ns : Namespace}
    (hplace : c.autoCreate = true ∨ (c.catalog.collection? ns).isSome) (v : View) :
    ∃ c', c.handOn locked ns v = (.ok (), c') := by
  rw [handOn]
  cases openTransaction locked with
  | none =>
    obtain ⟨catalog, happly⟩ := Catalog.exists_applyChanges.2 fun _ => hplace
    simp only
    rw [happly]
    exact ⟨_, rfl⟩
  | some found =>
    have haccepted : (!c.autoCreate && !v.changes.isEmpty && (c.catalog.collection? ns).isNone) =
        false := by
      rcases hplace with hcreate | hsome
      · rw [hcreate]
        rfl
      · rw [Option.isNone_eq_false_iff.2 hsome, Bool.and_false]
    simp only [haccepted, Bool.false_eq_true, if_false]
    exact ⟨_, rfl⟩

/-- What becomes of the outcome of an operation on a view: a view that it ends with is handed on. -/
def deliver (c : Client) (locked : Option (SessionId × Session)) (ns : Namespace) :
    Except StoreError (Reply × View) → Except StoreError Reply × Client
  | .error e => (.error e, c)
  | .ok (reply, v) => ((c.handOn locked ns v).1.map fun _ => reply, (c.handOn locked ns v).2)

/-- An operation that its caller may ask for, and that has a view, is delivered as it ends there. -/
theorem perform_eq (hcheck : op.check = .ok ()) (hlock : c.lock caller = .ok locked)
    (hview : c.viewOf caller h.ns = .ok v) :
    c.perform caller (.documents h op) =
      (c.countOperation caller).deliver locked h.ns (op.run h.narrow v) := by
  have hopen : c.transactionOf? caller = openTransaction locked := by rw [transactionOf?, hlock]
  have hon {writes : Writes} (hwrites : c.writesOf caller h.ns = writes) :
      (c.countOperation caller).runOn h writes op = op.run h.narrow v := by
    rw [countOperation_runOn, runOn, ← hwrites, show View.load _ _ _ _ = .ok v from hview, ok_bind]
  rw [perform, runDocuments, hcheck]
  simp only [countOperation_lock, hlock]
  cases hlocked : openTransaction locked with
  | some found =>
    obtain ⟨id, s, t⟩ := found
    simp only
    rw [runBuffered, hon (writesOf_eq (hopen.trans hlocked) h.ns)]
    cases op.run h.narrow v with
    | error e => rfl
    | ok r =>
      simp only [deliver, handOn, hlocked]
      split <;> rfl
  | none =>
    simp only
    rw [runDirect, hon (writesOf_eq_empty (hopen.trans hlocked) h.ns)]
    cases op.run h.narrow v with
    | error e => rfl
    | ok r =>
      simp only [deliver, handOn, hlocked]
      generalize Catalog.applyChanges _ _ _ _ = applied
      cases applied <;> rfl

theorem exists_handOn_of_ok {reply : Reply}
    (hrun : c.perform caller (.documents h op) = (.ok reply, c')) :
    ∃ locked v v', op.check = .ok () ∧ c.lock caller = .ok locked ∧ c.viewOf caller h.ns = .ok v ∧
      op.run h.narrow v = .ok (reply, v') ∧
      (c.countOperation caller).handOn locked h.ns v' = (.ok (), c') := by
  have hok : (c.perform caller (.documents h op)).1 = .ok reply := congrArg Prod.fst hrun
  obtain ⟨v', hon⟩ := runOn_of_succeeded hok
  obtain ⟨v, hview, hop⟩ := runOn_eq_ok_iff.1 hon
  have hcheck : op.check = .ok () := by
    rw [perform, runDocuments] at hok
    cases hcheck : op.check with
    | ok u => rfl
    | error e =>
      rw [hcheck] at hok
      cases hok
  obtain ⟨locked, hlock⟩ : ∃ locked, c.lock caller = .ok locked := by
    rw [perform, runDocuments, hcheck] at hok
    simp only [countOperation_lock] at hok
    cases hlock : c.lock caller with
    | ok locked => exact ⟨locked, rfl⟩
    | error e =>
      rw [hlock] at hok
      cases hok
  refine ⟨locked, v, v', hcheck, hlock, hview, hop, ?_⟩
  rw [perform_eq hcheck hlock hview, hop, deliver, Prod.mk.injEq] at hrun
  obtain ⟨_, hhanded, -⟩ := map_eq_ok.1 hrun.1
  exact Prod.ext hhanded hrun.2

/-! ## What the caller holds then -/

theorem kept?_of_viewOf (hc : c.Valid) (hview : c.viewOf caller ns = .ok v) (id : Value) :
    c.kept? caller ns id = (v.docs.find? id).map Document.encode := by
  cases hd : v.docs.find? id with
  | some d => exact ((find?_iff_holds hc hview).1 hd).2
  | none =>
    rw [find?_of_viewOf hc hview] at hd
    cases hbytes : c.kept? caller ns id with
    | none => rfl
    | some bytes =>
      have hdecodes := isSome_decode?_of_viewOf hview hbytes
      rw [hbytes, Option.bind_some] at hd
      rw [hd] at hdecodes
      cases hdecodes

/-- Where a view is handed on, the catalog takes its changes, or the buffered writes do. -/
theorem handOn_cases (hhanded : c.handOn locked ns v = (.ok (), c')) :
    (openTransaction locked = none ∧ c'.sessions = c.sessions ∧
        c.catalog.applyChanges ns v.changes c.autoCreate = .ok c'.catalog) ∨
      ∃ id s t, openTransaction locked = some (id, s, t) ∧ c'.catalog = c.catalog ∧
        c'.sessions = (c.setSession id (s.buffer t ns v.changes)).sessions := by
  rw [handOn] at hhanded
  cases hlocked : openTransaction locked with
  | none =>
    simp only [hlocked] at hhanded
    split at hhanded <;> cases hhanded
    rename_i catalog happly
    exact .inl ⟨rfl, rfl, happly⟩
  | some found =>
    obtain ⟨id, s, t⟩ := found
    simp only [hlocked] at hhanded
    split at hhanded <;> cases hhanded
    exact .inr ⟨id, s, t, rfl, rfl, rfl⟩

section Kept

variable (hc : c.Valid) (hview : c.viewOf caller ns = .ok v₀) (hsteps : v₀.Steps v)
include hc hview hsteps

theorem kept?_of_applied (hclosed : c.transactionOf? caller = none)
    (hsessions : c'.sessions = c.sessions) {create : Bool}
    (happly : c.catalog.applyChanges ns v.changes create = .ok c'.catalog) (id : Value) :
    c'.kept? caller ns id = (v.docs.find? id).map Document.encode := by
  have hempty := writesOf_eq_empty hclosed ns
  have hcollection := hc.catalog.collection ns
  have hwrites := hc.writesOf caller ns
  have hv := hsteps.valid (View.valid_load hcollection hwrites hview)
  have hbase := hsteps.find?_base hwrites.sorted hview
  rw [hempty] at hbase
  rw [kept?, writesOf_of_eq hsessions, hempty, Catalog.collection_of_applyChanges happly, if_pos rfl]
  exact hv.find?_applied hcollection (View.load_isOk_iff.1 ⟨v₀, hview⟩).1 hbase id

theorem kept?_of_buffered {sid : SessionId} {s s' : Session} {t : OpenTransaction}
    (hopen : c.transactionOf? caller = some (sid, s, t)) (hcatalog : c'.catalog = c.catalog)
    (hopen' : c'.transactionOf? caller =
      some (sid, s', { t with pending := t.pending.record ns v.changes })) (id : Value) :
    let hidden := (∃ bytes, (c.writesOf caller ns).find? id = some (.insert bytes)) ∧
      v.docs.find? id = none
    (hidden ∧ c'.kept? caller ns id = (c.catalog.collection ns).stored.find? id) ∨
      (¬hidden ∧ c'.kept? caller ns id = (v.docs.find? id).map Document.encode) := by
  intro hidden
  have hv := hsteps.valid (View.valid_load (hc.catalog.collection ns) (hc.writesOf caller ns) hview)
  have hrecord := t.pending.find?_writesOf_record ns hv.changes.sorted id
  rw [← writesOf_eq hopen ns] at hrecord
  rw [kept?, writesOf_eq hopen', hrecord, hcatalog]
  cases hw : SortedMap.findIn? id v.changes with
  | none =>
    have hdocs : v.docs.find? id = v₀.docs.find? id := by
      rw [hv.tracked.find?_eq_base hw, hsteps.frame.2.1]
      obtain ⟨loaded, docs, -, -, rfl⟩ := View.load_eq_ok_iff.1 hview
      rfl
    have hbefore := kept?_of_viewOf hc hview id
    rw [kept?] at hbefore
    refine .inr ⟨?_, by rw [Option.elim_none, hbefore, hdocs]⟩
    rintro ⟨⟨bytes, hinsert⟩, hnone⟩
    rw [hinsert, ← hdocs, hnone] at hbefore
    cases hbefore
  | some w =>
    have hbytes := (View.of_findIn?_changes hw).1
    rw [Option.elim_some]
    cases hmerge : Write.merge ((c.writesOf caller ns).find? id) w with
    | none =>
      obtain ⟨hinsert, rfl⟩ := Write.merge_eq_none_iff.1 hmerge
      exact .inl ⟨⟨hinsert, Option.map_eq_none_iff.1 hbytes.symm⟩, rfl⟩
    | some w' =>
      refine .inr ⟨?_, by rw [Option.elim_some, Write.bytes?_merge hmerge, hbytes]⟩
      rintro ⟨hinsert, hnone⟩
      rw [hnone] at hbytes
      rw [Write.merge_eq_none_iff.2 ⟨hinsert, Write.bytes?_eq_none_iff.1 hbytes⟩] at hmerge
      cases hmerge

/-- Once a view is handed on, its caller holds its documents, unless the view has deleted what the
caller's transaction had inserted: then the caller holds what is stored. -/
theorem kept?_of_handOn (hlock : c.lock caller = .ok locked)
    (hhanded : (c.countOperation caller).handOn locked ns v = (.ok (), c')) (id : Value) :
    let hidden := (∃ bytes, (c.writesOf caller ns).find? id = some (.insert bytes)) ∧
      v.docs.find? id = none
    (hidden ∧ c'.kept? caller ns id = (c.catalog.collection ns).stored.find? id) ∨
      (¬hidden ∧ c'.kept? caller ns id = (v.docs.find? id).map Document.encode) := by
  have hopen : c.transactionOf? caller = openTransaction locked := by rw [transactionOf?, hlock]
  rcases handOn_cases hhanded with
    ⟨hclosed, hsessions, happly⟩ | ⟨sid, s, t, hlocked, hcatalog, hsessions⟩
  · rw [countOperation_sessions] at hsessions
    rw [countOperation_catalog] at happly
    refine .inr ⟨?_, kept?_of_applied hc hview hsteps (hopen.trans hclosed) hsessions happly id⟩
    rintro ⟨⟨bytes, hinsert⟩, -⟩
    rw [writesOf_eq_empty (hopen.trans hclosed)] at hinsert
    cases hinsert
  · rw [countOperation_catalog] at hcatalog
    obtain ⟨rfl, hs, hended, -⟩ := transactionOf?_eq_some_iff.1 (hopen.trans hlocked)
    have hs' : (c.countOperation (.session sid)).session? sid = some s := by
      rw [session?_of_eq (countOperation_sessions c _), hs]
    have hopen' : c'.transactionOf? (.session sid) = some (sid, s.buffer t ns v.changes,
        { t with pending := t.pending.record ns v.changes }) := by
      refine transactionOf?_eq_some_iff.2 ⟨rfl, ?_, hended, rfl⟩
      rw [session?_of_eq hsessions, session?_setSession_self hs']
    exact kept?_of_buffered hc hview hsteps (hopen.trans hlocked) hcatalog hopen' id

theorem kept?_of_unchanged (hlock : c.lock caller = .ok locked)
    (hhanded : (c.countOperation caller).handOn locked ns v = (.ok (), c'))
    (hsame : v.docs.find? id = v₀.docs.find? id) :
    c'.kept? caller ns id = c.kept? caller ns id := by
  have hbefore := kept?_of_viewOf hc hview id
  rcases kept?_of_handOn hc hview hsteps hlock hhanded id with
    ⟨⟨⟨bytes, hinsert⟩, hnone⟩, -⟩ | ⟨-, hkept⟩
  · rw [← hsame, hnone, kept?, hinsert] at hbefore
    cases hbefore
  · rw [hkept, hbefore, hsame]

theorem holds_of_handOn (hlock : c.lock caller = .ok locked)
    (hhanded : (c.countOperation caller).handOn locked ns v = (.ok (), c'))
    (hd : v.docs.find? id = some d) : c'.Holds caller ns id d := by
  have hv₀ := View.valid_load (hc.catalog.collection ns) (hc.writesOf caller ns) hview
  refine ⟨((hsteps.valid hv₀).own id d hd).1, ?_⟩
  rcases kept?_of_handOn hc hview hsteps hlock hhanded id with ⟨⟨-, hnone⟩, -⟩ | ⟨-, hkept⟩
  · rw [hnone] at hd
    cases hd
  · rw [hkept, hd, Option.map_some]

end Kept

end Client

end ScopedStore
