import ScopedStore.Operation
import ScopedStore.Proofs.Filter
import ScopedStore.Proofs.Ordered
import ScopedStore.Proofs.Store.View

/-!
# Operations take steps

Whatever an operation on documents does to a view where it succeeds is a sequence of steps: operations
read the view freely, but they change it only by inserting, replacing and deleting one document after
the other. On a handle that is narrowed by a filter every document that a step replaces or deletes is
one that the filter accepts at that step (`DocumentOp.within`). So everything that steps keep is kept by
every operation (`DocumentOp.steps`), and so is every document outside of the filter
(`StepsWithin.outside`).
-/

namespace ScopedStore

namespace View

/-! ## What searches find -/

theorem Valid.mem_documents {v : View} (h : v.Valid) {d : Document} (hd : d ∈ v.documents) :
    ∃ id, v.docs.find? id = some d ∧ d.Ordered ∧ d.id? = some id := by
  obtain ⟨e, he, rfl⟩ := List.mem_map.1 hd
  have hfind := h.docs_sorted.find?_eq_some_iff.2 he
  exact ⟨e.1, hfind, h.own e.1 e.2 hfind⟩

theorem Valid.mem_matching {v : View} (h : v.Valid) {f : Filter} {d : Document}
    (hd : d ∈ v.matching f) : d.Ordered := by
  obtain ⟨id, -, hordered, -⟩ := h.mem_documents (List.mem_filter.1 hd).1
  exact hordered

theorem accepts_of_mem_matching {v : View} {f : Filter} {d : Document} (hd : d ∈ v.matching f) :
    f.accepts d = true :=
  (List.mem_filter.1 hd).2

theorem mem_matching_of_first? {v : View} {f : Filter} {sort : List SortKey} {d : Document}
    (h : v.first? f sort = some d) : d ∈ v.matching f :=
  List.mem_mergeSort.1 (List.mem_of_head? h)

theorem id?_of_storedId {d : Document} {id : Value} (h : d.storedId = .ok id) : d.id? = some id := by
  rw [Document.storedId] at h
  split at h <;> cases h
  assumption

theorem ordered_of_storedId {d : Document} (h : d.Ordered) {id : Value}
    (hid : d.storedId = .ok id) : id.Ordered :=
  h.id? (id?_of_storedId hid)

theorem Valid.find?_of_mem_matching {v : View} (h : v.Valid) {f : Filter} {d : Document}
    (hd : d ∈ v.matching f) {id : Value} (hid : d.id? = some id) : v.docs.find? id = some d := by
  obtain ⟨id', hfind, -, hid'⟩ := h.mem_documents (List.mem_filter.1 hd).1
  rw [hid, Option.some.injEq] at hid'
  exact hid' ▸ hfind

theorem Valid.pairwise_matching {v : View} (h : v.Valid) (f : Filter) :
    (v.matching f).Pairwise fun a b => a.id? ≠ b.id? := by
  refine List.Pairwise.filter _ (List.pairwise_map.2 (h.docs_sorted.imp_of_mem ?_))
  intro a b ha hb hlt heq
  rw [(h.own a.1 a.2 (h.docs_sorted.find?_eq_some_iff.2 ha)).2,
    (h.own b.1 b.2 (h.docs_sorted.find?_eq_some_iff.2 hb)).2, Option.some.injEq] at heq
  simp [heq] at hlt

/-! ## Steps within a part of the documents -/

/-- One change of a view in which a document is replaced or deleted only if it has a property. -/
inductive StepWithin (P : Document → Prop) : View → View → Prop
  | insert {v v' : View} {d : Document} {id : Value} (hd : d.Ordered)
      (h : v.insert d = .ok (id, v')) : StepWithin P v v'
  | replace {v v' : View} {old d : Document} {id : Value} (hid : id.Ordered) (hd : d.Ordered)
      (hold : v.docs.find? id = some old) (hP : P old) (h : v.replace id d = .ok v') :
      StepWithin P v v'
  | delete {v : View} {id : Value} (hP : ∀ old, v.docs.find? id = some old → P old) :
      StepWithin P v (v.delete id)

abbrev StepsWithin (P : Document → Prop) : View → View → Prop := Relation.ReflTransGen (StepWithin P)

variable {P : Document → Prop}

theorem StepWithin.step {v v' : View} (h : StepWithin P v v') : Step v v' := by
  cases h with
  | insert hd h => exact .insert hd h
  | replace hid hd _ _ h => exact .replace hid hd h
  | delete => exact .delete v _

theorem StepsWithin.steps {v v' : View} (h : StepsWithin P v v') : v.Steps v' :=
  Relation.ReflTransGen.mono (fun _ _ => StepWithin.step) v v' h

/-- A step leaves a document outside of the property where it stands, and does not count it as
touched. -/
theorem StepWithin.outside {v v' : View} (h : StepWithin P v v') {id : Value} {d : Document}
    (hd : v.docs.find? id = some d) (hP : ¬P d) :
    v'.docs.find? id = some d ∧ v'.touched.find? id = v.touched.find? id := by
  have hput {id' : Value} {d' : Document} (hne : id ≠ id') :
      (v.put id' d').docs.find? id = some d ∧
        (v.put id' d').touched.find? id = v.touched.find? id :=
    ⟨(SortedMap.find?_insert_of_ne _ _ hne).trans hd, SortedMap.find?_insert_of_ne _ _ hne⟩
  cases h with
  | insert hd' h =>
    obtain ⟨hfree, d', seed, -, -, -, rfl⟩ := exists_of_insert hd' h
    refine hput fun hid => ?_
    rw [hid, SortedMap.contains_eq_false_iff.1 hfree] at hd
    cases hd
  | replace hid' hd' hold hP' h =>
    obtain ⟨d', -, -, -, rfl⟩ := exists_of_replace hid' hd' h
    refine hput fun hid => hP ?_
    rw [hid, hold, Option.some.injEq] at hd
    exact hd ▸ hP'
  | @delete id' hP' =>
    have hne : id ≠ id' := fun hid => hP (hP' d (hid ▸ hd))
    rw [find?_delete, if_neg hne]
    refine ⟨hd, ?_⟩
    rw [View.delete]
    split
    · exact SortedMap.find?_insert_of_ne _ _ hne
    · rfl

theorem StepsWithin.outside {v v' : View} (h : StepsWithin P v v') {id : Value} {d : Document}
    (hd : v.docs.find? id = some d) (hP : ¬P d) :
    v'.docs.find? id = some d ∧ v'.touched.find? id = v.touched.find? id := by
  induction h with
  | refl => exact ⟨hd, rfl⟩
  | tail _ hstep ih =>
    obtain ⟨hd', htouched⟩ := hstep.outside ih.1 hP
    exact ⟨hd', htouched.trans ih.2⟩

/-! ## Writing several documents -/

theorem within_insertEach {docs : List Document} (hdocs : ∀ d ∈ docs, d.Ordered) {v v' : View}
    {ids : List Value} (h : insertEach docs v = .ok (ids, v')) : StepsWithin P v v' := by
  induction docs generalizing v ids with
  | nil =>
    cases h
    exact .refl
  | cons d rest ih =>
    obtain ⟨⟨id, v₁⟩, hinsert, h⟩ := bind_eq_ok.1 h
    obtain ⟨⟨ids', v₂⟩, hrest, h⟩ := bind_eq_ok.1 h
    cases h
    have hd := hdocs d List.mem_cons_self
    exact .head (.insert hd hinsert) (ih (fun e he => hdocs e (List.mem_cons_of_mem _ he)) hrest)

/-- Each document still stands under its own identifier when its turn comes, because those before it
have others. -/
theorem within_updateEach {u : Update} (hu : u.Ordered) {docs : List Document}
    (hdocs : ∀ d ∈ docs, d.Ordered ∧ P d) (hids : docs.Pairwise fun a b => a.id? ≠ b.id?)
    {v v' : View} (hstand : ∀ d ∈ docs, ∀ id, d.id? = some id → v.docs.find? id = some d) {n : Nat}
    (h : updateEach u docs v = .ok (n, v')) : StepsWithin P v v' := by
  induction docs generalizing v n with
  | nil =>
    cases h
    exact .refl
  | cons old rest ih =>
    obtain ⟨hothers, hids⟩ := List.pairwise_cons.1 hids
    have hrest : ∀ d ∈ rest, d.Ordered ∧ P d := fun d hd => hdocs d (List.mem_cons_of_mem _ hd)
    have hstand' : ∀ d ∈ rest, ∀ id, d.id? = some id → v.docs.find? id = some d :=
      fun d hd => hstand d (List.mem_cons_of_mem _ hd)
    obtain ⟨new, hnew, h⟩ := bind_eq_ok.1 h
    split at h
    · exact ih hrest hids hstand' h
    · obtain ⟨id, hid, h⟩ := bind_eq_ok.1 h
      obtain ⟨v₁, hreplace, h⟩ := bind_eq_ok.1 h
      obtain ⟨⟨m, v₂⟩, hlater, h⟩ := bind_eq_ok.1 h
      cases h
      obtain ⟨hold, hP⟩ := hdocs old List.mem_cons_self
      have hfind := hstand old List.mem_cons_self id (id?_of_storedId hid)
      have hordered := ordered_of_storedId hold hid
      have hnew' := hu.apply hold hnew
      refine .head (.replace hordered hnew' hfind hP hreplace)
        (ih hrest hids (fun d hd k hk => ?_) hlater)
      obtain ⟨d', -, -, -, rfl⟩ := exists_of_replace hordered hnew' hreplace
      have hne : k ≠ id := fun heq => hothers d hd (by rw [id?_of_storedId hid, hk, heq])
      exact (SortedMap.find?_insert_of_ne _ _ hne).trans (hstand' d hd k hk)

theorem within_deleteEach {ids : List Value} {v : View}
    (hids : ∀ id ∈ ids, ∀ old, v.docs.find? id = some old → P old) :
    StepsWithin P v (deleteEach ids v).2 := by
  induction ids generalizing v with
  | nil => exact .refl
  | cons id rest ih =>
    refine .head (.delete (hids id List.mem_cons_self)) (ih fun k hk old hold => ?_)
    rw [find?_delete] at hold
    split at hold
    · cases hold
    · exact hids k (List.mem_cons_of_mem _ hk) old hold

/-! ## Operations on what a filter accepts -/

section Narrowed

variable {f : Filter} {u : Update} {v v' : View} (hv : v.Valid)
  (hP : ∀ d, f.accepts d = true → P d)

include hv hP

theorem within_update (hf : f.Ordered) (hu : u.Ordered) {upsert multi : Bool} {r : UpdateReply}
    (h : v.update f u upsert multi = .ok (r, v')) : StepsWithin P v v' := by
  obtain ⟨_, -, h⟩ := bind_eq_ok.1 h
  have htargets : (if multi then v.matching f else (v.matching f).take 1).Sublist (v.matching f) := by
    split
    · exact List.Sublist.refl _
    · exact List.take_sublist 1 _
  simp only at h
  generalize (if multi then v.matching f else (v.matching f).take 1) = targets at h htargets
  split at h
  · obtain ⟨d, hd, h⟩ := bind_eq_ok.1 h
    obtain ⟨⟨id, v₁⟩, hinsert, h⟩ := bind_eq_ok.1 h
    cases h
    exact .single (.insert (hu.apply hf.seed hd) hinsert)
  · obtain ⟨⟨n, v₁⟩, heach, h⟩ := bind_eq_ok.1 h
    cases h
    refine within_updateEach hu (fun d hd => ?_) ((hv.pairwise_matching f).sublist htargets)
      (fun d hd id hid => hv.find?_of_mem_matching (htargets.subset hd) hid) heach
    have hmatching := htargets.subset hd
    exact ⟨hv.mem_matching hmatching, hP d (accepts_of_mem_matching hmatching)⟩

theorem within_replace {old d : Document} (hold : old ∈ v.matching f) {id : Value}
    (hid : old.storedId = .ok id) (hd : d.Ordered) (h : v.replace id d = .ok v') :
    StepsWithin P v v' :=
  .single (.replace (ordered_of_storedId (hv.mem_matching hold) hid) hd
    (hv.find?_of_mem_matching hold (id?_of_storedId hid)) (hP old (accepts_of_mem_matching hold)) h)

theorem within_deleteMatching (multi : Bool) :
    StepsWithin P v (v.deleteMatching f multi).2 := by
  refine within_deleteEach fun id hid old hold => ?_
  have hmem : id ∈ (v.matching f).filterMap Document.id? := by
    split at hid
    · exact hid
    · exact List.mem_of_mem_take hid
  obtain ⟨d, hd, hid'⟩ := List.mem_filterMap.1 hmem
  rw [hv.find?_of_mem_matching hd hid', Option.some.injEq] at hold
  exact hold ▸ hP d (accepts_of_mem_matching hd)

omit hv hP in
theorem ordered_upsertedReplacement (hf : f.Ordered) {d : Document} (hd : d.Ordered) :
    (upsertedReplacement f d).Ordered := by
  rw [upsertedReplacement]
  split
  · exact hd
  · split
    · rename_i id hid
      exact hd.insert _ (hf.seed.id? hid)
    · exact hd

theorem within_replaceFirst (hf : f.Ordered) {d : Document} (hd : d.Ordered) {upsert : Bool}
    {r : UpdateReply} (h : v.replaceFirst f d upsert = .ok (r, v')) : StepsWithin P v v' := by
  rw [replaceFirst] at h
  split at h
  · split at h
    · obtain ⟨⟨id, v₁⟩, hinsert, h⟩ := bind_eq_ok.1 h
      cases h
      exact .single (.insert (ordered_upsertedReplacement hf hd) hinsert)
    · cases h
      exact .refl
  · rename_i old hold
    obtain ⟨id, hid, h⟩ := bind_eq_ok.1 h
    obtain ⟨v₁, hreplace, h⟩ := bind_eq_ok.1 h
    cases h
    exact within_replace hv hP (List.mem_of_head? hold) hid hd hreplace

/-! ## Finding and changing one document -/

omit hv hP in
theorem within_insertReturning {d : Document} (hd : d.Ordered) {returned : Returned}
    {r : Option Document} (h : v.insertReturning d returned = .ok (r, v')) : StepsWithin P v v' := by
  obtain ⟨⟨id, v₁⟩, hinsert, h⟩ := bind_eq_ok.1 h
  cases returned <;> cases h <;> exact .single (.insert hd hinsert)

theorem within_modifyFirst (hf : f.Ordered) (hu : u.Ordered) {o : ModifyOptions}
    {r : Option Document} (h : v.modifyFirst f u o = .ok (r, v')) : StepsWithin P v v' := by
  rw [modifyFirst] at h
  split at h
  · split at h
    · obtain ⟨d, hd, h⟩ := bind_eq_ok.1 h
      exact within_insertReturning (hu.apply hf.seed hd) h
    · cases h
      exact .refl
  · rename_i old hfirst
    obtain ⟨new, hnew, h⟩ := bind_eq_ok.1 h
    obtain ⟨id, hid, h⟩ := bind_eq_ok.1 h
    have hold := mem_matching_of_first? hfirst
    simp only at h
    split at h
    · cases h
      exact .refl
    · obtain ⟨v₁, hreplace, h⟩ := bind_eq_ok.1 h
      cases h
      exact within_replace hv hP hold hid (hu.apply (hv.mem_matching hold) hnew) hreplace

theorem within_exchangeFirst (hf : f.Ordered) {d : Document} (hd : d.Ordered) {o : ModifyOptions}
    {r : Option Document} (h : v.exchangeFirst f d o = .ok (r, v')) : StepsWithin P v v' := by
  rw [exchangeFirst] at h
  split at h
  · split at h
    · exact within_insertReturning (ordered_upsertedReplacement hf hd) h
    · cases h
      exact .refl
  · rename_i old hold
    obtain ⟨id, hid, h⟩ := bind_eq_ok.1 h
    obtain ⟨v₁, hreplace, h⟩ := bind_eq_ok.1 h
    have hsteps := within_replace hv hP (mem_matching_of_first? hold) hid hd hreplace
    split at h <;> cases h <;> exact hsteps

theorem within_removeFirst {o : ModifyOptions} {r : Option Document}
    (h : v.removeFirst f o = .ok (r, v')) : StepsWithin P v v' := by
  rw [removeFirst] at h
  split at h
  · cases h
    exact .refl
  · rename_i old hfirst
    obtain ⟨id, hid, h⟩ := bind_eq_ok.1 h
    cases h
    have hold := mem_matching_of_first? hfirst
    refine .single (.delete fun d hd => ?_)
    rw [hv.find?_of_mem_matching hold (id?_of_storedId hid), Option.some.injEq] at hd
    exact hd ▸ hP old (accepts_of_mem_matching hold)

end Narrowed

/-! ## Batches -/

theorem accepts_of_narrowed {narrow f : Filter} (d : Document)
    (h : (narrow.and f).accepts d = true) : narrow.accepts d = true := by
  rw [Filter.accepts_and, Bool.and_eq_true] at h
  exact h.1

theorem within_writeModel {narrow : Filter} (hnarrow : narrow.Ordered) {m : WriteModel}
    (hm : m.Ordered) {b b' : BulkReply} {v v' : View} (hv : v.Valid)
    (h : writeModel narrow b v m = .ok (b', v')) : StepsWithin (narrow.accepts · = true) v v' := by
  cases m with
  | insertOne d =>
    obtain ⟨⟨id, v₁⟩, hinsert, h⟩ := bind_eq_ok.1 h
    cases h
    exact .single (.insert hm hinsert)
  | updateOne f u upsert | updateMany f u upsert =>
    obtain ⟨⟨r, v₁⟩, hupdate, h⟩ := bind_eq_ok.1 h
    cases h
    exact within_update hv accepts_of_narrowed (hnarrow.and hm.1) hm.2 hupdate
  | replaceOne f d upsert =>
    obtain ⟨⟨r, v₁⟩, hreplace, h⟩ := bind_eq_ok.1 h
    cases h
    exact within_replaceFirst hv accepts_of_narrowed (hnarrow.and hm.1) hm.2 hreplace
  | deleteOne f | deleteMany f =>
    cases h
    exact within_deleteMatching hv accepts_of_narrowed _

/-- Each write of a batch finds the documents as the writes before it have left them. -/
theorem within_writeModels {narrow : Filter} (hnarrow : narrow.Ordered) {models : List WriteModel}
    (hmodels : ∀ m ∈ models, m.Ordered) {b b' : BulkReply} {v v' : View} (hv : v.Valid)
    (h : writeModels narrow models b v = .ok (b', v')) :
    StepsWithin (narrow.accepts · = true) v v' := by
  induction models generalizing b v with
  | nil =>
    cases h
    exact .refl
  | cons m rest ih =>
    obtain ⟨⟨b₁, v₁⟩, hfirst, h⟩ := bind_eq_ok.1 h
    have hsteps := within_writeModel hnarrow (hmodels m List.mem_cons_self) hv hfirst
    exact hsteps.trans (ih (fun m' hm' => hmodels m' (List.mem_cons_of_mem _ hm'))
      ((StepsWithin.steps hsteps).valid hv) h)

end View

/-! ## All operations -/

/-- Where an operation succeeds, it has taken steps, and replaced and deleted only what the filter of
its handle accepts. -/
theorem DocumentOp.within {narrow : Filter} (hnarrow : narrow.Ordered) {op : DocumentOp}
    (hop : op.Ordered) {v v' : View} (hv : v.Valid) {reply : Reply}
    (h : op.run narrow v = .ok (reply, v')) :
    View.StepsWithin (narrow.accepts · = true) v v' := by
  have hP {f : Filter} := @View.accepts_of_narrowed narrow f
  cases op with
  | insertOne d =>
    obtain ⟨⟨id, v₁⟩, hinsert, h⟩ := bind_eq_ok.1 h
    cases h
    exact .single (.insert hop hinsert)
  | insertMany docs =>
    obtain ⟨⟨ids, v₁⟩, hinsert, h⟩ := bind_eq_ok.1 h
    cases h
    exact View.within_insertEach hop hinsert
  | findOne f o | find f o | count f | distinct field f | aggregate stages =>
    cases h
    exact .refl
  | replaceOne f d upsert =>
    obtain ⟨⟨r, v₁⟩, hreplace, h⟩ := bind_eq_ok.1 h
    cases h
    exact View.within_replaceFirst hv hP (hnarrow.and hop.1) hop.2 hreplace
  | updateOne f u upsert | updateMany f u upsert =>
    obtain ⟨⟨r, v₁⟩, hupdate, h⟩ := bind_eq_ok.1 h
    cases h
    exact View.within_update hv hP (hnarrow.and hop.1) hop.2 hupdate
  | deleteOne f | deleteMany f =>
    cases h
    exact View.within_deleteMatching hv hP _
  | findOneAndUpdate f u o =>
    obtain ⟨⟨d, v₁⟩, hmodify, h⟩ := bind_eq_ok.1 h
    cases h
    exact View.within_modifyFirst hv hP (hnarrow.and hop.1) hop.2 hmodify
  | findOneAndReplace f d o =>
    obtain ⟨⟨r, v₁⟩, hexchange, h⟩ := bind_eq_ok.1 h
    cases h
    exact View.within_exchangeFirst hv hP (hnarrow.and hop.1) hop.2 hexchange
  | findOneAndDelete f o =>
    obtain ⟨⟨d, v₁⟩, hremove, h⟩ := bind_eq_ok.1 h
    cases h
    exact View.within_removeFirst hv hP hremove
  | bulkWrite models =>
    obtain ⟨⟨b, v₁⟩, hmodels, h⟩ := bind_eq_ok.1 h
    cases h
    exact View.within_writeModels hnarrow hop hv hmodels

theorem DocumentOp.steps {narrow : Filter} (hnarrow : narrow.Ordered) {op : DocumentOp}
    (hop : op.Ordered) {v v' : View} (hv : v.Valid) {reply : Reply}
    (h : op.run narrow v = .ok (reply, v')) : v.Steps v' :=
  View.StepsWithin.steps (op.within hnarrow hop hv h)

end ScopedStore
