import ScopedStore.Proofs.Client.Run

/-!
# Unique keys of committed documents

Writes keep the unique indexes of the committed documents, a commit checks them, and so does adding an
index, but under the writes that the caller's transaction has buffered. So an index can be added over
committed documents that share a key, when the buffered writes hide it (`HidesClash`), and in no other
way do the unique indexes ever cease to hold (`uniqueHeld_run_iff`).
-/

namespace ScopedStore

/-- In every collection each unique index separates the committed documents. -/
def Catalog.UniqueHeld (cat : Catalog) : Prop :=
  ∀ ns c, cat.collection? ns = some c → UniqueIn c.indexes c.document?

namespace Catalog

theorem uniqueIn_empty : UniqueIn ({} : Collection).indexes ({} : Collection).document? :=
  fun _ _ _ _ _ _ _ hd => by cases hd

theorem UniqueHeld.collection {cat : Catalog} (h : cat.UniqueHeld) (ns : Namespace) :
    UniqueIn (cat.collection ns).indexes (cat.collection ns).document? := by
  rw [Catalog.collection]
  cases hc : cat.collection? ns with
  | none => exact uniqueIn_empty
  | some c => exact h ns c hc

theorem UniqueHeld.of_within {cat cat' : Catalog} (h : cat.UniqueHeld) (hw : cat'.Within cat) :
    cat'.UniqueHeld := by
  intro ns c hc
  rcases hw ns c hc with rfl | ⟨ns', hc'⟩
  · exact uniqueIn_empty
  · exact h ns' c hc'

theorem UniqueHeld.put {cat : Catalog} (h : cat.UniqueHeld) (ns : Namespace) {c : Collection}
    (hc : UniqueIn c.indexes c.document?) : (cat.put ns c).UniqueHeld := by
  intro ns' c' hc'
  by_cases hns : ns' = ns
  · rw [hns, collection?_put_self, Option.some.injEq] at hc'
    exact hc' ▸ hc
  · rw [collection?_put_of_ne cat c hns] at hc'
    exact h ns' c' hc'

/-! ## Writing -/

theorem uniqueIn_changed {changes : Changes} (hchanges : (SortedMap.mk changes).Sorted)
    {before : Option Collection} {after : Collection} (h : changed changes before = some after)
    (hunique : UniqueIn (before.getD {}).indexes
      (Writes.shownOver changes (before.getD {}).document?)) :
    UniqueIn after.indexes after.document? := by
  have hafter := getD_changed changes before
  rw [h, Option.getD_some] at hafter
  rw [hafter, Collection.document?_foldl_applyChange _ hchanges, Collection.foldl_applyChange]
  exact hunique

/-- What an operation leaves stored is among the documents of its view, and these are separated. -/
theorem UniqueHeld.applyChanges {cat cat' : Catalog} (h : cat.UniqueHeld) (hcat : cat.Valid)
    {ns : Namespace} {seed : Nat} {v₀ v : View} (hload : View.load cat ns ∅ seed = .ok v₀)
    (hsteps : v₀.Steps v) {create : Bool}
    (happly : cat.applyChanges ns v.changes create = .ok cat') : cat'.UniqueHeld := by
  have hv₀ := View.valid_load (hcat.collection ns) validChanges_empty hload
  have hv := hsteps.valid hv₀
  have hfind : v₀.docs.find? = (cat.collection ns).document? :=
    View.find?_of_load SortedMap.sorted_empty hload
  obtain ⟨loaded, docs, -, -, rfl⟩ := View.load_eq_ok_iff.1 hload
  obtain ⟨hns, hbase, hindexes⟩ := hsteps.frame
  have hsecondary : SecondaryUniqueIn v.indexes v.docs.find? := by
    refine hsteps.secondaryUniqueIn hv₀ ?_
    rw [hfind]
    exact (h.collection ns).secondary
  rw [hindexes] at hsecondary
  intro ns' c' hc'
  rw [applyChanges_eq_ok happly] at hc'
  split at hc'
  · refine uniqueIn_changed hv.changes.sorted hc' ?_
    have hunder (id : Value) (d : Document)
        (hd : Writes.shownOver v.changes (cat.collection ns).document? id = some d) :
        v.docs.find? id = some d := by
      rw [Writes.shownOver] at hd
      cases hw : SortedMap.findIn? id v.changes with
      | none =>
        rw [hw, Option.elim_none, ← hfind] at hd
        rw [hv.tracked.find?_eq_base hw, hbase]
        exact hd
      | some w =>
        rw [hw, Option.elim_some, hv.tracked.document?_of_findIn?_changes hw] at hd
        exact (Option.filter_eq_some_iff.1 hd).1
    have hunique : UniqueIn (cat.collection ns).indexes v.docs.find? :=
      ((hcat.collection ns).uniqueIn_iff fun id d hd => (hv.own id d hd).2).2 hsecondary
    exact hunique.mono hunder
  · exact h ns' c' hc'

/-! ## Committing -/

theorem over_of_deletes {writes : Changes} (hdeletes : ∀ e ∈ writes, e.2 = .delete)
    {document? : Value → Option Document} {id : Value} {d : Document}
    (hd : Writes.shownOver writes document? id = some d) : document? id = some d := by
  rw [Writes.shownOver] at hd
  cases hw : SortedMap.findIn? id writes with
  | none =>
    rw [hw] at hd
    exact hd
  | some w =>
    have hdelete : w = .delete := hdeletes (id, w) (SortedMap.mem_of_findIn? hw)
    rw [hw, hdelete] at hd
    cases hd

theorem uniqueIn_of_checkWrites {cat : Catalog} {create : Bool} {ns : Namespace} {writes : Writes}
    (hwrites : ValidChanges writes.entries) (hcheck : cat.checkWrites create ns writes = .ok ())
    {c : Collection} (hc : cat.collection? ns = some c) (hvalid : c.Valid)
    (hunique : UniqueIn c.indexes c.document?) :
    UniqueIn c.indexes (Writes.shownOver writes.entries c.document?) := by
  rw [checkWrites, hc] at hcheck
  simp only at hcheck
  split at hcheck
  · cases hcheck
  · split at hcheck
    · rename_i hdeletes
      refine hunique.mono fun id d hd => over_of_deletes (fun e he => ?_) hd
      rw [SortedMap.values, List.all_map, List.all_eq_true] at hdeletes
      exact Write.isDelete_iff.1 (hdeletes e he)
    · obtain ⟨loaded, hloaded, hrest⟩ := bind_eq_ok.1 hcheck
      obtain ⟨docs, hdocs, -⟩ := bind_eq_ok.1 hrest
      exact (checkOverlaid_eq_ok_iff hvalid (Collection.decodes_of_documents hloaded) ns hwrites
        (Writes.overlay_eq_ok_iff.1 hdocs).1).1 hcheck

theorem UniqueHeld.commit {cat : Catalog} (h : cat.UniqueHeld) (hcat : cat.Valid) (create : Bool)
    {p : Pending} (hp : p.Valid) : (cat.commit create p).2.UniqueHeld := by
  rcases cat.commit_cases create hp.sorted with ⟨cat', hcommit, hcheck, hcat'⟩ | ⟨e, hcommit, -⟩
  · rw [hcommit]
    intro ns c' hc'
    rw [hcat' ns] at hc'
    have hwrites := hp.writesOf ns
    refine uniqueIn_changed hwrites.sorted hc' ?_
    cases hc : cat.collection? ns with
    | none =>
      -- A collection that the commit makes has the index on the identifying field only.
      have hown (id : Value) (d : Document)
          (hd : Writes.shownOver (p.writesOf ns).entries ({} : Collection).document? id = some d) :
          d.id? = some id := by
        rw [← Collection.document?_foldl_applyChange _ hwrites.sorted] at hd
        exact ((Collection.valid_empty.foldl_applyChange hwrites).document? hd).2
      refine (Collection.valid_empty.uniqueIn_iff hown).2 fun i hi hsecondary => ?_
      rw [List.mem_singleton.1 hi] at hsecondary
      cases hsecondary
    | some c => exact uniqueIn_of_checkWrites hwrites (hcheck ns) hc (hcat ns c hc) (h ns c hc)
  · rw [hcommit]
    exact h

end Catalog

namespace Client

/-! ## Adding an index -/

/-- The event adds a unique index in a transaction whose buffered writes keep it from seeing that two
committed documents share a key. -/
def HidesClash (c : Client) : Event → Prop
  | .request caller (.createIndex ns i) =>
    i.unique = true ∧ i.keys ≠ [] ∧ (c.catalog.collection ns).index? i.resolvedName = none ∧
      ¬i.Separates (c.catalog.collection ns).document? ∧
      ∃ id s t, c.transactionOf? caller = some (id, s, t) ∧
        (c.catalog.collection ns).Decodes ∧ Writes.Decode (t.pending.writesOf ns).entries ∧
        i.Separates (Writes.shownOver (t.pending.writesOf ns).entries
          (c.catalog.collection ns).document?)
  | _ => False

theorem overlay_separates_iff {c : Collection} {writes : Writes} (hwrites : writes.Sorted)
    (i : Index) :
    (∃ docs docs', c.documents = .ok docs ∧ writes.overlay docs = .ok docs' ∧
        i.Separates docs'.find?) ↔
      c.Decodes ∧ Writes.Decode writes.entries ∧
        i.Separates (Writes.shownOver writes.entries c.document?) := by
  constructor
  · rintro ⟨docs, docs', hdocs, hover, hseparates⟩
    rw [Writes.find?_overlay hwrites hover, Collection.find?_documents hdocs] at hseparates
    exact ⟨Collection.decodes_of_documents hdocs, (Writes.overlay_eq_ok_iff.1 hover).1, hseparates⟩
  · rintro ⟨hstored, hdecode, hseparates⟩
    obtain ⟨docs, hdocs⟩ := Collection.exists_documents hstored
    obtain ⟨docs', hover⟩ := Writes.exists_overlay hdecode docs
    refine ⟨docs, docs', hdocs, hover, ?_⟩
    rwa [Writes.find?_overlay hwrites hover, Collection.find?_documents hdocs]

theorem uniqueIn_append {indexes : List Index} {i : Index} {document? : Value → Option Document}
    (h : UniqueIn indexes document?) (hi : i.unique = true → i.Separates document?) :
    UniqueIn (indexes ++ [i.named]) document? := by
  intro j hj hunique
  rcases List.mem_append.1 hj with hj | hj
  · exact h j hj hunique
  · rw [List.mem_singleton.1 hj] at hunique ⊢
    exact hi hunique

theorem uniqueHeld_createIndex {c : Client} (h : c.catalog.UniqueHeld) (hc : c.Valid)
    {caller : Caller} {ns : Namespace} {i : Index}
    (hclash : ¬c.HidesClash (.request caller (.createIndex ns i))) :
    (c.createIndex caller ns i).2.catalog.UniqueHeld := by
  have hput := h.put ns (h.collection ns)
  obtain ⟨-, ⟨hcatalog, -⟩ | ⟨hcatalog, -⟩ | ⟨name, added, -, hkeys, hadd, hcatalog⟩⟩ :=
    createIndex_cases (Prod.eta (c.createIndex caller ns i)).symm
  · exact hcatalog ▸ h
  · exact hcatalog ▸ hput
  · rw [hcatalog]
    refine hput.put ns ?_
    cases hfound : (c.catalog.collection ns).index? i.resolvedName with
    | some found =>
      cases Collection.addIndex_of_found hfound hadd
      exact h.collection ns
    | none =>
      obtain ⟨hadded, hseparates⟩ := ((hc.catalog.collection ns).addIndex_eq_ok_iff ns hfound).1 hadd
      cases hadded
      refine uniqueIn_append (h.collection ns) fun hunique => ?_
      obtain ⟨hstored, hdecode, hover⟩ :=
        (overlay_separates_iff (hc.writesOf caller ns).sorted i).1 (hseparates hunique)
      by_contra hnot
      cases hopen : c.transactionOf? caller with
      | none =>
        rw [writesOf_eq_empty hopen] at hover
        exact hnot hover
      | some found =>
        obtain ⟨id, s, t⟩ := found
        rw [writesOf_eq hopen] at hdecode hover
        exact hclash ⟨hunique, by simpa using hkeys, hfound, hnot, id, s, t, hopen, hstored, hdecode,
          hover⟩

/-- Adding an index over a hidden clash breaks the unique indexes at once. -/
theorem not_uniqueHeld_of_hidesClash {c : Client} (hc : c.Valid) {e : Event} (h : c.HidesClash e) :
    ¬(c.after e).catalog.UniqueHeld := by
  match e, h with
  | .request caller (.createIndex ns i),
    ⟨hunique, hkeys, hnew, hclash, id, s, t, hopen, hstored, hdecode, hover⟩ =>
    rw [← writesOf_eq hopen ns] at hdecode hover
    have hoverlay := (overlay_separates_iff (hc.writesOf caller ns).sorted i).2
      ⟨hstored, hdecode, hover⟩
    have hadd := ((hc.catalog.collection ns).addIndex_eq_ok_iff ns hnew).2
      ⟨rfl, fun _ => hoverlay⟩
    intro hheld
    rw [after, perform] at hheld
    obtain ⟨-, ⟨-, hrefused, -⟩ | ⟨-, e, -, hadd'⟩ | ⟨name, added, -, -, hadd', hcatalog⟩⟩ :=
      createIndex_cases (Prod.eta (c.createIndex caller ns i)).symm
    · rcases hrefused with ⟨e, hlock⟩ | hempty
      · rw [transactionOf?, hlock] at hopen
        cases hopen
      · exact hkeys (List.isEmpty_iff.1 hempty)
    · cases hadd.symm.trans hadd'
    · cases hadd.symm.trans hadd'
      rw [hcatalog] at hheld
      exact hclash (hheld ns _ (Catalog.collection?_put_self _ _ _) i.named (by simp) hunique)

/-! ## Every event -/

theorem uniqueHeld_removeIndex {cat : Catalog} (h : cat.UniqueHeld) {ns : Namespace}
    {before after : Collection} {name : String} (hbefore : cat.collection? ns = some before)
    (hafter : before.removeIndex name = .ok after) : (cat.put ns after).UniqueHeld := by
  obtain ⟨-, rfl⟩ := Collection.removeIndex_eq_ok hafter
  exact h.put ns fun i hi hunique => h ns before hbefore i (List.mem_filter.1 hi).1 hunique

theorem uniqueHeld_runDocuments {c : Client} (h : c.catalog.UniqueHeld) (hc : c.Valid)
    (caller : Caller) {handle : Handle} {op : DocumentOp} (hnarrow : handle.narrow.Ordered)
    (hop : op.Ordered) : (c.runDocuments caller handle op).2.catalog.UniqueHeld := by
  rcases runDocuments_cases (Prod.eta (c.runDocuments caller handle op)).symm with
    ⟨hcatalog, -, -⟩ | ⟨-, hrun⟩ | ⟨id, s, t, -, hrun⟩
  · exact hcatalog ▸ h
  · obtain ⟨-, ⟨hcatalog, -⟩ | ⟨reply, v, -, hon, happly⟩⟩ := runDirect_cases hrun
    · rw [hcatalog, countOperation_catalog]
      exact h
    · rw [countOperation_runOn] at hon
      rw [countOperation_catalog] at happly
      obtain ⟨v₀, hload, hop'⟩ := runOn_eq_ok_iff.1 hon
      have hv₀ := View.valid_load (hc.catalog.collection handle.ns) validChanges_empty hload
      exact h.applyChanges hc.catalog hload (op.steps hnarrow hop hv₀ hop') happly
  · obtain ⟨hcatalog, -⟩ := runBuffered_cases hrun
    rw [hcatalog, countOperation_catalog]
    exact h

theorem uniqueHeld_commitTransaction {c : Client} (h : c.catalog.UniqueHeld) (hc : c.Valid)
    {id : SessionId} {s : Session} (hs : c.session? id = some s) :
    (c.commitTransaction id).2.catalog.UniqueHeld := by
  cases ht : s.transaction with
  | none =>
    rw [commitTransaction_of_none hs ht]
    exact h
  | some t =>
    by_cases harmed : c.faults.commits = 0
    · obtain ⟨-, hcatalog, -⟩ := commitTransaction_of_unarmed hs ht harmed
      rw [hcatalog]
      exact h.commit hc.catalog c.autoCreate (hc.pending id s t hs ht)
    · obtain ⟨-, hcatalog, -⟩ := commitTransaction_of_armed hs ht harmed
      exact hcatalog ▸ h

/-- Every event keeps the unique indexes but one that hides a clash. -/
theorem uniqueHeld_after {c : Client} (h : c.catalog.UniqueHeld) (hc : c.Valid) {e : Event}
    (he : e.Ordered) (hclash : ¬c.HidesClash e) : (c.after e).catalog.UniqueHeld := by
  cases e with
  | request caller r =>
    rw [after]
    by_cases hdocuments : ∃ handle op, r = .documents handle op
    · obtain ⟨handle, op, rfl⟩ := hdocuments
      exact uniqueHeld_runDocuments h hc caller he.1 he.2
    by_cases hindex : ∃ ns i, r = .createIndex ns i
    · obtain ⟨ns, i, rfl⟩ := hindex
      exact uniqueHeld_createIndex h hc hclash
    obtain ⟨-, hwithin | ⟨ns, name, before, after, hbefore, hafter, hcatalog⟩⟩ :=
      c.perform_administration caller (fun handle op heq => hdocuments ⟨handle, op, heq⟩)
        fun ns i heq => hindex ⟨ns, i, heq⟩
    · exact h.of_within hwithin
    · rw [hcatalog]
      exact uniqueHeld_removeIndex h hbefore hafter
  | startSession options =>
    rw [after, (c.startSession_cases options).1]
    exact h
  | startTransaction id options =>
    rw [after]
    refine onSession_induction (P := fun c => c.catalog.UniqueHeld) h fun s hs => ?_
    rw [(startTransaction_cases hs options).1]
    exact h
  | commitTransaction id =>
    rw [after]
    exact onSession_induction (P := fun c => c.catalog.UniqueHeld) h fun s hs =>
      uniqueHeld_commitTransaction h hc hs
  | abortTransaction id =>
    rw [after]
    refine onSession_induction (P := fun c => c.catalog.UniqueHeld) h fun s hs => ?_
    rw [(abortTransaction_cases hs).1]
    exact h
  | endSession id =>
    rw [after]
    refine onSession_induction (P := fun c => c.catalog.UniqueHeld) h fun s hs => ?_
    rw [(endSession_eq hs).1]
    exact h
  | arm kind n | reseed seed => exact h

/-! ## Every run -/

theorem valid_run_take {autoCreate : Bool} {seed : Nat} {events : List Event}
    (h : ∀ e ∈ events, e.Ordered) (n : Nat) :
    ((fresh autoCreate seed).run (events.take n)).Valid :=
  Reachable.valid ⟨autoCreate, seed, events.take n, fun e he => h e (List.mem_of_mem_take he), rfl⟩

theorem run_take_succ (c : Client) {events : List Event} {n : Nat} {e : Event}
    (he : events[n]? = some e) :
    c.run (events.take (n + 1)) = (c.run (events.take n)).after e := by
  rw [List.take_add_one, he, run, List.foldl_append]
  rfl

/-- The unique indexes hold of the committed documents all along a run of any callers and sessions
exactly when no event of the run adds a unique index over committed documents that clash, in a
transaction whose buffered writes hide the clash. -/
theorem uniqueHeld_run_iff (autoCreate : Bool) (seed : Nat) {events : List Event}
    (h : ∀ e ∈ events, e.Ordered) :
    (∀ n, ((fresh autoCreate seed).run (events.take n)).catalog.UniqueHeld) ↔
      ∀ n e, events[n]? = some e →
        ¬((fresh autoCreate seed).run (events.take n)).HidesClash e := by
  constructor
  · intro hheld n e he hclash
    refine not_uniqueHeld_of_hidesClash (valid_run_take h n) hclash ?_
    rw [← run_take_succ _ he]
    exact hheld (n + 1)
  · intro hclash n
    induction n with
    | zero =>
      intro ns c hc
      cases hc
    | succ n ih =>
      cases he : events[n]? with
      | none =>
        rw [List.take_add_one, he, Option.toList_none, List.append_nil]
        exact ih
      | some e =>
        rw [run_take_succ _ he]
        exact uniqueHeld_after ih (valid_run_take h n) (h e (List.mem_of_getElem? he))
          (hclash n e he)

def account (id : Int64) (email : String) : Document :=
  ⟨[("_id", .integer id), ("email", .text email)]⟩

def byEmail : Index := { keys := [("email", .ascending)], unique := true }

/-- Two accounts share an address; a session deletes one of them in its transaction and makes
addresses unique before it commits. -/
def hiddenClash (ns : Namespace) : List Event :=
  let session : SessionId := ⟨1⟩
  [.request .plain (.documents { ns := ns } (.insertOne (account 1 "x"))),
    .request .plain (.documents { ns := ns } (.insertOne (account 2 "x"))),
    .startSession {},
    .startTransaction session {},
    .request (.session session) (.documents { ns := ns } (.deleteOne (.id (.integer 2)))),
    .request (.session session) (.createIndex ns byEmail)]

theorem ordered_account (id : Int64) (email : String) : (account id email).Ordered :=
  Document.ordered_pair (by decide) trivial trivial

theorem ordered_hiddenClash (ns : Namespace) : ∀ e ∈ hiddenClash ns, e.Ordered := by
  intro e he
  simp only [hiddenClash, List.mem_cons, List.not_mem_nil, or_false] at he
  rcases he with rfl | rfl | rfl | rfl | rfl | rfl
  · exact ⟨trivial, ordered_account 1 "x"⟩
  · exact ⟨trivial, ordered_account 2 "x"⟩
  · trivial
  · trivial
  · exact ⟨trivial, trivial⟩
  · trivial

theorem uniqueHeld_run_iff_of_hiddenClash :
    (∀ e ∈ hiddenClash ⟨"app", "items"⟩, e.Ordered) ∧
      ((∀ n, ((fresh true 0).run ((hiddenClash ⟨"app", "items"⟩).take n)).catalog.UniqueHeld) ↔
        ∀ n e, (hiddenClash ⟨"app", "items"⟩)[n]? = some e →
          ¬((fresh true 0).run ((hiddenClash ⟨"app", "items"⟩).take n)).HidesClash e) :=
  ⟨ordered_hiddenClash _, uniqueHeld_run_iff true 0 (ordered_hiddenClash _)⟩

/-- Unique indexes do not hold of every reachable client. -/
theorem not_uniqueHeld_hiddenClash :
    ((fresh true 0).run (hiddenClash ⟨"app", "items"⟩)).Reachable ∧
      ¬((fresh true 0).run (hiddenClash ⟨"app", "items"⟩)).catalog.UniqueHeld := by
  refine ⟨⟨true, 0, _, ordered_hiddenClash _, rfl⟩, fun h => ?_⟩
  generalize hrun : (fresh true 0).run (hiddenClash ⟨"app", "items"⟩) = c at h
  have hindex : byEmail.named ∈ (c.catalog.collection ⟨"app", "items"⟩).indexes := by
    rw [← hrun]
    decide +kernel
  have hfirst : (c.catalog.collection ⟨"app", "items"⟩).document? (.integer 1) =
      some (account 1 "x") := by
    rw [← hrun]
    decide +kernel
  have hsecond : (c.catalog.collection ⟨"app", "items"⟩).document? (.integer 2) =
      some (account 2 "x") := by
    rw [← hrun]
    decide +kernel
  have hkeys : byEmail.named.keyOf (account 1 "x") = byEmail.named.keyOf (account 2 "x") := by
    decide +kernel
  have heq := h.collection ⟨"app", "items"⟩ _ hindex rfl hfirst hsecond hkeys
  exact absurd heq (by decide)

end Client

end ScopedStore
