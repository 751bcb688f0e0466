import ScopedStore.Proofs.Client.Frame
import ScopedStore.Proofs.Client.OwnWrites
import ScopedStore.Proofs.Client.Uniqueness
import ScopedStore.Proofs.Refusal

/-!
# Documents that stay readable

A write encodes its documents and stores the bytes; every later operation on the collection decodes
all of them. The encoder takes documents of any depth and the decoder does not, so one accepted write
can bar a collection from all later operations (`Overreaches`). This is the only way: a run on a new
client stays readable exactly when no operation in it writes a document that the decoder refuses
(`readable_run_iff`).
-/

namespace ScopedStore

/-! ## Where decoding fails -/

theorem decodeStored_eq_error {bytes : Bytes} {e : StoreError} (h : decodeStored bytes = .error e) :
    e = .undecodable := by
  rw [decodeStored] at h
  split at h <;> cases h
  rfl

theorem decodeEntries_eq_error {l : List (Value × Bytes)} {e : StoreError}
    (h : decodeEntries l = .error e) : e = .undecodable := by
  induction l with
  | nil => cases h
  | cons entry rest ih =>
    rcases bind_eq_error.1 h with h | ⟨d, -, h⟩
    · exact decodeStored_eq_error h
    · rcases bind_eq_error.1 h with h | ⟨docs, -, h⟩
      · exact ih h
      · cases h

theorem Writes.overlayEntries_eq_error {l : Changes} {docs : Documents} {e : StoreError}
    (h : overlayEntries l docs = .error e) : e = .undecodable := by
  induction l generalizing docs with
  | nil => cases h
  | cons entry rest ih =>
    obtain ⟨id, w⟩ := entry
    cases w with
    | insert bytes | replace bytes =>
      rcases bind_eq_error.1 h with h | ⟨d, -, h⟩
      · exact decodeStored_eq_error h
      · exact ih h
    | delete => exact ih h

theorem Collection.removeIndex_ne_undecodable (c : Collection) (name : String) :
    c.removeIndex name ≠ .error .undecodable := by
  rw [removeIndex]
  split
  · rintro ⟨⟩
  · split <;> rintro ⟨⟩

namespace View

theorem load_eq_error {cat : Catalog} {ns : Namespace} {writes : Writes} {seed : Nat}
    {e : StoreError} (h : load cat ns writes seed = .error e) : e = .undecodable := by
  rcases bind_eq_error.1 h with h | ⟨docs, -, h⟩
  · exact decodeEntries_eq_error (map_eq_error.1 h)
  · rcases bind_eq_error.1 h with h | ⟨docs', -, h⟩
    · exact Writes.overlayEntries_eq_error h
    · cases h

theorem load_eq_undecodable_iff {cat : Catalog} {ns : Namespace} {writes : Writes} {seed : Nat} :
    load cat ns writes seed = .error .undecodable ↔
      ¬((cat.collection ns).Decodes ∧ Writes.Decode writes.entries) := by
  cases h : load cat ns writes seed with
  | ok v => simp [load_isOk_iff.1 ⟨v, h⟩]
  | error e =>
    refine iff_of_true (congrArg _ (load_eq_error h)) fun hdecodes => ?_
    obtain ⟨v, hv⟩ : ∃ v, load cat ns writes seed = .ok v := load_isOk_iff.2 hdecodes
    rw [h] at hv
    cases hv

/-- The view has written a document that the decoder refuses. -/
def WritesUnreadable (v : View) : Prop :=
  ∃ id d, id ∈ v.touched.keys ∧ v.docs.find? id = some d ∧ d.isReadable = false

theorem Valid.writesUnreadable_iff {v : View} (h : v.Valid) :
    v.WritesUnreadable ↔ ¬Writes.Decode v.changes := by
  rw [h.tracked.decode_changes_iff]
  constructor
  · rintro ⟨id, d, hkey, hd, hunreadable⟩ hreadable
    obtain ⟨_, htouched⟩ := SortedMap.mem_keys_iff.1 hkey
    rw [hreadable id d htouched hd] at hunreadable
    cases hunreadable
  · intro hnot
    by_contra hnone
    refine hnot fun id d htouched hd => ?_
    by_contra hunreadable
    exact hnone ⟨id, d, SortedMap.mem_keys_iff.2 ⟨(), htouched⟩, hd, by simpa using hunreadable⟩

end View

namespace Client

/-! ## Everything decodes -/

/-- Everything that is stored or buffered decodes. -/
structure Decodes (c : Client) : Prop where
  stored : ∀ ns, (c.catalog.collection ns).Decodes
  buffered : ∀ id s t, c.session? id = some s → s.transaction = some t →
    ∀ ns, Writes.Decode (t.pending.writesOf ns).entries

theorem decodes_fresh (autoCreate : Bool) (seed : Nat) : (fresh autoCreate seed).Decodes where
  stored _ _ he := absurd he List.not_mem_nil
  buffered id s t h := by simp [session?, fresh] at h

variable {c c' : Client} {id : SessionId} {s s' : Session}

theorem Decodes.of_stored (h : c.Decodes) (hstored : ∀ ns, c'.stored ns = c.stored ns)
    (hsessions : c'.sessions = c.sessions) : c'.Decodes where
  stored ns e he := by
    have heq : (c'.catalog.collection ns).stored = (c.catalog.collection ns).stored := hstored ns
    exact h.stored ns e (heq ▸ he)
  buffered id s t hs := h.buffered id s t (session?_of_eq hsessions id ▸ hs)

theorem Decodes.of_eq (h : c.Decodes) (hcatalog : c'.catalog = c.catalog)
    (hsessions : c'.sessions = c.sessions) : c'.Decodes :=
  h.of_stored (stored_of_eq hcatalog) hsessions

theorem Decodes.setSession (h : c.Decodes) (hs : c.session? id = some s)
    (hs' : ∀ t, s'.transaction = some t → ∀ ns, Writes.Decode (t.pending.writesOf ns).entries)
    (hstored : ∀ ns, (c'.catalog.collection ns).Decodes)
    (hsessions : c'.sessions = (c.setSession id s').sessions) : c'.Decodes where
  stored := hstored
  buffered id' s'' t hid' ht := by
    rw [session?_of_eq hsessions] at hid'
    rcases session?_setSession hs s' hid' with ⟨-, rfl⟩ | ⟨-, hid'⟩
    · exact hs' t ht
    · exact h.buffered id' s'' t hid' ht

theorem Decodes.closeSession (h : c.Decodes) (hs : c.session? id = some s)
    (hs' : s'.transaction = none) (hstored : ∀ ns, (c'.catalog.collection ns).Decodes)
    (hsessions : c'.sessions = (c.setSession id s').sessions) : c'.Decodes := by
  refine h.setSession hs (fun t ht => ?_) hstored hsessions
  rw [hs'] at ht
  cases ht

theorem Decodes.writesOf (h : c.Decodes) (caller : Caller) (ns : Namespace) :
    Writes.Decode (c.writesOf caller ns).entries := by
  rw [Client.writesOf]
  split
  · rename_i id s t hopen
    obtain ⟨-, hs, -, ht⟩ := transactionOf?_eq_some_iff.1 hopen
    exact h.buffered id s t hs ht ns
  · exact Writes.decode_empty

/-! ## Requests -/

/-- The event is an accepted operation that writes a document which the decoder refuses. -/
def Overreaches (c : Client) : Event → Prop
  | .request caller (.documents h op) =>
    ∃ reply v, (c.perform caller (.documents h op)).1 = .ok reply ∧
      c.runOn h (c.writesOf caller h.ns) op = .ok (reply, v) ∧ v.WritesUnreadable
  | _ => False

theorem decodes_of_within (h : c.Decodes) {cat : Catalog} (hwithin : cat.Within c.catalog)
    (ns : Namespace) : (cat.collection ns).Decodes := by
  rw [Catalog.collection]
  cases hc : cat.collection? ns with
  | none => exact fun e he => absurd he List.not_mem_nil
  | some collection =>
    rcases hwithin ns collection hc with rfl | ⟨ns', hc'⟩
    · exact fun e he => absurd he List.not_mem_nil
    · have hdecodes := h.stored ns'
      rwa [Catalog.collection_of_eq_some hc'] at hdecodes

theorem Decodes.runDocuments (h : c.Decodes) (hc : c.Valid) {caller : Caller} {handle : Handle}
    {op : DocumentOp} (hr : (Request.documents handle op).Ordered)
    (hfits : ¬c.Overreaches (.request caller (.documents handle op))) :
    (c.runDocuments caller handle op).2.Decodes := by
  have hcount : (c.countOperation caller).Decodes := h.of_eq (by simp) (by simp)
  rcases runDocuments_cases (Prod.eta (c.runDocuments caller handle op)).symm with
    ⟨hcatalog, hsessions, -⟩ | ⟨hnone, hrun⟩ | ⟨id, s, t, hopen, hrun⟩
  · exact h.of_eq hcatalog hsessions
  · obtain ⟨hsessions, ⟨hcatalog, -⟩ | ⟨reply, v, hreply, hon, happly⟩⟩ := runDirect_cases hrun
    · exact hcount.of_eq hcatalog hsessions
    · rw [countOperation_runOn] at hon
      have hv := hc.runOn hr.1 hr.2 validChanges_empty hon
      have hdecode : Writes.Decode v.changes := by
        by_contra hnot
        exact hfits ⟨reply, v, hreply, by rw [writesOf_eq_empty hnone, hon],
          hv.writesUnreadable_iff.2 hnot⟩
      refine ⟨fun ns => ?_, fun id s t hs => hcount.buffered id s t (session?_of_eq hsessions id ▸ hs)⟩
      rw [countOperation_catalog] at happly
      rw [Catalog.collection_of_applyChanges happly ns]
      split
      · exact (h.stored handle.ns).foldl_applyChange (hc.catalog.collection handle.ns).sorted
          hv.changes.sorted hdecode
      · exact h.stored ns
  · obtain ⟨-, hs, -, ht⟩ := transactionOf?_eq_some_iff.1 hopen
    obtain ⟨hcatalog, ⟨hsessions, -⟩ | ⟨reply, v, hreply, hon, hsessions⟩⟩ := runBuffered_cases hrun
    · exact hcount.of_eq hcatalog hsessions
    · rw [countOperation_runOn] at hon
      have hwrites := (hc.pending id s t hs ht).writesOf handle.ns
      have hv := hc.runOn hr.1 hr.2 hwrites hon
      have hdecode : Writes.Decode v.changes := by
        by_contra hnot
        exact hfits ⟨reply, v, hreply, by rw [writesOf_eq hopen, hon],
          hv.writesUnreadable_iff.2 hnot⟩
      have hs' : (c.countOperation caller).session? id = some s := by
        rw [session?_of_eq (countOperation_sessions c caller), hs]
      refine hcount.setSession hs' (fun t' ht' ns => ?_) (hcatalog ▸ hcount.stored) hsessions
      cases ht'
      by_cases hns : ns = handle.ns
      · rw [hns]
        exact (hv.decode_record_iff hwrites (h.buffered id s t hs ht handle.ns)).2 hdecode
      · rw [Pending.writesOf_record_of_ne _ hns]
        exact h.buffered id s t hs ht ns

theorem Decodes.perform (h : c.Decodes) (hc : c.Valid) {caller : Caller} {r : Request}
    (hr : r.Ordered) (hfits : ¬c.Overreaches (.request caller r)) :
    (c.perform caller r).2.Decodes := by
  by_cases hdocuments : ∃ handle op, r = .documents handle op
  · obtain ⟨handle, op, rfl⟩ := hdocuments
    exact h.runDocuments hc hr hfits
  by_cases hindex : ∃ ns i, r = .createIndex ns i
  · obtain ⟨ns, i, rfl⟩ := hindex
    exact h.of_stored (stored_createIndex hc caller ns i)
      (createIndex_cases (Prod.eta (c.createIndex caller ns i)).symm).1
  obtain ⟨hsessions, hwithin | ⟨ns, name, before, after, hbefore, hafter, hcatalog⟩⟩ :=
    c.perform_administration caller (fun handle op heq => hdocuments ⟨handle, op, heq⟩)
      fun ns i heq => hindex ⟨ns, i, heq⟩
  · exact ⟨decodes_of_within h hwithin,
      fun id s t hs => h.buffered id s t (session?_of_eq hsessions id ▸ hs)⟩
  · refine h.of_stored (fun ns' => ?_) hsessions
    obtain ⟨-, rfl⟩ := Collection.removeIndex_eq_ok hafter
    unfold Client.stored
    rw [hcatalog]
    exact stored_put _ ns ns' _ (by rw [Catalog.collection_of_eq_some hbefore])

/-! ## Every event -/

theorem Decodes.commitTransaction (h : c.Decodes) (hc : c.Valid) (hs : c.session? id = some s) :
    (c.commitTransaction id).2.Decodes := by
  cases ht : s.transaction with
  | none =>
    rw [commitTransaction_of_none hs ht]
    exact h
  | some t =>
    by_cases harmed : c.faults.commits = 0
    · obtain ⟨-, hcatalog, hsessions, -⟩ := commitTransaction_of_unarmed hs ht harmed
      refine h.closeSession hs rfl (fun ns => ?_) hsessions
      have hpending := hc.pending id s t hs ht
      rw [hcatalog]
      rcases c.catalog.commit_cases c.autoCreate hpending.sorted with
        ⟨cat, hcommit, -, hcat⟩ | ⟨e, hcommit, -⟩
      · rw [hcommit, Catalog.collection, hcat, Catalog.getD_changed]
        exact (h.stored ns).foldl_applyChange (hc.catalog.collection ns).sorted
          (hpending.writesOf ns).sorted (h.buffered id s t hs ht ns)
      · rw [hcommit]
        exact h.stored ns
    · obtain ⟨-, hcatalog, hsessions⟩ := commitTransaction_of_armed hs ht harmed
      exact h.of_eq hcatalog hsessions

/-- Every event keeps everything decodable but one that overreaches. -/
theorem Decodes.after (h : c.Decodes) (hc : c.Valid) {e : Event} (he : e.Ordered)
    (hfits : ¬c.Overreaches e) : (c.after e).Decodes := by
  cases e with
  | request caller r => exact h.perform hc he hfits
  | startSession options =>
    obtain ⟨hcatalog, hsessions | hsessions⟩ := c.startSession_cases options
    · exact h.of_eq hcatalog hsessions
    · have hstored : ∀ ns, ((c.startSession options).2.catalog.collection ns).Decodes :=
        hcatalog ▸ h.stored
      refine ⟨hstored, fun id s t hs ht => ?_⟩
      rcases session?_of_append hsessions hs with hs | rfl
      · exact h.buffered id s t hs ht
      · cases ht
  | startTransaction id options =>
    rw [Client.after]
    refine onSession_induction h fun s hs => ?_
    obtain ⟨hcatalog, hsessions | ⟨-, options', hsessions⟩⟩ := startTransaction_cases hs options
    · exact h.of_eq hcatalog hsessions
    · refine h.setSession hs (fun t ht ns => ?_) (hcatalog ▸ h.stored) hsessions
      cases ht
      exact Writes.decode_empty
  | commitTransaction id =>
    rw [Client.after]
    exact onSession_induction h fun s hs => h.commitTransaction hc hs
  | abortTransaction id =>
    rw [Client.after]
    refine onSession_induction h fun s hs => ?_
    obtain ⟨hcatalog, hsessions | hsessions⟩ := abortTransaction_cases hs
    · exact h.of_eq hcatalog hsessions
    · exact h.closeSession hs rfl (hcatalog ▸ h.stored) hsessions
  | endSession id =>
    rw [Client.after]
    refine onSession_induction h fun s hs => ?_
    obtain ⟨hcatalog, hsessions, -⟩ := endSession_eq hs
    exact h.closeSession hs rfl (hcatalog ▸ h.stored) hsessions
  | arm kind n | reseed seed => exact h.of_eq rfl rfl

/-! ## What can be read -/

/-- Plain searches find documents everywhere, and no request and no commit fails because bytes do not
decode. -/
structure Readable (c : Client) : Prop where
  found : ∀ ns, ∃ docs,
    (c.perform .plain (.documents { ns := ns } (.find .all {}))).1 = .ok (.documents docs)
  requests : ∀ caller r, (c.perform caller r).1 ≠ .error .undecodable
  commits : ∀ id, (c.commitTransaction id).1 ≠ .error .undecodable

theorem lock_ne_undecodable (c : Client) (caller : Caller) : c.lock caller ≠ .error .undecodable := by
  cases caller with
  | plain | stranger => rintro ⟨⟩
  | session id =>
    rw [lock]
    split
    · rintro ⟨⟩
    · split <;> rintro ⟨⟩

theorem runOn_ne_undecodable {handle : Handle} {writes : Writes}
    (hstored : (c.catalog.collection handle.ns).Decodes) (hwrites : Writes.Decode writes.entries)
    (op : DocumentOp) : c.runOn handle writes op ≠ .error .undecodable :=
  bind_ne_error (fun h => View.load_eq_undecodable_iff.1 h ⟨hstored, hwrites⟩)
    fun v => op.run_ne_undecodable handle.narrow v

theorem runDirect_ne_undecodable (h : c.Decodes) (handle : Handle) (op : DocumentOp) :
    (c.runDirect handle op).1 ≠ .error .undecodable := by
  have hrun := runOn_ne_undecodable (h.stored handle.ns) Writes.decode_empty op
  rw [runDirect]
  split
  · rename_i e he
    exact error_ne_error hrun he
  · dsimp only
    split
    · rintro ⟨⟩
    · rename_i e he
      rw [(Catalog.applyChanges_eq_error he).1]
      rintro ⟨⟩

theorem runBuffered_ne_undecodable (h : c.Decodes) (id : SessionId) (s : Session)
    (t : OpenTransaction) (handle : Handle) (op : DocumentOp)
    (ht : Writes.Decode (t.pending.writesOf handle.ns).entries) :
    (c.runBuffered id s t handle op).1 ≠ .error .undecodable := by
  have hrun := runOn_ne_undecodable (h.stored handle.ns) ht op
  rw [runBuffered]
  split
  · rename_i e he
    exact error_ne_error hrun he
  · dsimp only
    split <;> rintro ⟨⟩

theorem runDocuments_ne_undecodable (h : c.Decodes) (caller : Caller) (handle : Handle)
    (op : DocumentOp) : (c.runDocuments caller handle op).1 ≠ .error .undecodable := by
  have hcount : (c.countOperation caller).Decodes := h.of_eq (by simp) (by simp)
  have hcheck := op.check_ne_undecodable
  have hlock := c.lock_ne_undecodable caller
  rw [runDocuments]
  split
  · rename_i e he
    exact error_ne_error hcheck he
  · simp only [countOperation_lock]
    split
    · rename_i e he
      exact error_ne_error hlock he
    · rename_i locked hlocked
      split
      · rename_i id s t hopen
        have htransaction : c.transactionOf? caller = some (id, s, t) := by
          rw [transactionOf?, hlocked]
          exact hopen
        obtain ⟨-, hs, -, ht⟩ := transactionOf?_eq_some_iff.1 htransaction
        exact runBuffered_ne_undecodable hcount id s t handle op (h.buffered id s t hs ht handle.ns)
      · exact runDirect_ne_undecodable hcount handle op

theorem checkUniqueIndexes_ne_undecodable (ns : Namespace) (indexes : List Index)
    (docs : List Document) : checkUniqueIndexes ns indexes docs ≠ .error .undecodable := by
  induction indexes with
  | nil => rintro ⟨⟩
  | cons i rest ih =>
    rw [checkUniqueIndexes]
    split
    · split
      · rintro ⟨⟩
      · exact ih
    · exact ih

theorem overlaid_ne_undecodable {α : Type} {collection : Collection} {writes : Writes}
    (hstored : collection.Decodes) (hwrites : Writes.Decode writes.entries)
    {check : Documents → Except StoreError α} (hcheck : ∀ docs, check docs ≠ .error .undecodable) :
    (do
      let docs ← collection.documents
      let docs ← writes.overlay docs
      check docs) ≠ .error .undecodable := by
  obtain ⟨loaded, hloaded⟩ := Collection.exists_documents hstored
  obtain ⟨docs, hover⟩ := Writes.exists_overlay hwrites loaded
  rw [hloaded, ok_bind, hover, ok_bind]
  exact hcheck docs

theorem addIndex_ne_undecodable {collection : Collection} {writes : Writes}
    (hstored : collection.Decodes) (hwrites : Writes.Decode writes.entries) (ns : Namespace)
    (i : Index) : collection.addIndex ns i writes ≠ .error .undecodable := by
  rw [Collection.addIndex]
  split
  · split <;> rintro ⟨⟩
  · dsimp only
    split
    · refine overlaid_ne_undecodable hstored hwrites fun docs => ?_
      exact bind_ne_error (checkUniqueIndexes_ne_undecodable ns _ _) fun _ => by rintro ⟨⟩
    · rintro ⟨⟩

theorem createIndex_ne_undecodable (h : c.Decodes) (caller : Caller) (ns : Namespace) (i : Index) :
    (c.createIndex caller ns i).1 ≠ .error .undecodable := by
  have hadd := addIndex_ne_undecodable (h.stored ns) (h.writesOf caller ns) ns i
  obtain ⟨-, ⟨-, hrefused, -⟩ | ⟨-, e, he, hrefused⟩ | ⟨name, added, hok, -⟩⟩ :=
    createIndex_cases (Prod.eta (c.createIndex caller ns i)).symm
  · cases hlock : c.lock caller with
    | error e =>
      rw [createIndex, hlock]
      exact error_ne_error (c.lock_ne_undecodable caller) hlock
    | ok locked =>
      have hempty : i.keys.isEmpty = true := by
        rcases hrefused with ⟨e, he⟩ | hempty
        · rw [hlock] at he
          cases he
        · exact hempty
      rw [createIndex, hlock]
      simp only [hempty, if_true]
      rintro ⟨⟩
  · rw [he]
    exact error_ne_error hadd hrefused
  · rw [hok]
    rintro ⟨⟩

theorem command_ne_undecodable (caller : Caller) (name : String) (inTransaction : Bool)
    {act : Client → Except StoreError Reply × Client}
    (hact : ∀ c : Client, (act c).1 ≠ .error .undecodable) :
    (c.command caller name inTransaction act).1 ≠ .error .undecodable := by
  rw [command]
  split
  · rename_i e he
    have hcheck : c.checkCommand caller name inTransaction ≠ .error .undecodable :=
      bind_ne_error (c.lock_ne_undecodable caller) fun _ => by split <;> rintro ⟨⟩
    exact error_ne_error hcheck he
  · exact hact _

theorem perform_ne_undecodable (h : c.Decodes) (caller : Caller) (r : Request) :
    (c.perform caller r).1 ≠ .error .undecodable := by
  cases r with
  | documents handle op => exact runDocuments_ne_undecodable h caller handle op
  | createIndex ns i => exact createIndex_ne_undecodable h caller ns i
  | dropIndex ns name =>
    refine command_ne_undecodable caller _ _ fun c => ?_
    rw [dropIndex]
    split
    · rintro ⟨⟩
    · rename_i collection _
      split
      · rename_i e he
        exact error_ne_error (collection.removeIndex_ne_undecodable name) he
      · rintro ⟨⟩
  | listIndexes ns =>
    refine command_ne_undecodable caller _ _ fun c => ?_
    dsimp only
    rw [listIndexes]
    split <;> rintro ⟨⟩
  | listDatabases | listCollections database =>
    exact command_ne_undecodable caller _ _ fun _ => by rintro ⟨⟩
  | dropDatabase name | dropCollection ns =>
    exact command_ne_undecodable caller _ _ fun _ => by rintro ⟨⟩
  | createCollection ns =>
    refine command_ne_undecodable caller _ _ fun c => ?_
    rw [Catalog.createCollection]
    split <;> rintro ⟨⟩
  | renameCollection source name =>
    refine command_ne_undecodable caller _ _ fun c => ?_
    rw [Catalog.renameCollection]
    split
    · rintro ⟨⟩
    · split
      · rintro ⟨⟩
      · split <;> rintro ⟨⟩

theorem checkWrites_ne_undecodable {cat : Catalog} {ns : Namespace} {writes : Writes}
    (hstored : (cat.collection ns).Decodes) (hwrites : Writes.Decode writes.entries)
    (create : Bool) : cat.checkWrites create ns writes ≠ .error .undecodable := by
  rw [Catalog.checkWrites]
  split
  · split <;> rintro ⟨⟩
  · rename_i collection hcollection
    rw [Catalog.collection_of_eq_some hcollection] at hstored
    split
    · rintro ⟨⟩
    · split
      · rintro ⟨⟩
      · exact overlaid_ne_undecodable hstored hwrites fun docs =>
          checkUniqueIndexes_ne_undecodable ns _ _

theorem checkPending_ne_undecodable {cat : Catalog} {l : List (Namespace × Writes)}
    (hstored : ∀ ns, (cat.collection ns).Decodes) (hl : ∀ e ∈ l, Writes.Decode e.2.entries)
    (create : Bool) : cat.checkPending create l ≠ .error .undecodable := by
  induction l with
  | nil => rintro ⟨⟩
  | cons e rest ih =>
    have hfirst := checkWrites_ne_undecodable (hstored e.1) (hl e List.mem_cons_self) create
    exact bind_ne_error hfirst fun _ => ih fun e' he' => hl e' (List.mem_cons_of_mem _ he')

theorem applyPending_ne_undecodable (cat : Catalog) (create : Bool)
    (l : List (Namespace × Writes)) : (cat.applyPending create l).1 ≠ .error .undecodable := by
  induction l generalizing cat with
  | nil => rintro ⟨⟩
  | cons e rest ih =>
    rw [Catalog.applyPending]
    split
    · exact ih _
    · rename_i e' he'
      rw [(Catalog.applyChanges_eq_error he').1]
      rintro ⟨⟩

theorem commitTransaction_ne_undecodable (h : c.Decodes) (hc : c.Valid) (id : SessionId) :
    (c.commitTransaction id).1 ≠ .error .undecodable := by
  cases hs : c.session? id with
  | none =>
    rw [commitTransaction, hs]
    rintro ⟨⟩
  | some s =>
    cases ht : s.transaction with
    | none =>
      rw [commitTransaction_of_none hs ht]
      rintro ⟨⟩
    | some t =>
      by_cases harmed : c.faults.commits = 0
      · have hbuffered : ∀ e ∈ t.pending.entries, Writes.Decode e.2.entries := by
          intro e he
          have hwrites := h.buffered id s t hs ht e.1
          rwa [Pending.writesOf, (hc.pending id s t hs ht).sorted.find?_eq_some_iff.2 he] at hwrites
        have hcheck := checkPending_ne_undecodable h.stored hbuffered c.autoCreate
        rw [(commitTransaction_of_unarmed hs ht harmed).1, Catalog.commit]
        split
        · rename_i e he
          exact error_ne_error hcheck he
        · exact applyPending_ne_undecodable _ _ _
      · rw [(commitTransaction_of_armed hs ht harmed).1]
        rintro ⟨⟩

theorem find_of_decodes (h : c.Decodes) (ns : Namespace) : ∃ docs,
    (c.perform .plain (.documents { ns := ns } (.find .all {}))).1 = .ok (.documents docs) := by
  obtain ⟨v, hload⟩ : ∃ v, View.load c.catalog ns ∅ c.seed = .ok v :=
    View.load_isOk_iff.2 ⟨h.stored ns, Writes.decode_empty⟩
  obtain ⟨loaded, docs, -, -, rfl⟩ := View.load_eq_ok_iff.1 hload
  have hrun : c.runOn { ns := ns } ∅ (.find .all {}) = .ok (_, _) :=
    runOn_eq_ok_iff.2 ⟨_, hload, rfl⟩
  rw [perform, runDocuments_plain c { ns := ns } rfl, runDirect, countOperation_runOn, hrun]
  exact ⟨_, rfl⟩

theorem Decodes.readable (h : c.Decodes) (hc : c.Valid) : c.Readable where
  found := find_of_decodes h
  requests := perform_ne_undecodable h
  commits := commitTransaction_ne_undecodable h hc

/-! ## What cannot be read any more -/

theorem perform_eq_undecodable {caller : Caller} {locked : Option (SessionId × Session)}
    (hlock : c.lock caller = .ok locked) {handle : Handle} {op : DocumentOp}
    (hcheck : op.check = .ok ())
    (hnot : ¬((c.catalog.collection handle.ns).Decodes ∧
      Writes.Decode (c.writesOf caller handle.ns).entries)) :
    (c.perform caller (.documents handle op)).1 = .error .undecodable := by
  rw [perform, runDocuments, hcheck]
  simp only [countOperation_lock, hlock]
  have hopen : c.transactionOf? caller = openTransaction locked := by rw [transactionOf?, hlock]
  have hrun {writes : Writes} (hwrites : c.writesOf caller handle.ns = writes) :
      (c.countOperation caller).runOn handle writes op = .error .undecodable := by
    rw [countOperation_runOn]
    exact bind_eq_error.2 (.inl (View.load_eq_undecodable_iff.2 (hwrites ▸ hnot)))
  split
  · rename_i id s t hlocked
    rw [runBuffered, hrun (writesOf_eq (hopen.trans hlocked) handle.ns)]
  · rename_i hlocked
    rw [runDirect, hrun (writesOf_eq_empty (hopen.trans hlocked) handle.ns)]

/-- After an accepted operation that writes what the decoder refuses, someone cannot read the
collection any more: everybody if it was written at once, else the session that has buffered it. -/
theorem not_readable_of_overreaches (hc : c.Valid) {e : Event} (he : e.Ordered)
    (h : c.Overreaches e) : ¬(c.after e).Readable := by
  match e, h with
  | .request caller (.documents handle op), ⟨reply, v, hreply, hon, hunreadable⟩ =>
    intro hreadable
    have hv := hc.runOn he.1 he.2 (hc.writesOf caller handle.ns) hon
    have hdecode := hv.writesUnreadable_iff.1 hunreadable
    rw [perform] at hreply
    rcases runDocuments_cases (Prod.eta (c.runDocuments caller handle op)).symm with
      ⟨-, -, e, hfailed⟩ | ⟨hnone, hrun⟩ | ⟨id, s, t, hopen, hrun⟩
    · cases hreply.symm.trans hfailed
    · obtain ⟨-, ⟨-, e, hfailed⟩ | ⟨reply', v', -, hon', happly⟩⟩ := runDirect_cases hrun
      · cases hreply.symm.trans hfailed
      · rw [countOperation_runOn, ← writesOf_eq_empty hnone handle.ns, hon] at hon'
        cases hon'
        rw [countOperation_catalog] at happly
        have hafter := Catalog.collection_of_applyChanges happly handle.ns
        rw [if_pos rfl] at hafter
        refine hreadable.requests .plain (.documents { ns := handle.ns } (.find .all {}))
          (perform_eq_undecodable rfl rfl fun hstored => hdecode ?_)
        have hdecodes : ((c.runDocuments caller handle op).2.catalog.collection handle.ns).Decodes :=
          hstored.1
        rw [hafter] at hdecodes
        exact Collection.decode_of_foldl_applyChange hv.changes.sorted hdecodes
    · obtain ⟨rfl, hs, hended, ht⟩ := transactionOf?_eq_some_iff.1 hopen
      have hperform : c.perform (.session id) (.documents handle op) =
          (.ok reply, (c.runDocuments (.session id) handle op).2) := Prod.ext hreply rfl
      obtain ⟨-, v', hon', hopen'⟩ := buffered_of_perform hc hs ht hperform
      rw [← writesOf_eq hopen handle.ns, hon] at hon'
      cases hon'
      obtain ⟨v₀, hload, -⟩ := runOn_eq_ok_iff.1 hon
      have hold := (View.load_isOk_iff.1 ⟨v₀, hload⟩).2
      rw [writesOf_eq hopen] at hold
      have hwrites := (hc.pending id s t hs ht).writesOf handle.ns
      have hlocked := transactionOf?_eq_some_iff.1 hopen'
      refine hreadable.requests (.session id) (.documents { ns := handle.ns } (.find .all {}))
        (perform_eq_undecodable (lock_of_session hlocked.2.1 hlocked.2.2.1) rfl fun hstored => ?_)
      rw [writesOf_eq hopen'] at hstored
      exact hdecode ((hv.decode_record_iff hwrites hold).1 hstored.2)

/-! ## Every run -/

/-- A run on a new client stays readable exactly when no operation in it that is accepted writes a
document which the decoder refuses. -/
theorem readable_run_iff (autoCreate : Bool) (seed : Nat) {events : List Event}
    (h : ∀ e ∈ events, e.Ordered) :
    (∀ n, ((fresh autoCreate seed).run (events.take n)).Readable) ↔
      ∀ n e, events[n]? = some e →
        ¬((fresh autoCreate seed).run (events.take n)).Overreaches e := by
  constructor
  · intro hreadable n e he hoverreaches
    refine not_readable_of_overreaches (valid_run_take h n) (h e (List.mem_of_getElem? he))
      hoverreaches ?_
    rw [← run_take_succ _ he]
    exact hreadable (n + 1)
  · intro hfits n
    refine Decodes.readable ?_ (valid_run_take h n)
    induction n with
    | zero => exact decodes_fresh autoCreate seed
    | succ n ih =>
      cases he : events[n]? with
      | none =>
        rw [List.take_add_one, he, Option.toList_none, List.append_nil]
        exact ih
      | some e =>
        rw [run_take_succ _ he]
        exact ih.after (valid_run_take h n) (h e (List.mem_of_getElem? he)) (hfits n e he)

/-! ## A document that is too deep -/

/-- A value inside so many documents. -/
def nest : Nat → Value
  | 0 => .null
  | n + 1 => .document ⟨[("a", nest n)]⟩

def buried (n : Nat) : Document := ⟨[("_id", .integer 1), ("a", nest n)]⟩

theorem ordered_nest (n : Nat) : (nest n).Ordered := by
  induction n with
  | zero => trivial
  | succ n ih => exact ⟨List.pairwise_singleton _ _, ih, trivial⟩

theorem ordered_buried (n : Nat) : (buried n).Ordered :=
  Document.ordered_pair (by decide) trivial (ordered_nest n)

theorem levels_nest (n : Nat) : (nest n).levels = 2 * n + 1 := by
  induction n with
  | zero => rfl
  | succ n ih =>
    rw [nest, Value.levels, Value.levelsOfFields, ih, Value.levelsOfFields]
    omega

theorem isSized_nest (n : Nat) : (nest n).isSized = true := by
  induction n with
  | zero => rfl
  | succ n ih =>
    rw [nest, Value.isSized, Value.isSizedFields, ih]
    rfl

/-- The decoder takes documents with at most 127 documents inside one another. -/
theorem isReadable_buried (n : Nat) : (buried n).isReadable = decide (n ≤ 127) := by
  have hlevels : (Value.document (buried n)).levels = 2 + max 1 (max (nest n).levels 0) := rfl
  have hsized : (Value.document (buried n)).isSized = true := by
    rw [buried, Value.isSized, Value.isSizedFields, Value.isSizedFields, isSized_nest]
    rfl
  rw [Document.isReadable, Value.isReadable, hlevels, levels_nest, hsized, Cbor.depthLimit,
    Bool.and_true, decide_eq_decide]
  omega

def burial (ns : Namespace) : List Event :=
  [.request .plain (.documents { ns := ns } (.insertOne (buried 128)))]

theorem ordered_burial (ns : Namespace) : ∀ e ∈ burial ns, e.Ordered := by
  intro e he
  rw [List.mem_singleton.1 he]
  exact ⟨trivial, ordered_buried 128⟩

theorem readable_run_iff_of_burial :
    (∀ e ∈ burial ⟨"app", "items"⟩, e.Ordered) ∧
      ((∀ n, ((fresh true 0).run ((burial ⟨"app", "items"⟩).take n)).Readable) ↔
        ∀ n e, (burial ⟨"app", "items"⟩)[n]? = some e →
          ¬((fresh true 0).run ((burial ⟨"app", "items"⟩).take n)).Overreaches e) :=
  ⟨ordered_burial _, readable_run_iff true 0 (ordered_burial _)⟩

/-- The insertion is accepted, and then a plain search of the collection fails. -/
theorem not_readable_burial :
    let c := (fresh true 0).run (burial ⟨"app", "items"⟩)
    c.Reachable ∧
      ((fresh true 0).perform .plain
        (.documents { ns := ⟨"app", "items"⟩ } (.insertOne (buried 128)))).1 = .ok (.id (.integer 1)) ∧
      (c.perform .plain (.documents { ns := ⟨"app", "items"⟩ } (.find .all {}))).1 =
        .error .undecodable := by
  have hstored : (((fresh true 0).run (burial ⟨"app", "items"⟩)).catalog.collection
      ⟨"app", "items"⟩).stored.entries = [(.integer 1, (buried 128).encode)] := by
    rfl
  refine ⟨⟨true, 0, _, ordered_burial _, rfl⟩, by rfl, perform_eq_undecodable rfl rfl fun h => ?_⟩
  have hmem : (.integer 1, (buried 128).encode) ∈ (((fresh true 0).run
      (burial ⟨"app", "items"⟩)).catalog.collection ⟨"app", "items"⟩).stored.entries := by
    rw [hstored]
    exact List.mem_singleton_self _
  have hdecodes := h.1 _ hmem
  rw [Document.decode?_encode (ordered_buried 128), isReadable_buried] at hdecodes
  cases hdecodes

end Client

end ScopedStore
