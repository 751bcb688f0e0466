import ScopedStore.Proofs.Client.Commit
import ScopedStore.Proofs.Store.Databases

/-!
# How a client represents its contents

`Represented` says what the tables of a client may hold: bytes only of documents under their own
identifier, stored and buffered alike, index lists that start with the index on the identifying field
and name every index apart, and no database without collections. `Reachable.valid` has most of it,
read through lookups; here every event is shown to keep the catalog tidy as well, so that it holds of
every entry (`Reachable.represented`).
-/

namespace ScopedStore

namespace Client

/-! ## Events keep the catalog tidy -/

theorem tidy_runDocuments {c : Client} (h : c.catalog.Tidy) (caller : Caller) (handle : Handle)
    (op : DocumentOp) : (c.runDocuments caller handle op).2.catalog.Tidy := by
  rcases runDocuments_cases (Prod.eta (c.runDocuments caller handle op)).symm with
    ⟨hcatalog, -, -⟩ | ⟨-, hrun⟩ | ⟨id, s, t, -, hrun⟩
  · exact hcatalog ▸ h
  · obtain ⟨-, ⟨hcatalog, -⟩ | ⟨reply, v, -, -, happly⟩⟩ := runDirect_cases hrun
    · rw [hcatalog, countOperation_catalog]
      exact h
    · rw [countOperation_catalog] at happly
      exact h.applyChanges happly
  · obtain ⟨hcatalog, -⟩ := runBuffered_cases hrun
    rw [hcatalog, countOperation_catalog]
    exact h

theorem tidy_createIndex {c : Client} (h : c.catalog.Tidy) (hc : c.Valid) (caller : Caller)
    (ns : Namespace) (i : Index) : (c.createIndex caller ns i).2.catalog.Tidy := by
  have hnamed := h.collection ns
  obtain ⟨-, ⟨hcatalog, -⟩ | ⟨hcatalog, -⟩ | ⟨name, added, -, -, hadd, hcatalog⟩⟩ :=
    createIndex_cases (Prod.eta (c.createIndex caller ns i)).symm
  · exact hcatalog ▸ h
  · exact hcatalog ▸ h.put ns hnamed
  · exact hcatalog ▸ (h.put ns hnamed).put ns (hnamed.addIndex (hc.catalog.collection ns) hadd)

theorem tidy_dropIndex {c : Client} (h : c.catalog.Tidy) (ns : Namespace) (name : String) :
    (c.dropIndex ns name).2.catalog.Tidy := by
  obtain ⟨-, hcatalog | ⟨before, after, hbefore, hafter, hcatalog⟩⟩ := c.dropIndex_cases ns name
  · exact hcatalog ▸ h
  · have hnamed := h.collection ns
    rw [Catalog.collection_of_eq_some hbefore] at hnamed
    exact hcatalog ▸ h.put ns (hnamed.removeIndex hafter)

theorem tidy_takeCatalog {c : Client} (h : c.catalog.Tidy) {outcome : Except StoreError Catalog}
    (houtcome : ∀ cat, outcome = .ok cat → cat.Tidy) : (c.takeCatalog outcome).2.catalog.Tidy := by
  cases outcome with
  | ok cat => exact houtcome cat rfl
  | error e => exact h

theorem tidy_command {c : Client} (h : c.catalog.Tidy) (caller : Caller) (name : String)
    (inTransaction : Bool) {act : Client → Except StoreError Reply × Client}
    (hact : ∀ c : Client, c.catalog.Tidy → (act c).2.catalog.Tidy) :
    (c.command caller name inTransaction act).2.catalog.Tidy := by
  rcases c.command_cases caller name inTransaction act with hrefused | hacted
  · rw [hrefused]
    exact h
  · rw [hacted]
    exact hact _ (by simpa using h)

theorem tidy_perform {c : Client} (h : c.catalog.Tidy) (hc : c.Valid) (caller : Caller)
    (r : Request) : (c.perform caller r).2.catalog.Tidy := by
  cases r with
  | documents handle op => exact tidy_runDocuments h caller handle op
  | createIndex ns i => exact tidy_createIndex h hc caller ns i
  | dropIndex ns name => exact tidy_command h caller _ _ fun _ h => tidy_dropIndex h ns name
  | listIndexes ns | listDatabases | listCollections database =>
    exact tidy_command h caller _ _ fun _ h => h
  | dropDatabase name =>
    refine tidy_command h caller _ _ fun _ h => tidy_takeCatalog h fun cat hcat => ?_
    cases hcat
    exact h.dropDatabase name
  | createCollection ns =>
    exact tidy_command h caller _ _ fun _ h => tidy_takeCatalog h fun _ => h.createCollection
  | dropCollection ns =>
    refine tidy_command h caller _ _ fun _ h => tidy_takeCatalog h fun cat hcat => ?_
    cases hcat
    exact h.dropCollection ns
  | renameCollection source name =>
    exact tidy_command h caller _ _ fun _ h => tidy_takeCatalog h fun _ => h.renameCollection

theorem tidy_commitTransaction {c : Client} (h : c.catalog.Tidy) {id : SessionId} {s : Session}
    (hs : c.session? id = some s) : (c.commitTransaction id).2.catalog.Tidy := by
  cases ht : s.transaction with
  | none =>
    rw [commitTransaction_of_none hs ht]
    exact h
  | some t =>
    by_cases harmed : c.faults.commits = 0
    · obtain ⟨-, hcatalog, -⟩ := commitTransaction_of_unarmed hs ht harmed
      rw [hcatalog]
      exact h.commit c.autoCreate t.pending
    · obtain ⟨-, hcatalog, -⟩ := commitTransaction_of_armed hs ht harmed
      exact hcatalog ▸ h

theorem tidy_after {c : Client} (h : c.catalog.Tidy) (hc : c.Valid) (e : Event) :
    (c.after e).catalog.Tidy := by
  cases e with
  | request caller r => exact tidy_perform h hc caller r
  | startSession options =>
    rw [after, (c.startSession_cases options).1]
    exact h
  | startTransaction id options =>
    rw [after]
    refine onSession_induction (P := fun c => c.catalog.Tidy) h fun s hs => ?_
    rw [(startTransaction_cases hs options).1]
    exact h
  | commitTransaction id =>
    rw [after]
    exact onSession_induction (P := fun c => c.catalog.Tidy) h fun s hs =>
      tidy_commitTransaction h hs
  | abortTransaction id =>
    rw [after]
    refine onSession_induction (P := fun c => c.catalog.Tidy) h fun s hs => ?_
    rw [(abortTransaction_cases hs).1]
    exact h
  | endSession id =>
    rw [after]
    refine onSession_induction (P := fun c => c.catalog.Tidy) h fun s hs => ?_
    rw [(endSession_eq hs).1]
    exact h
  | arm kind n | reseed seed => exact h

theorem Reachable.tidy {c : Client} (h : c.Reachable) : c.catalog.Tidy := by
  obtain ⟨autoCreate, seed, events, hevents, rfl⟩ := h
  -- making an index asks for a valid client, so both are carried along the run
  refine (run_induction (P := fun c => c.Valid ∧ c.catalog.Tidy) hevents
    ⟨valid_fresh autoCreate seed, Catalog.tidy_empty⟩ fun c e he hc => ?_).2
  exact ⟨hc.1.after he, tidy_after hc.2 hc.1 e⟩

/-! ## Every entry of the tables -/

/-- What the tables of a client hold. -/
structure Represented (c : Client) : Prop where
  /-- Stored bytes were written for a document with the identifier that they are stored under. -/
  stored : ∀ db ∈ c.catalog.databases.entries, ∀ col ∈ db.2.entries,
    ∀ e ∈ col.2.stored.entries, WrittenFor e.1 e.2
  /-- So were the bytes of buffered insertions and replacements. -/
  buffered : ∀ s ∈ c.sessions, ∀ t, s.transaction = some t → ∀ writes ∈ t.pending.entries,
    ∀ e ∈ writes.2.entries, ∀ bytes, e.2 = .insert bytes ∨ e.2 = .replace bytes →
      WrittenFor e.1 bytes
  /-- Index lists start with the index on the identifying field. -/
  onId : ∀ db ∈ c.catalog.databases.entries, ∀ col ∈ db.2.entries,
    ∃ rest, col.2.indexes = Index.onId :: rest
  /-- Every index is listed with a name, and names differ. -/
  named : ∀ db ∈ c.catalog.databases.entries, ∀ col ∈ db.2.entries,
    (∀ i ∈ col.2.indexes, i.name.isSome) ∧ (col.2.indexes.map Index.name).Nodup
  /-- Every database has a collection. -/
  inhabited : ∀ db ∈ c.catalog.databases.entries, db.2.entries ≠ []
  /-- Whoever may ask for the databases is told those that have a collection, each once. -/
  listed : ∀ caller locked, c.lock caller = .ok locked →
    ∃ names, (c.perform caller .listDatabases).1 = .ok (.names names) ∧ names.Nodup ∧
      ∀ name, name ∈ names ↔ ∃ collection, (c.catalog.collection? ⟨name, collection⟩).isSome

theorem exists_session?_of_mem {c : Client} {s : Session} (h : s ∈ c.sessions) :
    ∃ id, c.session? id = some s := by
  obtain ⟨n, hn⟩ := List.mem_iff_getElem?.1 h
  exact ⟨⟨n + 1⟩, by rw [session?, if_neg (Nat.succ_ne_zero n)]; exact hn⟩

theorem listDatabases_of_locked {c : Client} {caller : Caller}
    {locked : Option (SessionId × Session)} (h : c.lock caller = .ok locked) :
    (c.perform caller .listDatabases).1 = .ok (.names c.catalog.databaseNames) := by
  have hcheck : c.checkCommand caller "listDatabases" true = .ok () := by
    rw [checkCommand, h, ok_bind, if_neg (by simp)]
    rfl
  rw [perform, command, hcheck]
  simp

/-- Every client that comes out of a run of any callers and sessions represents its contents so. -/
theorem Reachable.represented {c : Client} (h : c.Reachable) : c.Represented := by
  have hvalid := h.valid
  have htidy := h.tidy
  have hcollection : ∀ db ∈ c.catalog.databases.entries, ∀ col ∈ db.2.entries,
      col.2.Valid ∧ col.2.Named := by
    intro db hdb col hcol
    have hfind : c.catalog.collection? ⟨db.1, col.1⟩ = some col.2 := by
      rw [Catalog.collection?, htidy.sorted.find?_eq_some_iff.2 hdb, Option.bind_some,
        (htidy.databases db hdb).sorted.find?_eq_some_iff.2 hcol]
    exact ⟨hvalid.catalog _ _ hfind, (htidy.databases db hdb).named col hcol⟩
  refine ⟨fun db hdb col hcol e he => ?_, fun s hs t ht writes hwrites e he bytes hbytes => ?_,
    fun db hdb col hcol => (hcollection db hdb col hcol).1.onId, fun db hdb col hcol => ?_,
    fun db hdb => (htidy.databases db hdb).inhabited, fun caller locked hlock => ?_⟩
  · have hcol' := (hcollection db hdb col hcol).1
    exact hcol'.written e.1 e.2 (hcol'.sorted.find?_eq_some_iff.2 he)
  · obtain ⟨id, hid⟩ := exists_session?_of_mem hs
    have hpending := hvalid.pending id s t hid ht
    have hchanges := hpending.writes writes.1 writes.2 (hpending.sorted.find?_eq_some_iff.2 hwrites)
    refine hchanges.written e he bytes ?_
    rcases hbytes with hbytes | hbytes <;> rw [hbytes] <;> rfl
  · obtain ⟨hcol', hnamed⟩ := hcollection db hdb col hcol
    have hnames : col.2.indexes.map Index.name =
        (col.2.indexes.map Index.resolvedName).map some := by
      rw [List.map_map]
      exact List.map_congr_left hnamed
    refine ⟨fun i hi => by rw [hnamed i hi]; rfl, ?_⟩
    rw [hnames]
    exact List.Nodup.map (fun _ _ => Option.some.inj) hcol'.names
  · exact ⟨_, listDatabases_of_locked hlock, htidy.nodup_databaseNames, htidy.mem_databaseNames⟩

theorem represented_ledgerRun :
    ((fresh true 0).run ledgerRun).Reachable ∧
      ((fresh true 0).run ledgerRun).session? ⟨1⟩ =
        some { transaction := some { pending := ledgerPending } } ∧
      ((fresh true 0).run ledgerRun).Represented :=
  ⟨reachable_ledgerRun, by decide +kernel, reachable_ledgerRun.represented⟩

end Client

end ScopedStore
