import ScopedStore.Proofs.Store.Catalog

/-!
# Databases of a catalog

`collection?` sees the first entry of a name and nothing of a database without collections, so the
invariants that are read through it leave room for more. `Tidy` closes the gap: names ascend strictly,
every database has a collection, and every index is listed with its name. A database is made by the
first collection that is put into it and goes with the last one, hence the database names are those
of the namespaces that have a collection (`Tidy.mem_databaseNames`).
-/

namespace ScopedStore

/-! ## Indexes with names -/

namespace Collection

def Named (c : Collection) : Prop := ∀ i ∈ c.indexes, i.name = some i.resolvedName

theorem named_empty : Named {} := by
  intro i hi
  rw [List.mem_singleton.1 hi]
  rfl

theorem Named.foldl_applyChange {c : Collection} (h : c.Named) (changes : Changes) :
    (changes.foldl applyChange c).Named := by
  rw [Collection.foldl_applyChange]
  exact h

theorem Named.addIndex {c : Collection} (h : c.Named) (hc : c.Valid) {ns : Namespace} {i : Index}
    {writes : Writes} {r : String × Collection} (hadd : c.addIndex ns i writes = .ok r) :
    r.2.Named := by
  cases hfound : c.index? i.resolvedName with
  | some found =>
    rw [addIndex_of_found hfound hadd]
    exact h
  | none =>
    obtain ⟨rfl, -⟩ := (hc.addIndex_eq_ok_iff ns hfound).1 hadd
    intro j hj
    rcases List.mem_append.1 hj with hj | hj
    · exact h j hj
    · rw [List.mem_singleton.1 hj]
      rfl

theorem Named.removeIndex {c c' : Collection} (h : c.Named) {name : String}
    (hremove : c.removeIndex name = .ok c') : c'.Named := by
  obtain ⟨-, rfl⟩ := removeIndex_eq_ok hremove
  exact fun i hi => h i (List.mem_filter.1 hi).1

end Collection

/-! ## Databases with collections -/

namespace Database

/-- The collection names ascend, there is a collection, and its indexes have names. -/
structure Tidy (db : Database) : Prop where
  sorted : db.Sorted
  inhabited : db.entries ≠ []
  named : ∀ e ∈ db.entries, e.2.Named

theorem tidy_insert {db : Database} (hsorted : db.Sorted) (hnamed : ∀ e ∈ db.entries, e.2.Named)
    (name : String) {c : Collection} (hc : c.Named) : Tidy (db.insert name c) where
  sorted := hsorted.insert name c
  inhabited hnil := by
    have hfound := SortedMap.mem_of_find? (SortedMap.find?_insert_self db name c)
    rw [hnil] at hfound
    cases hfound
  named e he := by
    rcases SortedMap.mem_entries_insert he with rfl | he
    · exact hc
    · exact hnamed e he

theorem Tidy.erase {db : Database} (h : Tidy db) {name : String}
    (hrest : (db.erase name).isEmpty = false) : Tidy (db.erase name) where
  sorted := h.sorted.erase name
  inhabited hnil := by
    rw [SortedMap.isEmpty, hnil] at hrest
    cases hrest
  named e he := h.named e (SortedMap.mem_of_mem_erase he)

end Database

namespace Catalog

/-- The database names ascend and every database is tidy. -/
structure Tidy (cat : Catalog) : Prop where
  sorted : cat.databases.Sorted
  databases : ∀ e ∈ cat.databases.entries, Database.Tidy e.2

theorem tidy_empty : Tidy {} where
  sorted := SortedMap.sorted_empty
  databases _ h := absurd h List.not_mem_nil

namespace Tidy

variable {cat cat' : Catalog}

theorem database (h : cat.Tidy) {name : String} {db : Database}
    (hdb : cat.databases.find? name = some db) : Database.Tidy db :=
  h.databases (name, db) (SortedMap.mem_of_find? hdb)

theorem collection (h : cat.Tidy) (ns : Namespace) : (cat.collection ns).Named := by
  rw [Catalog.collection]
  cases hc : cat.collection? ns with
  | none => exact Collection.named_empty
  | some c =>
    obtain ⟨db, hdb, hc⟩ := Option.bind_eq_some_iff.1 hc
    exact (h.database hdb).named _ (SortedMap.mem_of_find? hc)

theorem mem_databaseNames (h : cat.Tidy) (name : String) :
    name ∈ cat.databaseNames ↔ ∃ collection, (cat.collection? ⟨name, collection⟩).isSome := by
  rw [databaseNames, SortedMap.keys, List.mem_map]
  constructor
  · rintro ⟨e, he, rfl⟩
    obtain ⟨first, hfirst⟩ := List.exists_mem_of_ne_nil _ (h.databases e he).inhabited
    refine ⟨first.1, ?_⟩
    rw [collection?, h.sorted.find?_eq_some_iff.2 he, Option.bind_some,
      (h.databases e he).sorted.find?_eq_some_iff.2 hfirst]
    rfl
  · rintro ⟨collection, hsome⟩
    obtain ⟨c, hc⟩ := Option.isSome_iff_exists.1 hsome
    obtain ⟨db, hdb, -⟩ := Option.bind_eq_some_iff.1 hc
    exact ⟨(name, db), SortedMap.mem_of_find? hdb, rfl⟩

theorem nodup_databaseNames (h : cat.Tidy) : cat.databaseNames.Nodup :=
  List.pairwise_map.2 (h.sorted.imp fun hlt heq => by simp [heq] at hlt)

theorem isSome_database_iff (h : cat.Tidy) (name : String) :
    (cat.databases.find? name).isSome ↔
      ∃ collection, (cat.collection? ⟨name, collection⟩).isSome := by
  constructor
  · intro hsome
    obtain ⟨db, hdb⟩ := Option.isSome_iff_exists.1 hsome
    exact (h.mem_databaseNames name).1
      (List.mem_map.2 ⟨(name, db), SortedMap.mem_of_find? hdb, rfl⟩)
  · rintro ⟨collection, hsome⟩
    obtain ⟨c, hc⟩ := Option.isSome_iff_exists.1 hsome
    obtain ⟨db, hdb, -⟩ := Option.bind_eq_some_iff.1 hc
    exact Option.isSome_iff_exists.2 ⟨db, hdb⟩

/-- Tidy catalogs with the same collections are equal, because no database is without one. -/
theorem ext_collection? (h : cat.Tidy) (h' : cat'.Tidy)
    (hfind : ∀ ns, cat.collection? ns = cat'.collection? ns) : cat = cat' := by
  refine congrArg Catalog.mk (SortedMap.ext_find? h.sorted h'.sorted fun name => ?_)
  have hsome : (cat.databases.find? name).isSome ↔ (cat'.databases.find? name).isSome := by
    rw [h.isSome_database_iff, h'.isSome_database_iff]
    exact exists_congr fun collection => by rw [hfind]
  cases hdb : cat.databases.find? name with
  | none =>
    rw [hdb, Option.isSome_none, Bool.false_eq_true, false_iff, Bool.not_eq_true,
      Option.isSome_eq_false_iff, Option.isNone_iff_eq_none] at hsome
    exact hsome.symm
  | some db =>
    rw [hdb] at hsome
    obtain ⟨db', hdb'⟩ := Option.isSome_iff_exists.1 (hsome.1 rfl)
    rw [hdb']
    refine congrArg some (SortedMap.ext_find? (h.database hdb).sorted (h'.database hdb').sorted
      fun collection => ?_)
    have := hfind ⟨name, collection⟩
    rwa [collection?, collection?, hdb, hdb'] at this

/-! ## What keeps a catalog tidy -/

theorem insert (h : cat.Tidy) (name : String) {db : Database} (hdb : Database.Tidy db) :
    Tidy ⟨cat.databases.insert name db⟩ where
  sorted := h.sorted.insert name db
  databases e he := by
    rcases SortedMap.mem_entries_insert he with rfl | he
    · exact hdb
    · exact h.databases e he

theorem dropDatabase (h : cat.Tidy) (name : String) : (cat.dropDatabase name).Tidy where
  sorted := h.sorted.erase name
  databases e he := h.databases e (SortedMap.mem_of_mem_erase he)

theorem put (h : cat.Tidy) (ns : Namespace) {c : Collection} (hc : c.Named) :
    (cat.put ns c).Tidy := by
  refine h.insert ns.database ?_
  rw [Catalog.database]
  cases hdb : cat.databases.find? ns.database with
  | none =>
    exact Database.tidy_insert SortedMap.sorted_empty (fun _ he => absurd he List.not_mem_nil) _ hc
  | some db => exact Database.tidy_insert (h.database hdb).sorted (h.database hdb).named _ hc

theorem put_of_collection? (h : cat.Tidy) {ns : Namespace} {c : Collection}
    (hc : cat.collection? ns = some c) : cat.put ns c = cat := by
  have hnamed : c.Named := by
    have := h.collection ns
    rwa [collection_of_eq_some hc] at this
  refine (h.put ns hnamed).ext_collection? h fun ns' => ?_
  by_cases hns : ns' = ns
  · rw [hns, collection?_put_self, hc]
  · exact collection?_put_of_ne cat c hns

theorem createCollection (h : cat.Tidy) {ns : Namespace}
    (hcreate : cat.createCollection ns = .ok cat') : cat'.Tidy := by
  rw [Catalog.createCollection] at hcreate
  split at hcreate <;> cases hcreate
  exact h.put ns Collection.named_empty

theorem dropCollection (h : cat.Tidy) (ns : Namespace) : (cat.dropCollection ns).Tidy := by
  rw [Catalog.dropCollection]
  split
  · exact h
  · rename_i db hdb
    dsimp only
    split
    · exact h.dropDatabase ns.database
    · rename_i hrest
      exact h.insert _ ((h.database hdb).erase (by simpa using hrest))

theorem renameCollection (h : cat.Tidy) {source : Namespace} {name : String}
    (hrename : cat.renameCollection source name = .ok cat') : cat'.Tidy := by
  rw [Catalog.renameCollection] at hrename
  split at hrename
  · cases hrename
  · rename_i db hdb
    split at hrename
    · cases hrename
    · split at hrename <;> cases hrename
      rename_i c hc
      have hdb' := h.database hdb
      exact h.insert _ (Database.tidy_insert (hdb'.sorted.erase _)
        (fun e he => hdb'.named e (SortedMap.mem_of_mem_erase he)) _
        (hdb'.named _ (SortedMap.mem_of_find? hc)))

theorem applyChanges (h : cat.Tidy) {ns : Namespace} {changes : Changes} {create : Bool}
    (happly : cat.applyChanges ns changes create = .ok cat') : cat'.Tidy := by
  rw [Catalog.applyChanges] at happly
  split at happly
  · cases happly
    exact h
  · have hnamed := (h.collection ns).foldl_applyChange changes
    rw [Catalog.collection] at hnamed
    split at happly
    · rename_i c hc
      cases happly
      rw [hc] at hnamed
      exact h.put ns hnamed
    · rename_i hc
      split at happly <;> cases happly
      rw [hc] at hnamed
      exact h.put ns hnamed

theorem applyPending (h : cat.Tidy) (create : Bool) (l : List (Namespace × Writes)) :
    (cat.applyPending create l).2.Tidy := by
  induction l generalizing cat with
  | nil => exact h
  | cons e rest ih =>
    rw [Catalog.applyPending]
    cases happly : cat.applyChanges e.1 e.2.entries create with
    | ok cat' => exact ih (h.applyChanges happly)
    | error _ => exact h

theorem commit (h : cat.Tidy) (create : Bool) (p : Pending) : (cat.commit create p).2.Tidy := by
  rw [Catalog.commit]
  split
  · exact h
  · exact h.applyPending create p.entries

end Tidy

end Catalog

end ScopedStore
