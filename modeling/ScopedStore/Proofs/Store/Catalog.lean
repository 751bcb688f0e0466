import ScopedStore.Proofs.Store.Collection
import ScopedStore.Store.Catalog

/-!
# What the catalog holds

The catalog is read through `collection?` alone. Administration moves or removes collections and
never changes one; changes are applied to one collection at a time. A commit that passes its checks
applies all writes, because no namespace can lose its collection on the way, and one that does not
leaves the catalog as it was (`commit_cases`).
-/

namespace ScopedStore

namespace Catalog

/-- The collection of a namespace; an empty one if there is none. -/
def collection (cat : Catalog) (ns : Namespace) : Collection := (cat.collection? ns).getD {}

theorem collection_of_eq_some {cat : Catalog} {ns : Namespace} {c : Collection}
    (h : cat.collection? ns = some c) : cat.collection ns = c := by
  rw [collection, h]
  rfl

theorem forall_collection {P : Collection → Prop} {cat : Catalog} (hempty : P {})
    (h : ∀ db ∈ cat.databases.values, ∀ c ∈ db.values, P c) (ns : Namespace) :
    P (cat.collection ns) := by
  rw [collection, collection?]
  cases hdb : cat.databases.find? ns.database with
  | none => exact hempty
  | some db =>
    rw [Option.bind_some]
    cases hc : db.find? ns.collection with
    | none => exact hempty
    | some c =>
      exact h db (List.mem_map.2 ⟨_, SortedMap.mem_of_find? hdb, rfl⟩) c
        (List.mem_map.2 ⟨_, SortedMap.mem_of_find? hc, rfl⟩)

theorem decodes_collection {cat : Catalog}
    (h : ∀ db ∈ cat.databases.values, ∀ c ∈ db.values, c.Decodes) (ns : Namespace) :
    (cat.collection ns).Decodes :=
  forall_collection (fun _ he => absurd he List.not_mem_nil) h ns

def Valid (cat : Catalog) : Prop := ∀ ns c, cat.collection? ns = some c → c.Valid

theorem Valid.collection {cat : Catalog} (h : cat.Valid) (ns : Namespace) :
    (cat.collection ns).Valid := by
  rw [Catalog.collection]
  cases hc : cat.collection? ns with
  | none => exact Collection.valid_empty
  | some c => exact h ns c hc

/-! ## Putting a collection -/

theorem find?_database (cat : Catalog) (ns : Namespace) :
    (cat.database ns.database).find? ns.collection = cat.collection? ns := by
  rw [database, collection?]
  cases cat.databases.find? ns.database <;> rfl

@[simp] theorem collection?_put_self (cat : Catalog) (ns : Namespace) (c : Collection) :
    (cat.put ns c).collection? ns = some c := by
  simp [put, collection?]

theorem collection?_put_of_ne (cat : Catalog) {ns ns' : Namespace} (c : Collection)
    (h : ns' ≠ ns) : (cat.put ns c).collection? ns' = cat.collection? ns' := by
  rw [put, collection?]
  by_cases hdb : ns'.database = ns.database
  · have hname : ns'.collection ≠ ns.collection := fun hname => by
      obtain ⟨d, n⟩ := ns
      obtain ⟨d', n'⟩ := ns'
      exact h (by rw [show d' = d from hdb, show n' = n from hname])
    rw [hdb, SortedMap.find?_insert_self, Option.bind_some, SortedMap.find?_insert_of_ne _ _ hname,
      ← hdb, find?_database]
  · rw [SortedMap.find?_insert_of_ne _ _ hdb, collection?]

theorem Valid.put {cat : Catalog} (h : cat.Valid) (ns : Namespace) {c : Collection}
    (hc : c.Valid) : (cat.put ns c).Valid := by
  intro ns' c' hc'
  by_cases hns : ns' = ns
  · rw [hns, collection?_put_self, Option.some.injEq] at hc'
    exact hc' ▸ hc
  · rw [collection?_put_of_ne cat c hns] at hc'
    exact h ns' c' hc'

/-! ## Administration -/

/-- Each collection of the first catalog is one of the second, maybe in another place. -/
def Within (cat cat' : Catalog) : Prop :=
  ∀ ns c, cat.collection? ns = some c → c = {} ∨ ∃ ns', cat'.collection? ns' = some c

theorem within_refl (cat : Catalog) : cat.Within cat := fun ns _ h => .inr ⟨ns, h⟩

theorem Valid.of_within {cat cat' : Catalog} (h : cat.Valid) (hw : cat'.Within cat) :
    cat'.Valid := by
  intro ns c hc
  rcases hw ns c hc with rfl | ⟨ns', hc'⟩
  · exact Collection.valid_empty
  · exact h ns' c hc'

theorem within_createCollection {cat cat' : Catalog} {ns : Namespace}
    (h : cat.createCollection ns = .ok cat') : cat'.Within cat := by
  rw [createCollection] at h
  split at h <;> cases h
  intro ns' c hc
  by_cases hns : ns' = ns
  · rw [hns, collection?_put_self, Option.some.injEq] at hc
    exact .inl hc.symm
  · rw [collection?_put_of_ne cat _ hns] at hc
    exact .inr ⟨ns', hc⟩

theorem collection?_of_erase {cat : Catalog} {name : String} {ns : Namespace} {c : Collection}
    (h : (cat.databases.erase name).find? ns.database >>= (·.find? ns.collection) = some c) :
    cat.collection? ns = some c := by
  by_cases hdb : ns.database = name
  · rw [hdb, SortedMap.find?_erase_self] at h
    cases h
  · rwa [SortedMap.find?_erase_of_ne _ hdb] at h

theorem within_dropDatabase (cat : Catalog) (name : String) :
    (cat.dropDatabase name).Within cat :=
  fun ns _ h => .inr ⟨ns, collection?_of_erase h⟩

theorem within_dropCollection (cat : Catalog) (ns : Namespace) :
    (cat.dropCollection ns).Within cat := by
  rw [dropCollection]
  cases hdb : cat.databases.find? ns.database with
  | none => exact within_refl cat
  | some db =>
    intro ns' c hc
    refine .inr ⟨ns', ?_⟩
    simp only at hc
    split at hc
    · exact collection?_of_erase hc
    · rw [collection?] at hc
      by_cases hns : ns'.database = ns.database
      · rw [hns, SortedMap.find?_insert_self, Option.bind_some] at hc
        rw [collection?, hns, hdb, Option.bind_some]
        exact SortedMap.find?_of_erase hc
      · rwa [SortedMap.find?_insert_of_ne _ _ hns] at hc

theorem within_renameCollection {cat cat' : Catalog} {source : Namespace} {name : String}
    (h : cat.renameCollection source name = .ok cat') : cat'.Within cat := by
  rw [renameCollection] at h
  split at h
  · cases h
  · rename_i db hdb
    split at h
    · cases h
    · split at h <;> cases h
      rename_i c hc
      intro ns' c' hc'
      rw [collection?] at hc'
      by_cases hns : ns'.database = source.database
      · rw [hns, SortedMap.find?_insert_self, Option.bind_some] at hc'
        by_cases hname : ns'.collection = name
        · rw [hname, SortedMap.find?_insert_self, Option.some.injEq] at hc'
          exact .inr ⟨source, by rw [collection?, hdb, Option.bind_some, hc, hc']⟩
        · rw [SortedMap.find?_insert_of_ne _ _ hname] at hc'
          refine .inr ⟨ns', ?_⟩
          rw [collection?, hns, hdb, Option.bind_some, SortedMap.find?_of_erase hc']
      · rw [SortedMap.find?_insert_of_ne _ _ hns] at hc'
        exact .inr ⟨ns', hc'⟩

/-! ## Applying changes -/

/-- A collection, if there is one, after changes; without changes none is made. -/
def changed (changes : Changes) (c : Option Collection) : Option Collection :=
  if changes.isEmpty then c else some (changes.foldl Collection.applyChange (c.getD {}))

theorem getD_changed (changes : Changes) (c : Option Collection) :
    (changed changes c).getD {} = changes.foldl Collection.applyChange (c.getD {}) := by
  cases changes <;> rfl

theorem applyChanges_eq_ok {cat cat' : Catalog} {ns : Namespace} {changes : Changes}
    {create : Bool} (h : cat.applyChanges ns changes create = .ok cat') (ns' : Namespace) :
    cat'.collection? ns' =
      if ns' = ns then changed changes (cat.collection? ns) else cat.collection? ns' := by
  rw [applyChanges] at h
  rw [changed]
  by_cases hempty : changes.isEmpty = true
  · rw [if_pos hempty] at h
    cases h
    rw [if_pos hempty]
    split
    · rename_i hns
      rw [hns]
    · rfl
  · rw [if_neg hempty] at h
    rw [if_neg hempty]
    have hput (c : Collection) : (cat.put ns c).collection? ns' =
        if ns' = ns then some c else cat.collection? ns' := by
      split
      · rename_i hns
        rw [hns, collection?_put_self]
      · rename_i hns
        exact collection?_put_of_ne cat c hns
    cases hc : cat.collection? ns with
    | some c =>
      rw [hc] at h
      cases h
      exact hput _
    | none =>
      rw [hc] at h
      simp only at h
      split at h <;> cases h
      exact hput _

theorem exists_applyChanges {cat : Catalog} {ns : Namespace} {changes : Changes} {create : Bool} :
    (∃ cat', cat.applyChanges ns changes create = .ok cat') ↔
      (changes.isEmpty = false → create = true ∨ (cat.collection? ns).isSome) := by
  rw [applyChanges]
  cases hempty : changes.isEmpty <;> cases hc : cat.collection? ns <;> cases create <;> simp

theorem collection_of_applyChanges {cat cat' : Catalog} {ns : Namespace} {changes : Changes}
    {create : Bool} (h : cat.applyChanges ns changes create = .ok cat') (ns' : Namespace) :
    cat'.collection ns' =
      if ns' = ns then changes.foldl Collection.applyChange (cat.collection ns)
      else cat.collection ns' := by
  have hcat' := applyChanges_eq_ok h ns'
  split at hcat' <;> rename_i hns
  · rw [if_pos hns, collection, hcat', getD_changed, collection]
  · rw [if_neg hns, collection, hcat', collection]

theorem applyChanges_eq_error {cat : Catalog} {ns : Namespace} {changes : Changes} {create : Bool}
    {e : StoreError} (h : cat.applyChanges ns changes create = .error e) :
    e = .namespaceNotFound ns ∧ changes.isEmpty = false ∧ create = false ∧
      (cat.collection? ns).isSome = false := by
  unfold applyChanges at h
  split at h
  · cases h
  · rename_i hchanges
    split at h
    · cases h
    · rename_i hnone
      split at h <;> cases h
      rename_i hcreate
      exact ⟨rfl, by simpa using hchanges, by simpa using hcreate, by rw [hnone]; rfl⟩

/-! ## Checking the writes of a transaction -/

theorem takenId?_eq_none_iff {c : Collection} {changes : Changes} :
    takenId? c changes = none ↔
      ∀ e ∈ changes, e.2.isInsert = true → c.stored.find? e.1 = none := by
  induction changes with
  | nil => simp [takenId?]
  | cons e rest ih =>
    rw [takenId?, List.forall_mem_cons, ← ih]
    cases hinsert : e.2.isInsert with
    | false => simp
    | true =>
      cases hstored : c.stored.contains e.1 with
      | false => simp [SortedMap.contains_eq_false_iff.1 hstored]
      | true =>
        obtain ⟨bytes, hbytes⟩ := SortedMap.contains_iff.1 hstored
        simp [hbytes]

/-- The writes of one namespace agree with the catalog: its collection exists or may be made, what
they insert is not stored, and unless all of them delete, every unique index separates the documents
under them. -/
structure Accepts (cat : Catalog) (create : Bool) (ns : Namespace) (writes : Writes) : Prop where
  place : writes.entries ≠ [] → create = true ∨ (cat.collection? ns).isSome
  free : ∀ c, cat.collection? ns = some c → ∀ id bytes,
    writes.find? id = some (.insert bytes) → c.stored.find? id = none
  unique : ∀ c, cat.collection? ns = some c → (∃ id w, writes.find? id = some w ∧ w ≠ .delete) →
    UniqueIn c.indexes (Writes.shownOver writes.entries c.document?)

theorem all_isDelete_iff {writes : Writes} (hwrites : writes.Sorted) :
    writes.values.all Write.isDelete = false ↔
      ∃ id w, writes.find? id = some w ∧ w ≠ .delete := by
  rw [SortedMap.values, List.all_map, List.all_eq_false]
  constructor
  · rintro ⟨e, he, hdelete⟩
    exact ⟨e.1, e.2, hwrites.find?_eq_some_iff.2 he, fun h => hdelete (Write.isDelete_iff.2 h)⟩
  · rintro ⟨id, w, hw, hdelete⟩
    exact ⟨(id, w), SortedMap.mem_of_find? hw, fun h => hdelete (Write.isDelete_iff.1 h)⟩

theorem checkOverlaid_eq_ok_iff {c : Collection} (hc : c.Valid) (hstored : c.Decodes)
    (ns : Namespace) {writes : Writes} (hwrites : ValidChanges writes.entries)
    (hdecode : Writes.Decode writes.entries) :
    (do
      let docs ← c.documents
      let docs ← writes.overlay docs
      checkUniqueIndexes ns c.indexes docs.values) = .ok () ↔
        UniqueIn c.indexes (Writes.shownOver writes.entries c.document?) := by
  obtain ⟨loaded, hloaded⟩ := Collection.exists_documents hstored
  obtain ⟨docs, hover⟩ := Writes.exists_overlay hdecode loaded
  have hsorted := Writes.sorted_overlay (Collection.sorted_documents hc.sorted hloaded) hover
  have hfind := Writes.find?_overlay hwrites.sorted hover
  rw [Collection.find?_documents hloaded] at hfind
  have hown (id : Value) (d : Document)
      (hd : Writes.shownOver writes.entries c.document? id = some d) : d.id? = some id := by
    rw [← hfind] at hd
    exact (hc.own_of_overlay hwrites hloaded hover hd).2
  rw [hloaded, ok_bind, hover, ok_bind, checkUniqueIndexes_eq_ok_iff hsorted, hfind,
    hc.uniqueIn_iff hown]

theorem checkWrites_eq_ok_iff {cat : Catalog} (hcat : cat.Valid) {create : Bool} {ns : Namespace}
    (hstored : (cat.collection ns).Decodes) {writes : Writes}
    (hwrites : ValidChanges writes.entries) (hdecode : Writes.Decode writes.entries) :
    cat.checkWrites create ns writes = .ok () ↔ cat.Accepts create ns writes := by
  rw [checkWrites]
  cases hc : cat.collection? ns with
  | none =>
    have haccepts : cat.Accepts create ns writes ↔ (writes.entries ≠ [] → create = true) :=
      ⟨fun h hne => (h.place hne).resolve_right (by simp [hc]),
        fun h => ⟨fun hne => .inl (h hne), by simp [hc], by simp [hc]⟩⟩
    rw [haccepts, SortedMap.isEmpty]
    cases create <;> cases writes.entries <;> simp
  | some c =>
    rw [collection_of_eq_some hc] at hstored
    have hfree : takenId? c writes.entries = none ↔
        ∀ id bytes, writes.find? id = some (.insert bytes) → c.stored.find? id = none := by
      rw [takenId?_eq_none_iff]
      constructor
      · intro h id bytes hw
        exact h (id, .insert bytes) (SortedMap.mem_of_find? hw) rfl
      · intro h e he hinsert
        obtain ⟨bytes, hbytes⟩ := Write.isInsert_iff.1 hinsert
        have hsorted : writes.Sorted := hwrites.sorted
        exact h e.1 bytes (hsorted.find?_eq_some_iff.2 (hbytes ▸ he))
    have haccepts : cat.Accepts create ns writes ↔ takenId? c writes.entries = none ∧
        (writes.values.all Write.isDelete = false →
          UniqueIn c.indexes (Writes.shownOver writes.entries c.document?)) := by
      rw [hfree, all_isDelete_iff hwrites.sorted]
      constructor
      · exact fun h => ⟨h.free c hc, h.unique c hc⟩
      · rintro ⟨h₁, h₂⟩
        refine ⟨fun _ => .inr (by simp [hc]), fun c' hc' => ?_, fun c' hc' => ?_⟩ <;>
          cases hc.symm.trans hc'
        · exact h₁
        · exact h₂
    rw [haccepts]
    simp only
    cases htaken : takenId? c writes.entries with
    | some id => simp
    | none =>
      cases hall : writes.values.all Write.isDelete with
      | true => simp
      | false =>
        have hcheck := checkOverlaid_eq_ok_iff (hcat ns c hc) hstored ns hwrites hdecode
        simpa using hcheck

/-! ## Committing -/

theorem checkPending_eq_ok_iff {cat : Catalog} {create : Bool} {l : List (Namespace × Writes)} :
    cat.checkPending create l = .ok () ↔ ∀ e ∈ l, cat.checkWrites create e.1 e.2 = .ok () := by
  induction l with
  | nil => simp [checkPending]
  | cons e rest ih =>
    rw [checkPending, bind_eq_ok, List.forall_mem_cons, ← ih]
    exact ⟨fun ⟨_, h⟩ => h, fun h => ⟨(), h⟩⟩

theorem checkPending_iff {cat : Catalog} {create : Bool} {p : Pending} (hp : p.Sorted) :
    cat.checkPending create p.entries = .ok () ↔
      ∀ ns, cat.checkWrites create ns (p.writesOf ns) = .ok () := by
  have hnone (ns : Namespace) : cat.checkWrites create ns ∅ = .ok () := by
    rw [checkWrites]
    cases cat.collection? ns with
    | none => cases create <;> rfl
    | some c => rfl
  rw [checkPending_eq_ok_iff]
  constructor
  · intro h ns
    rw [Pending.writesOf]
    cases hw : p.find? ns with
    | none => exact hnone ns
    | some writes => exact h (ns, writes) (SortedMap.mem_of_find? hw)
  · intro h e he
    have hwrites := h e.1
    rwa [Pending.writesOf, hp.find?_eq_some_iff.2 he] at hwrites

theorem exists_applyPending {create : Bool} {l : List (Namespace × Writes)}
    (hl : (SortedMap.mk l).Sorted) {cat : Catalog}
    (h : ∀ e ∈ l, e.2.entries ≠ [] → create = true ∨ (cat.collection? e.1).isSome) :
    ∃ cat', cat.applyPending create l = (.ok (), cat') ∧
      ∀ ns, cat'.collection? ns =
        changed ((SortedMap.findIn? ns l).getD ∅).entries (cat.collection? ns) := by
  induction l generalizing cat with
  | nil => exact ⟨cat, rfl, fun _ => rfl⟩
  | cons e rest ih =>
    obtain ⟨ns₁, writes⟩ := e
    obtain ⟨cat₁, happly⟩ := exists_applyChanges.2 fun hne =>
      h (ns₁, writes) List.mem_cons_self (by simpa using hne)
    have hcat₁ := applyChanges_eq_ok happly
    have hother {ns : Namespace} (hns : ns ≠ ns₁) : cat₁.collection? ns = cat.collection? ns := by
      rw [hcat₁, if_neg hns]
    have hlater (e : Namespace × Writes) (he : e ∈ rest) : e.1 ≠ ns₁ := fun heq => by
      have hlt := (List.pairwise_cons.1 hl).1 e he
      simp [heq] at hlt
    have hplace (e : Namespace × Writes) (he : e ∈ rest) (hne : e.2.entries ≠ []) :
        create = true ∨ (cat₁.collection? e.1).isSome := by
      rw [hother (hlater e he)]
      exact h e (List.mem_cons_of_mem _ he) hne
    obtain ⟨cat', hrest, hcat'⟩ := ih (List.Pairwise.of_cons hl) hplace
    refine ⟨cat', by rw [applyPending, happly]; exact hrest, fun ns => ?_⟩
    rw [hcat' ns]
    by_cases hns : ns = ns₁
    · subst hns
      have htail : SortedMap.findIn? ns rest = none := SortedMap.findIn?_tail hl
      rw [htail, hcat₁, if_pos rfl, SortedMap.findIn?, if_pos Std.ReflCmp.compare_self]
      rfl
    · have hcmp : ¬compare ns ns₁ = .eq := fun heq => hns (Std.LawfulEqCmp.eq_of_compare heq)
      rw [hother hns, SortedMap.findIn?, if_neg hcmp]

theorem place_of_checkWrites {cat : Catalog} {create : Bool} {ns : Namespace} {writes : Writes}
    (h : cat.checkWrites create ns writes = .ok ()) (hne : writes.entries ≠ []) :
    create = true ∨ (cat.collection? ns).isSome := by
  rw [checkWrites] at h
  cases hc : cat.collection? ns with
  | some c => exact .inr rfl
  | none =>
    rw [hc] at h
    cases create
    · simp [SortedMap.isEmpty, hne] at h
    · exact .inl rfl

/-- A commit applies all writes, or fails in a check and changes nothing. -/
theorem commit_cases (cat : Catalog) (create : Bool) {p : Pending} (hp : p.Sorted) :
    (∃ cat', cat.commit create p = (.ok (), cat') ∧
        (∀ ns, cat.checkWrites create ns (p.writesOf ns) = .ok ()) ∧
        ∀ ns, cat'.collection? ns = changed (p.writesOf ns).entries (cat.collection? ns)) ∨
      ∃ e, cat.commit create p = (.error e, cat) ∧
        ¬∀ ns, cat.checkWrites create ns (p.writesOf ns) = .ok () := by
  cases hcheck : cat.checkPending create p.entries with
  | error e =>
    refine .inr ⟨e, by rw [commit, hcheck], fun h => ?_⟩
    rw [(checkPending_iff hp).2 h] at hcheck
    cases hcheck
  | ok u =>
    have hplace (e : Namespace × Writes) (he : e ∈ p.entries) (hne : e.2.entries ≠ []) :
        create = true ∨ (cat.collection? e.1).isSome :=
      place_of_checkWrites (checkPending_eq_ok_iff.1 hcheck e he) hne
    obtain ⟨cat', happly, hcat'⟩ := exists_applyPending hp hplace
    exact .inl ⟨cat', by rw [commit, hcheck]; exact happly, (checkPending_iff hp).1 hcheck, hcat'⟩

end Catalog

end ScopedStore
