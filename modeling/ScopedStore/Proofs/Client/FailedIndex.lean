import ScopedStore.Proofs.Client.Representation
import ScopedStore.Proofs.Client.Uniqueness

/-!
# Failed index creations

The collection of a new index is made before the index is checked. On a collection that exists this
puts back what is there, so a failure changes nothing. On a missing one a failure leaves the new empty
collection behind, and its database if that was missing too; the ways to fail there are those that
`FitsEmpty` excludes. `failed_createIndex_leaves_nothing_iff` draws the line for every reachable
client and every caller.
-/

namespace ScopedStore

/-! ## Indexes of an empty collection -/

namespace Index

/-- What a collection without documents accepts: under the name of the index on the identifying field
only that one, and elsewhere a unique index only when the buffered writes decode to documents that
do not share a key. -/
def FitsEmpty (i : Index) (writes : Writes) : Prop :=
  if i.resolvedName = idName then onId.keys = i.keys ∧ onId.unique = i.unique
  else i.unique = true → ∃ docs, writes.overlay ∅ = .ok docs ∧ i.Separates docs.find?

end Index

namespace Collection

theorem index?_empty (name : String) :
    ({} : Collection).index? name = if name = Index.idName then some Index.onId else none := by
  by_cases hname : name = Index.idName
  · rw [if_pos hname, hname]
    rfl
  · rw [if_neg hname, index?_eq_none_iff]
    exact fun hmem => hname (List.mem_singleton.1 hmem)

theorem documents_empty : ({} : Collection).documents = .ok ∅ := rfl

theorem exists_addIndex_empty_iff (ns : Namespace) (i : Index) (writes : Writes) :
    (∃ r, ({} : Collection).addIndex ns i writes = .ok r) ↔ i.FitsEmpty writes := by
  have hfound := index?_empty i.resolvedName
  rw [Index.FitsEmpty]
  by_cases hname : i.resolvedName = Index.idName
  · rw [if_pos hname] at hfound ⊢
    rw [addIndex, hfound]
    by_cases hsame : Index.onId.keys = i.keys ∧ Index.onId.unique = i.unique <;> simp [hsame]
  · rw [if_neg hname] at hfound ⊢
    constructor
    · rintro ⟨r, hr⟩ hunique
      obtain ⟨docs, docs', hdocs, hover, hseparates⟩ :=
        ((valid_empty.addIndex_eq_ok_iff ns hfound).1 hr).2 hunique
      cases documents_empty.symm.trans hdocs
      exact ⟨docs', hover, hseparates⟩
    · intro hfits
      refine ⟨_, (valid_empty.addIndex_eq_ok_iff ns hfound).2 ⟨rfl, fun hunique => ?_⟩⟩
      obtain ⟨docs, hover, hseparates⟩ := hfits hunique
      exact ⟨∅, docs, documents_empty, hover, hseparates⟩

end Collection

/-! ## What a failure leaves -/

namespace Client

/-- The creation of an index fails after it has made the collection: the caller is served and the
index has a key, but the collection is missing and the index does not fit an empty one. -/
structure LeavesCollection (c : Client) (caller : Caller) (ns : Namespace) (i : Index) : Prop where
  served : ∃ locked, c.lock caller = .ok locked
  keyed : i.keys.isEmpty = false
  missing : c.catalog.collection? ns = none
  unfit : ¬i.FitsEmpty (c.writesOf caller ns)

variable {c c' : Client} {caller : Caller} {ns : Namespace} {i : Index} {e : StoreError}

theorem LeavesCollection.createIndex (h : c.LeavesCollection caller ns i) :
    (∃ e, (c.createIndex caller ns i).1 = .error e) ∧
      (c.createIndex caller ns i).2.catalog = c.catalog.put ns {} := by
  have hempty : c.catalog.collection ns = {} := by
    rw [Catalog.collection, h.missing]
    rfl
  obtain ⟨-, ⟨-, ⟨e, hlock⟩ | hkeys, -⟩ | ⟨hcatalog, e, he, -⟩ | ⟨name, added, -, -, hadd, -⟩⟩ :=
    createIndex_cases (Prod.eta (c.createIndex caller ns i)).symm
  · obtain ⟨locked, hserved⟩ := h.served
    cases hserved.symm.trans hlock
  · cases h.keyed.symm.trans hkeys
  · exact ⟨⟨e, he⟩, hempty ▸ hcatalog⟩
  · rw [hempty] at hadd
    exact absurd ((Collection.exists_addIndex_empty_iff ns i _).1 ⟨_, hadd⟩) h.unfit

theorem catalog_of_failed_createIndex (hc : c.Reachable)
    (hrun : c.createIndex caller ns i = (.error e, c')) (hleaves : ¬c.LeavesCollection caller ns i) :
    c'.catalog = c.catalog := by
  cases hlock : c.lock caller with
  | error e' =>
    rw [createIndex, hlock] at hrun
    cases hrun
    rfl
  | ok locked =>
    obtain ⟨-, ⟨hcatalog, -⟩ | ⟨hcatalog, e', -, hadd⟩ | ⟨name, added, hout, -⟩⟩ :=
      createIndex_cases hrun
    · exact hcatalog
    · cases hcollection : c.catalog.collection? ns with
      | some collection =>
        rw [hcatalog, Catalog.collection_of_eq_some hcollection,
          hc.tidy.put_of_collection? hcollection]
      | none =>
        rw [Catalog.collection, hcollection] at hadd
        cases hkeys : i.keys.isEmpty with
        | true =>
          rw [createIndex, hlock] at hrun
          simp only [hkeys, if_true] at hrun
          cases hrun
          exact countOperation_catalog c caller
        | false =>
          refine absurd ⟨⟨locked, hlock⟩, hkeys, hcollection, fun hfits => ?_⟩ hleaves
          obtain ⟨r, hr⟩ := (Collection.exists_addIndex_empty_iff ns i _).2 hfits
          cases hr.symm.trans hadd
    · cases hout

/-- A creation of an index that fails leaves the catalog as it was unless it leaves a collection
behind, and then this is a new empty one under the namespace of the index and all that has changed. -/
theorem failed_createIndex_leaves_nothing_iff (hc : c.Reachable) (caller : Caller) (ns : Namespace)
    (i : Index) :
    let outcome := (c.perform caller (.createIndex ns i)).1
    let c' := (c.perform caller (.createIndex ns i)).2
    ((∀ e, outcome = .error e → c'.catalog = c.catalog) ↔ ¬c.LeavesCollection caller ns i) ∧
      (c.LeavesCollection caller ns i →
        (∃ e, outcome = .error e) ∧ c.catalog.collection? ns = none ∧
          c'.catalog = c.catalog.put ns {}) := by
  intro outcome c'
  refine ⟨⟨fun hnothing hleaves => ?_, fun hleaves e he => ?_⟩, fun hleaves => ?_⟩
  · obtain ⟨⟨e, he⟩, hcatalog⟩ := hleaves.createIndex
    have hmissing := hleaves.missing
    rw [← hnothing e he, show c'.catalog = c.catalog.put ns {} from hcatalog,
      Catalog.collection?_put_self] at hmissing
    cases hmissing
  · exact catalog_of_failed_createIndex hc (Prod.ext he rfl) hleaves
  · exact ⟨hleaves.createIndex.1, hleaves.missing, hleaves.createIndex.2⟩

/-! ## A collection left behind -/

/-- A session inserts two accounts with one address into a collection that its transaction will
make. -/
def sharedAddress (ns : Namespace) : List Event :=
  [.startSession {},
    .startTransaction ⟨1⟩ {},
    .request (.session ⟨1⟩)
      (.documents { ns := ns } (.insertMany [account 1 "x", account 2 "x"]))]

theorem reachable_sharedAddress (ns : Namespace) :
    ((fresh true 0).run (sharedAddress ns)).Reachable := by
  refine ⟨true, 0, sharedAddress ns, fun e he => ?_, rfl⟩
  simp only [sharedAddress, List.mem_cons, List.not_mem_nil, or_false] at he
  rcases he with rfl | rfl | rfl
  · trivial
  · trivial
  · refine ⟨trivial, fun d hd => ?_⟩
    rcases List.mem_cons.1 hd with rfl | hd
    · exact ordered_account 1 "x"
    · rw [List.mem_singleton.1 hd]
      exact ordered_account 2 "x"

theorem createIndex_sharedAddress :
    (((fresh true 0).run (sharedAddress ⟨"app", "items"⟩)).perform (.session ⟨1⟩)
      (.createIndex ⟨"app", "items"⟩ byEmail)).1 =
        .error (.duplicateKey ⟨"app", "items"⟩ "email_1" [.text "x"]) := by
  rfl

theorem failed_createIndex_leaves_nothing_iff_sharedAddress :
    let c := (fresh true 0).run (sharedAddress ⟨"app", "items"⟩)
    c.Reachable ∧ c.LeavesCollection (.session ⟨1⟩) ⟨"app", "items"⟩ byEmail := by
  refine ⟨reachable_sharedAddress _, Classical.by_contradiction fun hleaves => ?_⟩
  have hnothing := (failed_createIndex_leaves_nothing_iff (reachable_sharedAddress _)
    (.session ⟨1⟩) ⟨"app", "items"⟩ byEmail).1.2 hleaves _ createIndex_sharedAddress
  exact absurd hnothing (by decide +kernel)

/-- A failed creation of an index leaves a collection and a database in the catalog. -/
theorem collection_left_of_sharedAddress :
    let ns : Namespace := ⟨"app", "items"⟩
    let c := (fresh true 0).run (sharedAddress ns)
    let c' := (c.perform (.session ⟨1⟩) (.createIndex ns byEmail)).2
    c.Reachable ∧
      (c.perform (.session ⟨1⟩) (.createIndex ns byEmail)).1 =
        .error (.duplicateKey ns "email_1" [.text "x"]) ∧
      c.catalog.databaseNames = [] ∧ c'.catalog.databaseNames = ["app"] ∧
      c'.catalog.collectionNames "app" = ["items"] := by
  exact ⟨reachable_sharedAddress _, createIndex_sharedAddress, by decide +kernel,
    by decide +kernel, by decide +kernel⟩

end Client

end ScopedStore
