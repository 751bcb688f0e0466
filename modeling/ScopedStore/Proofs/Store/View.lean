import Mathlib.Logic.Relation
import ScopedStore.Proofs.Store.Catalog
import ScopedStore.Store.View

/-!
# How a view changes

A view starts as loaded and takes steps: a document is inserted, replaced or deleted. What a step can
do is said once, in `Step.cases`; from it follow the invariant `Valid`, that the unique indexes keep
separating the documents, and what stays as it was. `changes` lists for every identifier how its
document differs from the one that was loaded (`find?_eq_base`, `of_findIn?_changes`); for this only
the part `Tracked` of the invariant is needed, which says nothing about the loaded documents.
-/

namespace ScopedStore

/-- The document with an identifier, if it has none yet. -/
def Document.withId (d : Document) (id : Value) : Document :=
  if d.id?.isSome then d else d.insert idField id

namespace View

/-! ## Loading -/

theorem load_eq_ok_iff {cat : Catalog} {ns : Namespace} {writes : Writes} {seed : Nat} {v : View} :
    load cat ns writes seed = .ok v ↔
      ∃ loaded docs, (cat.collection ns).documents = .ok loaded ∧
        writes.overlay loaded = .ok docs ∧
        v = { ns := ns, base := docs, docs := docs,
              indexes := (cat.collection ns).indexes, seed := seed } := by
  simp only [load, bind_eq_ok, pure_eq_ok, eq_comm (a := v)]
  constructor
  · rintro ⟨loaded, hloaded, docs, hdocs, hv⟩
    exact ⟨loaded, docs, hloaded, hdocs, hv⟩
  · rintro ⟨loaded, docs, hloaded, hdocs, hv⟩
    exact ⟨loaded, hloaded, docs, hdocs, hv⟩

theorem load_isOk_iff {cat : Catalog} {ns : Namespace} {writes : Writes} {seed : Nat} :
    (∃ v, load cat ns writes seed = .ok v) ↔
      (cat.collection ns).Decodes ∧ Writes.Decode writes.entries := by
  constructor
  · rintro ⟨v, h⟩
    obtain ⟨loaded, docs, hloaded, hdocs, -⟩ := load_eq_ok_iff.1 h
    exact ⟨Collection.decodes_of_documents hloaded, (Writes.overlay_eq_ok_iff.1 hdocs).1⟩
  · rintro ⟨hstored, hwrites⟩
    obtain ⟨loaded, hloaded⟩ := Collection.exists_documents hstored
    obtain ⟨docs, hdocs⟩ := Writes.exists_overlay hwrites loaded
    exact ⟨_, load_eq_ok_iff.2 ⟨loaded, docs, hloaded, hdocs, rfl⟩⟩

theorem find?_of_load {cat : Catalog} {ns : Namespace} {writes : Writes}
    (hwrites : writes.Sorted) {seed : Nat} {v : View} (h : load cat ns writes seed = .ok v) :
    v.docs.find? = Writes.shownOver writes.entries (cat.collection ns).document? := by
  obtain ⟨loaded, docs, hloaded, hdocs, rfl⟩ := load_eq_ok_iff.1 h
  rw [Writes.find?_overlay hwrites hdocs, Collection.find?_documents hloaded]

theorem load_congr {cat cat' : Catalog} {ns : Namespace} {writes writes' : Writes}
    (hsorted : (cat.collection ns).stored.Sorted) (hsorted' : (cat'.collection ns).stored.Sorted)
    (hwrites : writes.Sorted) (hwrites' : writes'.Sorted)
    (hindexes : (cat.collection ns).indexes = (cat'.collection ns).indexes)
    (hdocs : Writes.shownOver writes.entries (cat.collection ns).document? =
      Writes.shownOver writes'.entries (cat'.collection ns).document?)
    {seed : Nat} {v v' : View} (h : load cat ns writes seed = .ok v)
    (h' : load cat' ns writes' seed = .ok v') : v = v' := by
  have hfind := (find?_of_load hwrites h).trans (hdocs.trans (find?_of_load hwrites' h').symm)
  obtain ⟨loaded, docs, hloaded, hover, rfl⟩ := load_eq_ok_iff.1 h
  obtain ⟨loaded', docs', hloaded', hover', rfl⟩ := load_eq_ok_iff.1 h'
  have heq : docs = docs' := SortedMap.ext_find?
    (Writes.sorted_overlay (Collection.sorted_documents hsorted hloaded) hover)
    (Writes.sorted_overlay (Collection.sorted_documents hsorted' hloaded') hover')
    fun id => congrFun hfind id
  rw [heq, hindexes]

/-! ## Steps -/

/-- One change of a view by a document whose fields are in order. -/
inductive Step : View → View → Prop
  | insert {v v' : View} {d : Document} {id : Value} (hd : d.Ordered)
      (h : v.insert d = .ok (id, v')) : Step v v'
  | replace {v v' : View} {d : Document} {id : Value} (hid : id.Ordered) (hd : d.Ordered)
      (h : v.replace id d = .ok v') : Step v v'
  | delete (v : View) (id : Value) : Step v (v.delete id)

abbrev Steps : View → View → Prop := Relation.ReflTransGen Step

/-- No other document than that of an identifier shares a unique key with a document. -/
def Fits (v : View) (id : Value) (d : Document) : Prop :=
  ∀ i ∈ v.indexes, i.isUniqueSecondary = true → v.clashes i id (i.keyOf d) = false

theorem checkUnique_eq_ok_iff {v : View} {id : Value} {d : Document} {indexes : List Index} :
    v.checkUnique id d indexes = .ok () ↔
      ∀ i ∈ indexes, i.isUniqueSecondary = true → v.clashes i id (i.keyOf d) = false := by
  induction indexes with
  | nil => simp [checkUnique]
  | cons i rest ih =>
    rw [checkUnique, List.forall_mem_cons]
    cases hi : i.isUniqueSecondary <;> cases hc : v.clashes i id (i.keyOf d) <;> simp [ih]

theorem identify_spec (v : View) (d : Document) : ∃ id seed,
    v.identify d = (id, d.withId id, { v with seed := seed }) ∧ (d.withId id).id? = some id ∧
      (d.Ordered → (d.withId id).Ordered) := by
  rw [identify]
  cases hid : d.id? with
  | some id =>
    have hwith : d.withId id = d := if_pos (by rw [hid]; rfl)
    exact ⟨id, v.seed, by rw [hwith], by rw [hwith, hid], fun hd => by rwa [hwith]⟩
  | none =>
    have hwith (id : Value) : d.withId id = d.insert Document.idField id :=
      if_neg (by rw [hid]; exact Bool.false_ne_true)
    have hordered : (Value.text (Uuid.ofSeed v.seed).display).Ordered := trivial
    refine ⟨_, v.seed + 1, by rw [hwith], ?_, fun hd => ?_⟩
    · rw [hwith]
      exact SortedMap.find?_insert_self _ _ _
    · rw [hwith]
      exact hd.insert _ hordered

theorem insert_spec {v v' : View} {d : Document} {id : Value} (h : v.insert d = .ok (id, v')) :
    v.docs.contains id = false ∧ (d.withId id).id? = some id ∧ (d.Ordered → (d.withId id).Ordered) ∧
      v.Fits id (d.withId id) ∧ ∃ seed, v' = { v.put id (d.withId id) with seed := seed } := by
  obtain ⟨id', seed, hidentify, hid, hordered⟩ := v.identify_spec d
  rw [View.insert, hidentify] at h
  dsimp only at h
  split at h
  · cases h
  · rename_i hfree
    obtain ⟨_, hcheck, h⟩ := bind_eq_ok.1 h
    cases h
    have hfits := checkUnique_eq_ok_iff.1 hcheck
    exact ⟨by simpa using hfree, hid, hordered, hfits, seed, rfl⟩

theorem text_of_insert {v v' : View} {d : Document} {id : Value} (h : v.insert d = .ok (id, v'))
    (hid : d.id? = none) : ∃ s, id = .text s := by
  rw [View.insert, identify, hid] at h
  dsimp only at h
  split at h
  · cases h
  · obtain ⟨_, -, h⟩ := bind_eq_ok.1 h
    cases h
    exact ⟨_, rfl⟩

theorem exists_of_insert {v v' : View} {d : Document} {id : Value} (hd : d.Ordered)
    (h : v.insert d = .ok (id, v')) :
    v.docs.contains id = false ∧ ∃ d' seed, d'.Ordered ∧ d'.id? = some id ∧ v.Fits id d' ∧
      v' = { v.put id d' with seed := seed } := by
  obtain ⟨hfree, hid, hordered, hfits, seed, hv'⟩ := insert_spec h
  exact ⟨hfree, d.withId id, seed, hordered hd, hid, hfits, hv'⟩

theorem exists_of_replace {v v' : View} {d : Document} {id : Value} (hid : id.Ordered)
    (hd : d.Ordered) (h : v.replace id d = .ok v') :
    ∃ d', d'.Ordered ∧ d'.id? = some id ∧ v.Fits id d' ∧ v' = v.put id d' := by
  rw [View.replace] at h
  split at h
  · cases h
  · rename_i hkeep
    obtain ⟨_, hcheck, h⟩ := bind_eq_ok.1 h
    cases h
    refine ⟨_, ?_, ?_, checkUnique_eq_ok_iff.1 hcheck, rfl⟩
    · split
      · exact hd
      · exact hd.insert _ hid
    · cases hd' : d.id? with
      | some id' => simpa [hd'] using hkeep
      | none => exact SortedMap.find?_insert_self _ _ _

/-- A step puts an ordered document that fits under its own identifier, or deletes one. -/
theorem Step.cases {v v' : View} (h : Step v v') :
    (∃ id d seed, d.Ordered ∧ d.id? = some id ∧ v.Fits id d ∧
        v' = { v.put id d with seed := seed }) ∨
      ∃ id, v' = v.delete id := by
  cases h with
  | @insert _ d id hd h =>
    obtain ⟨-, d', seed, hd', hid, hfits, rfl⟩ := exists_of_insert hd h
    exact .inl ⟨id, d', seed, hd', hid, hfits, rfl⟩
  | @replace _ d id hid hd h =>
    obtain ⟨d', hd', hid', hfits, rfl⟩ := exists_of_replace hid hd h
    exact .inl ⟨id, d', v.seed, hd', hid', hfits, rfl⟩
  | delete id => exact .inr ⟨id, rfl⟩

theorem find?_delete (v : View) (id k : Value) :
    (v.delete id).docs.find? k = if k = id then none else v.docs.find? k := by
  rw [delete]
  by_cases hk : k = id
  · rw [if_pos hk, hk]
    split
    · exact SortedMap.find?_erase_self _ _
    · rename_i habsent
      exact SortedMap.contains_eq_false_iff.1 (by simpa using habsent)
  · rw [if_neg hk]
    split
    · exact SortedMap.find?_erase_of_ne _ hk
    · rfl

/-! ## What stays -/

theorem Step.frame {v v' : View} (h : Step v v') :
    v'.ns = v.ns ∧ v'.base = v.base ∧ v'.indexes = v.indexes := by
  rcases h.cases with ⟨id, d, seed, -, -, -, rfl⟩ | ⟨id, rfl⟩
  · exact ⟨rfl, rfl, rfl⟩
  · rw [View.delete]
    split <;> exact ⟨rfl, rfl, rfl⟩

theorem Steps.frame {v v' : View} (h : Steps v v') :
    v'.ns = v.ns ∧ v'.base = v.base ∧ v'.indexes = v.indexes := by
  induction h with
  | refl => exact ⟨rfl, rfl, rfl⟩
  | tail _ hstep ih =>
    obtain ⟨hns, hbase, hindexes⟩ := hstep.frame
    exact ⟨hns.trans ih.1, hbase.trans ih.2.1, hindexes.trans ih.2.2⟩

/-! ## The invariant -/

/-- Only touched identifiers have another document than the loaded one, and it is ordered. -/
structure Tracked (v : View) : Prop where
  base_sorted : v.base.Sorted
  docs_sorted : v.docs.Sorted
  touched_sorted : v.touched.Sorted
  untouched : ∀ id, v.touched.find? id = none → v.docs.find? id = v.base.find? id
  written : ∀ id d, v.touched.find? id = some () → v.docs.find? id = some d → d.Ordered

theorem Tracked.put {v : View} (h : v.Tracked) (id : Value) {d : Document} (hd : d.Ordered) :
    (v.put id d).Tracked where
  base_sorted := h.base_sorted
  docs_sorted := h.docs_sorted.insert id d
  touched_sorted := h.touched_sorted.insert id ()
  untouched k hk := by
    by_cases hkid : k = id
    · rw [View.put, hkid, SortedMap.find?_insert_self] at hk
      cases hk
    · rw [View.put, SortedMap.find?_insert_of_ne _ _ hkid] at hk ⊢
      exact h.untouched k hk
  written k e hk he := by
    by_cases hkid : k = id
    · rw [View.put, hkid, SortedMap.find?_insert_self, Option.some.injEq] at he
      exact he ▸ hd
    · rw [View.put, SortedMap.find?_insert_of_ne _ _ hkid] at hk he
      exact h.written k e hk he

/-- Removes what stands under an identifier, which counts as touched. -/
def remove (v : View) (id : Value) : View :=
  { v with docs := v.docs.erase id, touched := v.touched.insert id () }

theorem delete_eq (v : View) (id : Value) :
    v.delete id = if v.docs.contains id then v.remove id else v := rfl

theorem Tracked.remove {v : View} (h : v.Tracked) (id : Value) : (v.remove id).Tracked where
  base_sorted := h.base_sorted
  docs_sorted := h.docs_sorted.erase id
  touched_sorted := h.touched_sorted.insert id ()
  untouched k hk := by
    by_cases hkid : k = id
    · rw [View.remove, hkid, SortedMap.find?_insert_self] at hk
      cases hk
    · rw [View.remove, SortedMap.find?_insert_of_ne _ _ hkid] at hk
      rw [View.remove, SortedMap.find?_erase_of_ne _ hkid]
      exact h.untouched k hk
  written k e hk he := by
    by_cases hkid : k = id
    · rw [View.remove, hkid, SortedMap.find?_erase_self] at he
      cases he
    · rw [View.remove, SortedMap.find?_insert_of_ne _ _ hkid] at hk
      rw [View.remove, SortedMap.find?_erase_of_ne _ hkid] at he
      exact h.written k e hk he

/-- The invariant of a view: documents are ordered and stand under their own identifiers, and only
touched ones differ from the loaded ones. -/
structure Valid (v : View) : Prop where
  base_sorted : v.base.Sorted
  docs_sorted : v.docs.Sorted
  touched_sorted : v.touched.Sorted
  own : ∀ id d, v.docs.find? id = some d → d.Ordered ∧ d.id? = some id
  untouched : ∀ id, v.touched.find? id = none → v.docs.find? id = v.base.find? id

theorem Valid.tracked {v : View} (h : v.Valid) : v.Tracked where
  base_sorted := h.base_sorted
  docs_sorted := h.docs_sorted
  touched_sorted := h.touched_sorted
  untouched := h.untouched
  written id d _ hd := (h.own id d hd).1

theorem Tracked.valid {v : View} (h : v.Tracked)
    (hown : ∀ id d, v.docs.find? id = some d → d.Ordered ∧ d.id? = some id) : v.Valid where
  base_sorted := h.base_sorted
  docs_sorted := h.docs_sorted
  touched_sorted := h.touched_sorted
  own := hown
  untouched := h.untouched

theorem tracked_load {cat : Catalog} {ns : Namespace} {writes : Writes} {seed : Nat} {v : View}
    (hc : (cat.collection ns).stored.Sorted) (h : load cat ns writes seed = .ok v) : v.Tracked := by
  obtain ⟨loaded, docs, hloaded, hdocs, rfl⟩ := load_eq_ok_iff.1 h
  have hsorted := Writes.sorted_overlay (Collection.sorted_documents hc hloaded) hdocs
  exact ⟨hsorted, hsorted, SortedMap.sorted_empty, fun _ _ => rfl, fun _ _ hnone => nomatch hnone⟩

theorem valid_load {cat : Catalog} {ns : Namespace} {writes : Writes} {seed : Nat} {v : View}
    (hc : (cat.collection ns).Valid) (hwrites : ValidChanges writes.entries)
    (h : load cat ns writes seed = .ok v) : v.Valid := by
  refine (tracked_load hc.sorted h).valid fun id d hd => ?_
  obtain ⟨loaded, docs, hloaded, hdocs, rfl⟩ := load_eq_ok_iff.1 h
  exact hc.own_of_overlay hwrites hloaded hdocs hd

theorem Steps.find?_base {cat : Catalog} {ns : Namespace} {writes : Writes}
    (hwrites : writes.Sorted) {seed : Nat} {v₀ v : View} (hload : load cat ns writes seed = .ok v₀)
    (hsteps : v₀.Steps v) :
    v.base.find? = Writes.shownOver writes.entries (cat.collection ns).document? := by
  rw [hsteps.frame.2.1, ← find?_of_load hwrites hload]
  obtain ⟨loaded, docs, -, -, rfl⟩ := load_eq_ok_iff.1 hload
  rfl

/-- Once writes are applied, a view is loaded plainly as it was loaded under them before. -/
theorem load_of_changed {cat cat' : Catalog} {ns : Namespace} {writes : Writes}
    (hc : (cat.collection ns).Valid) (hwrites : ValidChanges writes.entries)
    (hcat' : cat'.collection? ns = Catalog.changed writes.entries (cat.collection? ns))
    {seed : Nat} {v : View} (hload : load cat ns writes seed = .ok v) :
    load cat' ns ∅ seed = .ok v := by
  have hafter : cat'.collection ns =
      writes.entries.foldl Collection.applyChange (cat.collection ns) := by
    rw [Catalog.collection, hcat', Catalog.getD_changed]
    rfl
  have hc' := hc.foldl_applyChange hwrites
  obtain ⟨hstored, hdecode⟩ := load_isOk_iff.1 ⟨v, hload⟩
  have hstored' := hstored.foldl_applyChange hc.sorted hwrites.sorted hdecode
  rw [← hafter] at hc' hstored'
  obtain ⟨v', hload'⟩ : ∃ v', load cat' ns ∅ seed = .ok v' :=
    load_isOk_iff.2 ⟨hstored', Writes.decode_empty⟩
  have hindexes : (cat.collection ns).indexes = (cat'.collection ns).indexes := by
    rw [hafter, Collection.foldl_applyChange]
  have hdocs : Writes.shownOver writes.entries (cat.collection ns).document? =
      Writes.shownOver (∅ : Writes).entries (cat'.collection ns).document? := by
    rw [hafter, Collection.document?_foldl_applyChange _ hwrites.sorted]
    rfl
  rw [hload', load_congr hc.sorted hc'.sorted hwrites.sorted SortedMap.sorted_empty hindexes hdocs
    hload hload']

theorem Valid.put {v : View} (h : v.Valid) {id : Value} {d : Document} (hd : d.Ordered)
    (hid : d.id? = some id) : (v.put id d).Valid := by
  refine (h.tracked.put id hd).valid fun k e he => ?_
  by_cases hk : k = id
  · subst hk
    rw [View.put, SortedMap.find?_insert_self, Option.some.injEq] at he
    exact he ▸ ⟨hd, hid⟩
  · rw [View.put, SortedMap.find?_insert_of_ne _ _ hk] at he
    exact h.own k e he

theorem Valid.delete {v : View} (h : v.Valid) (id : Value) : (v.delete id).Valid := by
  rw [delete_eq]
  split
  · exact (h.tracked.remove id).valid fun k d hd => h.own k d (SortedMap.find?_of_erase hd)
  · exact h

theorem Step.valid {v v' : View} (hstep : Step v v') (h : v.Valid) : v'.Valid := by
  rcases hstep.cases with ⟨id, d, seed, hd, hid, -, rfl⟩ | ⟨id, rfl⟩
  · have hput := h.put hd hid
    exact ⟨hput.base_sorted, hput.docs_sorted, hput.touched_sorted, hput.own, hput.untouched⟩
  · exact h.delete id

theorem Steps.valid {v v' : View} (hsteps : Steps v v') (h : v.Valid) : v'.Valid := by
  induction hsteps with
  | refl => exact h
  | tail _ hstep ih => exact hstep.valid ih

/-! ## Unique keys -/

theorem clashes_eq_false_iff {v : View} (hdocs : v.docs.Sorted) {i : Index} {id : Value}
    {key : List Value} :
    v.clashes i id key = false ↔ ∀ a e, v.docs.find? a = some e → i.keyOf e = key → a = id := by
  rw [clashes, List.any_eq_false]
  constructor
  · intro h a e he hkey
    by_contra hne
    exact h (a, e) (SortedMap.mem_of_find? he) (by simp [hne, hkey])
  · intro h e he hclash
    simp only [ne_eq, Bool.and_eq_true, decide_eq_true_eq] at hclash
    exact hclash.1 (h e.1 e.2 (hdocs.find?_eq_some_iff.2 he) hclash.2)

theorem Fits.secondaryUniqueIn {v : View} (hdocs : v.docs.Sorted) {id : Value} {d : Document}
    (hfits : v.Fits id d) (h : SecondaryUniqueIn v.indexes v.docs.find?) :
    SecondaryUniqueIn v.indexes (v.docs.insert id d).find? := by
  intro i hi hsecondary
  exact (Index.separates_insert_iff (h i hi hsecondary) id d).2
    ((clashes_eq_false_iff hdocs).1 (hfits i hi hsecondary))

theorem Step.secondaryUniqueIn {v v' : View} (hstep : Step v v') (hdocs : v.docs.Sorted)
    (h : SecondaryUniqueIn v.indexes v.docs.find?) : SecondaryUniqueIn v'.indexes v'.docs.find? := by
  rw [hstep.frame.2.2]
  rcases hstep.cases with ⟨id, d, seed, -, -, hfits, rfl⟩ | ⟨id, rfl⟩
  · exact hfits.secondaryUniqueIn hdocs h
  · intro i hi hsecondary
    refine (h i hi hsecondary).mono fun k d hd => ?_
    rw [find?_delete] at hd
    split at hd
    · cases hd
    · exact hd

theorem Steps.secondaryUniqueIn {v v' : View} (hsteps : Steps v v') (hv : v.Valid)
    (h : SecondaryUniqueIn v.indexes v.docs.find?) : SecondaryUniqueIn v'.indexes v'.docs.find? := by
  induction hsteps with
  | refl => exact h
  | tail hbefore hstep ih => exact hstep.secondaryUniqueIn (Steps.valid hbefore hv).docs_sorted ih

/-! ## Net changes -/

theorem findIn?_filterMap {f : Value → Option Write} (id : Value) (ids : List Value) :
    SortedMap.findIn? id (ids.filterMap fun k => (f k).map fun w => (k, w)) =
      if id ∈ ids then f id else none := by
  induction ids with
  | nil => rfl
  | cons k rest ih =>
    by_cases hk : id = k
    · subst hk
      cases hf : f id with
      | none => simp [hf, ih]
      | some w => simp [hf, SortedMap.findIn?]
    · have hcmp : ¬compare id k = .eq := fun h => hk (Std.LawfulEqCmp.eq_of_compare h)
      cases hf : f k <;> simp [hf, hk, hcmp, SortedMap.findIn?, ih]

theorem findIn?_changes (v : View) (id : Value) :
    SortedMap.findIn? id v.changes = if id ∈ v.touched.keys then v.change? id else none :=
  findIn?_filterMap id v.touched.keys

theorem find?_touched_eq_none_iff {v : View} {id : Value} :
    v.touched.find? id = none ↔ id ∉ v.touched.keys := by
  rw [SortedMap.find?_eq_none_iff, SortedMap.keys, List.mem_map, not_exists]
  simp only [not_and]

theorem Tracked.find?_eq_base {v : View} (h : v.Tracked) {id : Value}
    (hid : SortedMap.findIn? id v.changes = none) : v.docs.find? id = v.base.find? id := by
  rw [findIn?_changes] at hid
  split at hid
  · rw [change?] at hid
    split at hid <;> cases hid
    rename_i hdocs hbase
    rw [hdocs, SortedMap.contains_eq_false_iff.1 hbase]
  · rename_i htouched
    exact h.untouched id (find?_touched_eq_none_iff.2 htouched)

theorem of_findIn?_changes {v : View} {id : Value} {w : Write}
    (h : SortedMap.findIn? id v.changes = some w) :
    w.bytes? = (v.docs.find? id).map Document.encode ∧
      (w.isInsert = true → v.base.find? id = none) ∧
      (w.isInsert = false → ∃ d, v.base.find? id = some d) := by
  rw [findIn?_changes] at h
  split at h
  · rw [change?] at h
    split at h <;> cases h
    · rename_i d hdocs hbase
      refine ⟨by rw [hdocs]; rfl, fun hw => ?_, fun _ => SortedMap.contains_iff.1 hbase⟩
      cases hw
    · rename_i d hdocs hbase
      refine ⟨by rw [hdocs]; rfl, fun _ => SortedMap.contains_eq_false_iff.1 hbase, fun hw => ?_⟩
      cases hw
    · rename_i hdocs hbase
      refine ⟨by rw [hdocs]; rfl, fun hw => ?_, fun _ => SortedMap.contains_iff.1 hbase⟩
      cases hw
  · cases h

theorem touched_of_findIn?_changes {v : View} {id : Value} {w : Write}
    (h : SortedMap.findIn? id v.changes = some w) : v.touched.find? id = some () := by
  rw [findIn?_changes] at h
  cases htouched : v.touched.find? id with
  | some _ => rfl
  | none =>
    rw [if_neg (find?_touched_eq_none_iff.1 htouched)] at h
    cases h

theorem sorted_filterMap {f : Value → Option Write} {ids : List Value}
    (h : ids.Pairwise fun a b => compare a b = .lt) :
    (SortedMap.mk (ids.filterMap fun k => (f k).map fun w => (k, w))).Sorted := by
  refine List.Pairwise.filterMap _ (fun a b hab e he e' he' => ?_) h
  obtain ⟨_, -, rfl⟩ := Option.map_eq_some_iff.1 he
  obtain ⟨_, -, rfl⟩ := Option.map_eq_some_iff.1 he'
  exact hab

theorem Tracked.sorted_changes {v : View} (h : v.Tracked) : (SortedMap.mk v.changes).Sorted :=
  sorted_filterMap (List.pairwise_map.2 h.touched_sorted)

theorem Valid.changes {v : View} (h : v.Valid) : ValidChanges v.changes := by
  have hsorted := h.tracked.sorted_changes
  refine ⟨hsorted, fun e he bytes hbytes => ?_⟩
  obtain ⟨hw, -, -⟩ := of_findIn?_changes (SortedMap.findIn?_of_mem hsorted he)
  rw [hw] at hbytes
  obtain ⟨d, hd, rfl⟩ := Option.map_eq_some_iff.1 hbytes
  obtain ⟨hordered, hid⟩ := h.own e.1 d hd
  exact ⟨d, hordered, hid, rfl⟩

/-- A change leaves the document of the view if it can be read back, and otherwise no document. -/
theorem Tracked.document?_of_findIn?_changes {v : View} (h : v.Tracked) {id : Value} {w : Write}
    (hw : SortedMap.findIn? id v.changes = some w) :
    w.document? = (v.docs.find? id).filter Document.isReadable := by
  have htouched := touched_of_findIn?_changes hw
  rw [Write.document?, (of_findIn?_changes hw).1]
  cases hd : v.docs.find? id with
  | none => rfl
  | some d =>
    rw [Option.map_some, Option.bind_some, Document.decode?_encode (h.written id d htouched hd)]
    rfl

theorem Tracked.document?_of_decodes {v : View} (h : v.Tracked) {id : Value} {w : Write}
    (hw : SortedMap.findIn? id v.changes = some w) (hdecodes : w.Decodes) :
    w.document? = v.docs.find? id := by
  have htouched := touched_of_findIn?_changes hw
  rw [h.document?_of_findIn?_changes hw]
  cases hd : v.docs.find? id with
  | none => rfl
  | some d =>
    have hbytes := (of_findIn?_changes hw).1
    rw [hd] at hbytes
    have hread := hdecodes _ hbytes
    rw [Document.decode?_encode (h.written id d htouched hd)] at hread
    split at hread
    · rename_i hreadable
      simp [hreadable]
    · cases hread

theorem Tracked.decode_changes_iff {v : View} (h : v.Tracked) :
    Writes.Decode v.changes ↔
      ∀ id d, v.touched.find? id = some () → v.docs.find? id = some d → d.isReadable = true := by
  have hdecode {id : Value} {d : Document} (htouched : v.touched.find? id = some ())
      (hd : v.docs.find? id = some d) : (Document.decode? d.encode).isSome = d.isReadable := by
    rw [Document.decode?_encode (h.written id d htouched hd)]
    cases d.isReadable <;> rfl
  constructor
  · intro hchanges id d htouched hd
    obtain ⟨w, hw⟩ : ∃ w, SortedMap.findIn? id v.changes = some w := by
      have hkey : id ∈ v.touched.keys := SortedMap.mem_keys_iff.2 ⟨(), htouched⟩
      rw [findIn?_changes, if_pos hkey, change?, hd]
      cases v.base.contains id <;> exact ⟨_, rfl⟩
    have hbytes := (of_findIn?_changes hw).1
    rw [hd] at hbytes
    rw [← hdecode htouched hd]
    exact hchanges (id, w) (SortedMap.mem_of_findIn? hw) _ hbytes
  · intro hreadable e he bytes hbytes
    have hw := SortedMap.findIn?_of_mem h.sorted_changes he
    have htouched := touched_of_findIn?_changes hw
    rw [(of_findIn?_changes hw).1] at hbytes
    obtain ⟨d, hd, rfl⟩ := Option.map_eq_some_iff.1 hbytes
    rw [hdecode htouched hd]
    exact hreadable e.1 d htouched hd

/-- The changes, shown over what was loaded, show what the view shows. -/
theorem Tracked.over_changes {v : View} (h : v.Tracked) {document? : Value → Option Document}
    (hbase : v.base.find? = document?) (hdecode : Writes.Decode v.changes) :
    Writes.shownOver v.changes document? = v.docs.find? := by
  funext id
  unfold Writes.shownOver
  cases hw : SortedMap.findIn? id v.changes with
  | none => rw [Option.elim_none, h.find?_eq_base hw, hbase]
  | some w =>
    have hdecodes := hdecode (id, w) (SortedMap.mem_of_findIn? hw)
    rw [Option.elim_some, h.document?_of_decodes hw hdecodes]

/-! ## Buffering the changes -/

/-- Merging the changes of a view into the writes that it was loaded under shows what the view shows,
with one exception: where the view deletes what these writes insert, nothing is left of either, and
what is stored shows again. -/
theorem Valid.over_record {v : View} (h : v.Valid) {p : Pending} {ns : Namespace}
    {document? : Value → Option Document}
    (hbase : v.base.find? = Writes.shownOver (p.writesOf ns).entries document?)
    (hold : Writes.Decode (p.writesOf ns).entries) (hnew : Writes.Decode v.changes) (id : Value) :
    let hidden := (∃ bytes, (p.writesOf ns).find? id = some (.insert bytes)) ∧
      v.docs.find? id = none
    let shown := Writes.shownOver ((p.record ns v.changes).writesOf ns).entries document? id
    (hidden ∧ shown = document? id) ∨ (¬hidden ∧ shown = v.docs.find? id) := by
  intro hidden shown
  have hrecord := p.find?_writesOf_record ns h.changes.sorted id
  have hloaded := congrFun hbase id
  have hshown : shown = (((p.record ns v.changes).writesOf ns).find? id).elim (document? id)
      Write.document? := rfl
  rw [Writes.shownOver, ← SortedMap.find?] at hloaded
  rw [hrecord] at hshown
  cases hw : SortedMap.findIn? id v.changes with
  | none =>
    -- The identifier is as it was loaded, so an insertion under it shows.
    have hdocs := h.tracked.find?_eq_base hw
    rw [hw, Option.elim_none, ← hloaded, ← hdocs] at hshown
    refine .inr ⟨?_, hshown⟩
    rintro ⟨⟨bytes, hinsert⟩, hnone⟩
    rw [hdocs, hloaded, hinsert] at hnone
    have hdecodes := hold (id, .insert bytes) (SortedMap.mem_of_find? hinsert) bytes rfl
    rw [show Document.decode? bytes = none from hnone] at hdecodes
    cases hdecodes
  | some w =>
    have hdocument := h.tracked.document?_of_decodes hw (hnew (id, w) (SortedMap.mem_of_findIn? hw))
    rw [hw, Option.elim_some] at hshown
    cases hmerge : Write.merge ((p.writesOf ns).find? id) w with
    | none =>
      obtain ⟨hinsert, rfl⟩ := Write.merge_eq_none_iff.1 hmerge
      rw [hmerge] at hshown
      exact .inl ⟨⟨hinsert, hdocument.symm⟩, hshown⟩
    | some w' =>
      rw [hmerge, Option.elim_some, Write.document?, Write.bytes?_merge hmerge, ← Write.document?,
        hdocument] at hshown
      refine .inr ⟨?_, hshown⟩
      rintro ⟨hinsert, hnone⟩
      have hbytes := (of_findIn?_changes hw).1
      rw [hnone] at hbytes
      rw [Write.merge_eq_none_iff.2 ⟨hinsert, Write.bytes?_eq_none_iff.1 hbytes⟩] at hmerge
      cases hmerge

/-- Where the writes insert only under free identifiers, an insertion that comes out of merging takes a
free one, too. -/
theorem free_of_merge {v : View} {writes : Writes} {document? : Value → Option Document}
    (hbase : v.base.find? = Writes.shownOver writes.entries document?)
    (hdecode : Writes.Decode writes.entries)
    (hfree : ∀ id bytes, writes.find? id = some (.insert bytes) → document? id = none) {id : Value}
    {w : Write} (hw : SortedMap.findIn? id v.changes = some w) {bytes : Bytes}
    (hinsert : Write.merge (writes.find? id) w = some (.insert bytes)) : document? id = none := by
  obtain ⟨-, hnew, -⟩ := of_findIn?_changes hw
  have hshown := congrFun hbase id
  rw [Writes.shownOver, ← SortedMap.find?] at hshown
  cases hold : writes.find? id with
  | none =>
    rw [hold, Option.elim_none] at hshown
    rw [hold] at hinsert
    cases w with
    | insert _ => exact hshown.symm.trans (hnew rfl)
    | replace _ | delete => cases hinsert
  | some old =>
    cases old with
    | insert bytes' => exact hfree id bytes' hold
    | replace bytes' =>
      rw [hold] at hinsert
      cases w with
      | insert _ =>
        -- What the buffer has replaced shows, so the view cannot have inserted it.
        have hdecodes := hdecode (id, .replace bytes') (SortedMap.mem_of_find? hold) bytes' rfl
        rw [hold, Option.elim_some, hnew rfl] at hshown
        rw [show Document.decode? bytes' = none from hshown.symm] at hdecodes
        cases hdecodes
      | replace _ | delete => cases hinsert
    | delete =>
      rw [hold] at hinsert
      cases w <;> cases hinsert

theorem Valid.decode_record_iff {v : View} (h : v.Valid) {p : Pending} {ns : Namespace}
    (hp : ValidChanges (p.writesOf ns).entries) (hold : Writes.Decode (p.writesOf ns).entries) :
    Writes.Decode ((p.record ns v.changes).writesOf ns).entries ↔ Writes.Decode v.changes := by
  have hrecord := p.find?_writesOf_record ns h.changes.sorted
  have hsorted : ((p.record ns v.changes).writesOf ns).Sorted := by
    rw [Pending.writesOf_record]
    exact SortedMap.Sorted.reviseAll hp.sorted _ _
  constructor
  · intro hmerged e he bytes hbytes
    have hw := SortedMap.findIn?_of_mem h.changes.sorted he
    cases hmerge : Write.merge ((p.writesOf ns).find? e.1) e.2 with
    | none =>
      rw [(Write.merge_eq_none_iff.1 hmerge).2] at hbytes
      cases hbytes
    | some w =>
      have hfind := hrecord e.1
      rw [hw, Option.elim_some, hmerge] at hfind
      rw [← Write.bytes?_merge hmerge] at hbytes
      exact hmerged (e.1, w) (SortedMap.mem_of_find? hfind) bytes hbytes
  · intro hchanges e he bytes hbytes
    have hfind := (hrecord e.1).symm.trans (hsorted.find?_eq_some_iff.2 he)
    cases hw : SortedMap.findIn? e.1 v.changes with
    | none =>
      rw [hw] at hfind
      exact hold e (SortedMap.mem_of_find? hfind) bytes hbytes
    | some w =>
      rw [hw, Option.elim_some] at hfind
      rw [Write.bytes?_merge hfind] at hbytes
      exact hchanges (e.1, w) (SortedMap.mem_of_findIn? hw) bytes hbytes

end View

end ScopedStore
