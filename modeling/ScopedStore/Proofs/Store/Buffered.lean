import ScopedStore.Proofs.Store.View

/-!
# Buffering beside applying

The same operations are run twice: once their changes are applied to the catalog at once, and once
they are buffered over the catalog as it was (`Buffers`). Under the buffered writes the old catalog
shows in every namespace what the new one stores, so both runs load the same views. An insertion is
buffered only where nothing is stored, so a deletion that cancels it leaves nothing behind, and the old
catalog accepts the writes whenever the unique indexes hold in the new one.
-/

namespace ScopedStore

/-- The writes are buffered over one catalog, and the other is what applying their operations one by
one has made of it. -/
structure Buffers (create : Bool) (base : Catalog) (p : Pending) (applied : Catalog) : Prop where
  pending : p.Valid
  stored : ∀ ns, (base.collection ns).Decodes
  decode : ∀ ns, Writes.Decode (p.writesOf ns).entries
  indexes : ∀ ns, (base.collection ns).indexes = (applied.collection ns).indexes
  shown : ∀ ns, Writes.shownOver (p.writesOf ns).entries (base.collection ns).document? =
    (applied.collection ns).document?
  free : ∀ ns id bytes, (p.writesOf ns).find? id = some (.insert bytes) →
    (base.collection ns).document? id = none
  /-- Where no collection may be made, none is. -/
  place : create = false → ∀ ns, (applied.collection? ns).isSome = (base.collection? ns).isSome
  made : create = false → ∀ ns, (p.writesOf ns).entries ≠ [] → (base.collection? ns).isSome

namespace Buffers

variable {create : Bool} {base applied applied' : Catalog} {p : Pending}

theorem refl (create : Bool) {cat : Catalog} (hstored : ∀ ns, (cat.collection ns).Decodes) :
    Buffers create cat ∅ cat where
  pending := Pending.valid_empty
  stored := hstored
  decode _ := Writes.decode_empty
  indexes _ := rfl
  shown _ := rfl
  free _ _ _ h := by cases h
  place _ _ := rfl
  made _ _ h := absurd rfl h

theorem load_eq (h : Buffers create base p applied) (hbase : base.Valid) (happlied : applied.Valid)
    (ns : Namespace) (hstored : (applied.collection ns).Decodes) (seed : Nat) :
    ∃ v, View.load base ns (p.writesOf ns) seed = .ok v ∧ View.load applied ns ∅ seed = .ok v := by
  obtain ⟨v, hload⟩ : ∃ v, View.load base ns (p.writesOf ns) seed = .ok v :=
    View.load_isOk_iff.2 ⟨h.stored ns, h.decode ns⟩
  obtain ⟨v', hload'⟩ : ∃ v, View.load applied ns ∅ seed = .ok v :=
    View.load_isOk_iff.2 ⟨hstored, Writes.decode_empty⟩
  have heq : v = v' := View.load_congr (hbase.collection ns).sorted (happlied.collection ns).sorted
    (h.pending.writesOf ns).sorted SortedMap.sorted_empty (h.indexes ns) (h.shown ns) hload hload'
  exact ⟨v, hload, heq ▸ hload'⟩

/-! ## One more operation -/

section Step

variable {ns : Namespace} {v₀ v : View} {seed : Nat}

/-- A merged insertion stands where nothing is stored. -/
theorem free_record (h : Buffers create base p applied) (hv : v.Valid)
    (hbase : v.base.find? = (applied.collection ns).document?) {id : Value} {bytes : Bytes}
    (hinsert : ((p.record ns v.changes).writesOf ns).find? id = some (.insert bytes)) :
    (base.collection ns).document? id = none := by
  rw [p.find?_writesOf_record ns hv.changes.sorted] at hinsert
  cases hw : SortedMap.findIn? id v.changes with
  | none =>
    rw [hw, Option.elim_none] at hinsert
    exact h.free ns id bytes hinsert
  | some w =>
    rw [hw, Option.elim_some] at hinsert
    exact View.free_of_merge (hbase.trans (h.shown ns).symm) (h.decode ns) (h.free ns) hw hinsert

theorem shown_record (h : Buffers create base p applied) (hv : v.Valid)
    (hbase : v.base.find? = (applied.collection ns).document?) (hnew : Writes.Decode v.changes) :
    Writes.shownOver ((p.record ns v.changes).writesOf ns).entries (base.collection ns).document? =
      v.docs.find? := by
  funext id
  have hloaded := hbase.trans (h.shown ns).symm
  rcases hv.over_record hloaded (h.decode ns) hnew id with
    ⟨⟨⟨bytes, hinsert⟩, hgone⟩, hshown⟩ | ⟨-, hshown⟩
  · rw [hshown, hgone, h.free ns id bytes hinsert]
  · exact hshown

theorem isSome_of_applyChanges {changes : Changes}
    (happly : applied.applyChanges ns changes create = .ok applied') (hcreate : create = false)
    (hchanges : changes.isEmpty = false) : (applied.collection? ns).isSome := by
  have hplace := Catalog.exists_applyChanges.1 ⟨applied', happly⟩ hchanges
  rw [hcreate] at hplace
  exact hplace.resolve_left Bool.false_ne_true

theorem place_record (h : Buffers create base p applied) {changes : Changes}
    (happly : applied.applyChanges ns changes create = .ok applied') (hcreate : create = false)
    (ns' : Namespace) : (applied'.collection? ns').isSome = (base.collection? ns').isSome := by
  rw [Catalog.applyChanges_eq_ok happly, ← h.place hcreate]
  split
  · rename_i hns
    unfold Catalog.changed
    cases hchanges : changes.isEmpty with
    | true => rw [if_pos rfl, hns]
    | false =>
      rw [if_neg Bool.false_ne_true, hns, isSome_of_applyChanges happly hcreate hchanges]
      rfl
  · rfl

theorem made_record (h : Buffers create base p applied) {changes : Changes}
    (happly : applied.applyChanges ns changes create = .ok applied') (hcreate : create = false)
    (ns' : Namespace) (hne : ((p.record ns changes).writesOf ns').entries ≠ []) :
    (base.collection? ns').isSome := by
  by_cases hns : ns' = ns
  · cases hchanges : changes.isEmpty with
    | true =>
      rw [Pending.record, if_pos hchanges] at hne
      exact h.made hcreate ns' hne
    | false =>
      rw [← h.place hcreate, hns]
      exact isSome_of_applyChanges happly hcreate hchanges
  · rw [p.writesOf_record_of_ne hns] at hne
    exact h.made hcreate ns' hne

/-- A transaction finds a collection missing exactly where applying at once finds it missing. -/
theorem missing_eq (h : Buffers create base p applied) (ns : Namespace) (changes : Changes) :
    (!create && !changes.isEmpty && (base.collection? ns).isNone) =
      (applied.applyChanges ns changes create).toOption.isNone := by
  cases happly : applied.applyChanges ns changes create with
  | error e =>
    obtain ⟨-, hchanges, hcreate, hnone⟩ := Catalog.applyChanges_eq_error happly
    rw [h.place hcreate] at hnone
    simpa [hcreate, hchanges, Except.toOption] using hnone
  | ok cat =>
    have hplace := Catalog.exists_applyChanges.1 ⟨cat, happly⟩
    cases hcreate : create with
    | true => rfl
    | false =>
      rw [hcreate, h.place hcreate] at hplace
      cases hchanges : changes.isEmpty with
      | true => rfl
      | false => simpa [hchanges, Except.toOption] using hplace

/-- An operation is run on a view that both catalogs give. Where its changes are applied to one and
leave what can be read, merging them into the buffer over the other keeps step. -/
theorem record (h : Buffers create base p applied) (happlied : applied.Valid)
    (hload : View.load applied ns ∅ seed = .ok v₀) (hsteps : v₀.Steps v)
    (happly : applied.applyChanges ns v.changes create = .ok applied')
    (hdecodes : (applied'.collection ns).Decodes) :
    Buffers create base (p.record ns v.changes) applied' := by
  have hv₀ := View.valid_load (happlied.collection ns) validChanges_empty hload
  have hv := hsteps.valid hv₀
  have hbase : v.base.find? = (applied.collection ns).document? :=
    hsteps.find?_base SortedMap.sorted_empty hload
  have hafter := Catalog.collection_of_applyChanges happly
  have hchanged : applied'.collection ns =
      v.changes.foldl Collection.applyChange (applied.collection ns) := by
    rw [hafter ns, if_pos rfl]
  have hkept {ns' : Namespace} (hns : ns' ≠ ns) :
      applied'.collection ns' = applied.collection ns' := by
    rw [hafter ns', if_neg hns]
  rw [hchanged] at hdecodes
  have hnew := Collection.decode_of_foldl_applyChange hv.changes.sorted hdecodes
  refine ⟨h.pending.record ns hv.changes, h.stored, fun ns' => ?_, fun ns' => ?_, fun ns' => ?_,
    fun ns' id bytes hinsert => ?_, fun hcreate => h.place_record happly hcreate,
    fun hcreate => h.made_record happly hcreate⟩
  · by_cases hns : ns' = ns
    · rw [hns]
      exact (hv.decode_record_iff (h.pending.writesOf ns) (h.decode ns)).2 hnew
    · rw [p.writesOf_record_of_ne hns]
      exact h.decode ns'
  · by_cases hns : ns' = ns
    · rw [hns, hchanged, Collection.foldl_applyChange, h.indexes ns]
    · rw [hkept hns, h.indexes ns']
  · by_cases hns : ns' = ns
    · rw [hns, h.shown_record hv hbase hnew, hchanged,
        Collection.document?_foldl_applyChange _ hv.changes.sorted, hv.tracked.over_changes hbase hnew]
    · rw [p.writesOf_record_of_ne hns, hkept hns, h.shown ns']
  · by_cases hns : ns' = ns
    · rw [hns] at hinsert ⊢
      exact h.free_record hv hbase hinsert
    · rw [p.writesOf_record_of_ne hns] at hinsert
      exact h.free ns' id bytes hinsert

end Step

/-! ## Committing -/

theorem accepts (h : Buffers create base p applied) {ns : Namespace}
    (hunique : UniqueIn (applied.collection ns).indexes (applied.collection ns).document?) :
    base.Accepts create ns (p.writesOf ns) := by
  rw [← h.indexes ns, ← h.shown ns] at hunique
  refine ⟨fun hne => ?_, fun c hc id bytes hinsert => ?_, fun c hc _ => ?_⟩
  · cases hcreate : create with
    | true => exact .inl rfl
    | false => exact .inr (h.made hcreate ns hne)
  · have hstored := h.stored ns
    have hfree := h.free ns id bytes hinsert
    rw [Catalog.collection_of_eq_some hc] at hstored hfree
    exact Collection.find?_eq_none_of_document? hstored hfree
  · rwa [Catalog.collection_of_eq_some hc] at hunique

end Buffers

end ScopedStore
