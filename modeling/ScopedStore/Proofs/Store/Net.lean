import ScopedStore.Proofs.Store.View

/-!
# What buffered writes come to

A transaction merges its changes into at most one write for each identifier. Applied to what was stored
when they were buffered, the merged writes come to the same as the changes one after the other
(`Pending.NetOf.record`): a deletion cancels an insertion only where nothing is stored.
-/

namespace ScopedStore

/-- What is stored after some changes are applied one after the other. -/
def Changes.written (changes : Changes) (stored : SortedMap Value Bytes) : SortedMap Value Bytes :=
  stored.reviseAll (fun _ w => w.bytes?) changes

theorem Changes.find?_written {changes : Changes} (hchanges : (SortedMap.mk changes).Sorted)
    (stored : SortedMap Value Bytes) (id : Value) :
    (Changes.written changes stored).find? id =
      (SortedMap.findIn? id changes).elim (stored.find? id) Write.bytes? :=
  SortedMap.find?_reviseAll _ _ hchanges id

theorem Changes.written_append (changes changes' : Changes) (stored : SortedMap Value Bytes) :
    Changes.written (changes ++ changes') stored =
      Changes.written changes' (Changes.written changes stored) :=
  List.foldl_append ..

namespace Pending

/-- The buffered writes come to the same as the changes, over what is stored. -/
structure NetOf (p : Pending) (changes : Namespace → Changes)
    (stored : Namespace → SortedMap Value Bytes) : Prop where
  free : ∀ ns id bytes, (p.writesOf ns).find? id = some (.insert bytes) → (stored ns).find? id = none
  written : ∀ ns, Changes.written (p.writesOf ns).entries (stored ns) =
    Changes.written (changes ns) (stored ns)

theorem netOf_empty (stored : Namespace → SortedMap Value Bytes) : NetOf ∅ (fun _ => []) stored where
  free _ _ _ h := by cases h
  written _ := rfl

namespace NetOf

variable {p : Pending} {changes : Namespace → Changes} {cat : Catalog} {ns : Namespace}
  {v₀ v : View} {seed : Nat}

theorem record (h : p.NetOf changes fun ns => (cat.collection ns).stored) (hcat : cat.Valid)
    (hp : p.Valid) (hload : View.load cat ns (p.writesOf ns) seed = .ok v₀) (hsteps : v₀.Steps v)
    (hv : v.Valid) :
    (p.record ns v.changes).NetOf
      (fun ns' => if ns' = ns then changes ns ++ v.changes else changes ns')
      fun ns => (cat.collection ns).stored := by
  obtain ⟨hdecodes, hdecode⟩ := View.load_isOk_iff.1 ⟨v₀, hload⟩
  have hbase := hsteps.find?_base (hp.writesOf ns).sorted hload
  have hrecord := p.find?_writesOf_record ns hv.changes.sorted
  have hfree (id : Value) (bytes : Bytes) (hid : (p.writesOf ns).find? id = some (.insert bytes)) :
      (cat.collection ns).document? id = none := by
    rw [Collection.document?, h.free ns id bytes hid]
    rfl
  refine ⟨fun ns' id bytes hinsert => ?_, fun ns' => ?_⟩
  · by_cases hns : ns' = ns
    · rw [hns, hrecord] at hinsert
      rw [hns]
      cases hw : SortedMap.findIn? id v.changes with
      | none =>
        rw [hw, Option.elim_none] at hinsert
        exact h.free ns id bytes hinsert
      | some w =>
        rw [hw, Option.elim_some] at hinsert
        exact Collection.find?_eq_none_of_document? hdecodes
          (View.free_of_merge hbase hdecode hfree hw hinsert)
    · rw [p.writesOf_record_of_ne hns] at hinsert
      exact h.free ns' id bytes hinsert
  · by_cases hns : ns' = ns
    · rw [hns, if_pos rfl, Changes.written_append, ← h.written ns]
      have hstored := (hcat.collection ns).sorted
      have hmerged : ValidChanges ((p.record ns v.changes).writesOf ns).entries :=
        (hp.record ns hv.changes).writesOf ns
      have hfind {writes : Writes} (hwrites : ValidChanges writes.entries) (id : Value) :
          (Changes.written writes.entries (cat.collection ns).stored).find? id =
            (writes.find? id).elim ((cat.collection ns).stored.find? id) Write.bytes? :=
        Changes.find?_written hwrites.sorted _ id
      refine SortedMap.ext_find? (hstored.reviseAll _ _) ((hstored.reviseAll _ _).reviseAll _ _)
        fun id => ?_
      have hnew := Changes.find?_written hv.changes.sorted
        (Changes.written (p.writesOf ns).entries (cat.collection ns).stored) id
      refine (hfind hmerged id).trans (Eq.trans ?_ hnew.symm)
      rw [hrecord, hfind (hp.writesOf ns)]
      cases hw : SortedMap.findIn? id v.changes with
      | none => rfl
      | some w =>
        rw [Option.elim_some, Option.elim_some]
        cases hmerge : Write.merge ((p.writesOf ns).find? id) w with
        | none =>
          -- the deletion of an insertion: nothing is stored under the identifier
          obtain ⟨⟨bytes, hinsert⟩, rfl⟩ := Write.merge_eq_none_iff.1 hmerge
          exact h.free ns id bytes hinsert
        | some w' => exact Write.bytes?_merge hmerge
    · rw [p.writesOf_record_of_ne hns, if_neg hns]
      exact h.written ns'

end NetOf

end Pending

end ScopedStore
