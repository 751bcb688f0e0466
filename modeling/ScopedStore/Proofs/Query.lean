import ScopedStore.Operation
import ScopedStore.Proofs.Filter
import ScopedStore.Proofs.Order
import ScopedStore.Proofs.SortedMap

/-!
# What searches find

A search shapes what its filter accepts by options; a pipeline reaches the same by stages
(`runPipeline_stages`). The filter of a handle is joined to that of a search and stands before the stages
of a pipeline; both keep the same documents (`filter_matching`). The distinct values of a field are
collected as the keys of a map, so they ascend strictly (`pairwise_distinctValues`), and no value is lost
or added on the way (`mem_distinctValues`).
-/

namespace ScopedStore

/-! ## Options as stages -/

/-- The stages that shape documents as the options do; an option that is not given has none. -/
def FindOptions.stages (o : FindOptions) : List Stage :=
  (if o.sort.isEmpty then [] else [.sort o.sort]) ++ o.skip.toList.map .skip ++
    o.limit.toList.map .limit ++ o.projection.toList.map .project

theorem sortDocuments_nil (docs : List Document) : sortDocuments [] docs = docs :=
  List.mergeSort_of_pairwise (List.pairwise_of_forall fun _ _ => rfl)

theorem runPipeline_append (stages stages' : List Stage) (docs : List Document) :
    runPipeline (stages ++ stages') docs = runPipeline stages' (runPipeline stages docs) :=
  List.foldl_append ..

theorem runPipeline_stages (o : FindOptions) (docs : List Document) :
    runPipeline o.stages docs = o.shape docs := by
  obtain ⟨sort, skip, limit, projection⟩ := o
  have hsort : runPipeline (if sort.isEmpty then [] else [.sort sort]) docs =
      sortDocuments sort docs := by
    cases sort with
    | nil => exact (sortDocuments_nil docs).symm
    | cons key rest => rfl
  rw [FindOptions.stages, runPipeline_append, runPipeline_append, runPipeline_append, hsort]
  cases skip <;> cases limit <;> cases projection <;> rfl

def FindOptions.unlimited (o : FindOptions) : FindOptions := { o with limit := none }

theorem head?_shape_of_limit (o : FindOptions) (docs : List Document) :
    ({ o with limit := some 1 }.shape docs).head? = (o.unlimited.shape docs).head? := by
  obtain ⟨sort, skip, limit, projection⟩ := o
  cases projection <;> simp [FindOptions.shape, FindOptions.unlimited, List.head?_take]

/-! ## Counting -/

theorem Value.ofCount_eq {n : Nat} (h : (n : Int) < integerBound) :
    ∃ k : Int64, Value.ofCount n = .integer k ∧ k.toInt = n := by
  refine ⟨Int64.ofInt n, if_pos h, Int64.toInt_ofInt_of_le ?_ ?_⟩
  · omega
  · rw [integerBound] at h
    omega

namespace View

/-! ## The filter of a handle -/

theorem filter_matching (v : View) (narrow f : Filter) :
    (v.matching narrow).filter f.accepts = v.matching (narrow.and f) :=
  (Filter.filter_accepts_and narrow f v.documents).symm

/-! ## Distinct values -/

theorem pairwise_distinctValues (field : String) (docs : List Document) :
    (distinctValues field docs).Pairwise fun a b => compare a b = .lt :=
  List.pairwise_map.2 (SortedMap.sorted_ofList _)

theorem mem_distinctValues {field : String} {docs : List Document} {x : Value} :
    x ∈ distinctValues field docs ↔ ∃ d ∈ docs, x ∈ fieldValues field d := by
  rw [distinctValues, SortedMap.mem_keys_ofList, List.map_map]
  simp

theorem mem_fieldValues_iff {field : String} {d : Document} {x : Value} :
    x ∈ fieldValues field d ↔
      (d.getPath? field = some x ∧ ∀ items, x ≠ .array items) ∨
        ∃ items, d.getPath? field = some (.array items) ∧ x ∈ items := by
  rw [fieldValues.eq_def]
  split
  · rename_i items hitems
    rw [hitems]
    constructor
    · exact fun hx => .inr ⟨items, rfl, hx⟩
    · rintro (⟨heq, hother⟩ | ⟨items', heq, hx⟩)
      · cases heq
        exact absurd rfl (hother items)
      · cases heq
        exact hx
  · rename_i v hother hv
    rw [hv, List.mem_singleton]
    constructor
    · rintro rfl
      exact .inl ⟨rfl, hother⟩
    · rintro (⟨heq, -⟩ | ⟨items, heq, -⟩)
      · exact (Option.some.inj heq).symm
      · exact absurd (Option.some.inj heq) (hother items)
  · rename_i hnone
    rw [hnone]
    simp

end View

end ScopedStore
