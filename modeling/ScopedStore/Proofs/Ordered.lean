import ScopedStore.Client.Request
import ScopedStore.Proofs.Order
import ScopedStore.Proofs.SortedMap
import ScopedStore.Proofs.Update

/-!
# Documents stay ordered

A map of fields has one entry per field, in ascending order, and so has every document inside it. A
request is ordered when all values it brings are; paths, updates and seeds of filters then only make
ordered documents.
-/

namespace ScopedStore

/-! ## Ordered values -/

namespace Value

theorem orderedItems_iff {l : List Value} : OrderedItems l ↔ ∀ v ∈ l, v.Ordered := by
  induction l with
  | nil => simp [OrderedItems]
  | cons v rest ih => simp [OrderedItems, ih]

theorem orderedFields_iff {l : List (String × Value)} :
    OrderedFields l ↔ ∀ e ∈ l, e.2.Ordered := by
  induction l with
  | nil => simp [OrderedFields]
  | cons e rest ih => simp [OrderedFields, ih]

theorem ordered_array_iff {l : List Value} : (array l).Ordered ↔ ∀ v ∈ l, v.Ordered := by
  rw [Ordered, orderedItems_iff]

end Value

namespace Document

theorem ordered_iff {d : Document} : d.Ordered ↔ d.Sorted ∧ ∀ e ∈ d.entries, e.2.Ordered := by
  rw [Ordered, Value.Ordered, Value.orderedFields_iff]

theorem Ordered.sorted {d : Document} (h : d.Ordered) : d.Sorted := (ordered_iff.1 h).1

theorem ordered_empty : (∅ : Document).Ordered :=
  ordered_iff.2 ⟨SortedMap.sorted_empty, fun _ h => absurd h List.not_mem_nil⟩

theorem Ordered.insert {d : Document} (h : d.Ordered) (k : String) {v : Value} (hv : v.Ordered) :
    Ordered (d.insert k v) := by
  obtain ⟨hsorted, hfields⟩ := ordered_iff.1 h
  refine ordered_iff.2 ⟨hsorted.insert k v, fun e he => ?_⟩
  rcases SortedMap.mem_entries_insert he with rfl | he
  · exact hv
  · exact hfields e he

theorem Ordered.erase {d : Document} (h : d.Ordered) (k : String) : Ordered (d.erase k) := by
  obtain ⟨hsorted, hfields⟩ := ordered_iff.1 h
  exact ordered_iff.2 ⟨hsorted.erase k, fun e he => hfields e (SortedMap.mem_of_mem_erase he)⟩

theorem Ordered.of_find? {d : Document} (h : d.Ordered) {k : String} {v : Value}
    (hv : d.find? k = some v) : v.Ordered :=
  (ordered_iff.1 h).2 (k, v) (SortedMap.mem_of_find? hv)

theorem Ordered.id? {d : Document} (h : d.Ordered) {id : Value} (hid : d.id? = some id) :
    id.Ordered :=
  h.of_find? hid

theorem ordered_pair {k₁ k₂ : String} (hk : compare k₁ k₂ = .lt) {v₁ v₂ : Value}
    (h₁ : v₁.Ordered) (h₂ : v₂.Ordered) : Ordered ⟨[(k₁, v₁), (k₂, v₂)]⟩ := by
  refine ordered_iff.2 ⟨.cons (fun e he => ?_) (List.pairwise_singleton _ _), fun e he => ?_⟩
  · rw [List.mem_singleton.1 he]
    exact hk
  · rcases List.mem_cons.1 he with rfl | he
    · exact h₁
    · rw [List.mem_singleton.1 he]
      exact h₂

end Document

/-! ## Paths -/

theorem Value.Ordered.step? {v x : Value} (h : v.Ordered) {segment : String}
    (hx : v.step? segment = some x) : x.Ordered := by
  cases v with
  | array items =>
    obtain ⟨i, -, hi⟩ := Option.bind_eq_some_iff.1 hx
    exact Value.ordered_array_iff.1 h x (List.mem_of_getElem? hi)
  | document fields => exact Document.Ordered.of_find? h hx
  | _ => cases hx

theorem Value.Ordered.at? {v x : Value} (h : v.Ordered) {p : Path} (hx : v.at? p = some x) :
    x.Ordered := by
  induction p generalizing v with
  | nil =>
    cases hx
    exact h
  | cons segment rest ih =>
    obtain ⟨next, hnext, hx⟩ := Option.bind_eq_some_iff.1 hx
    exact ih (h.step? hnext) hx

namespace Document

theorem Ordered.getPath? {d : Document} (h : d.Ordered) {path : String} {v : Value}
    (hv : d.getPath? path = some v) : v.Ordered :=
  Value.Ordered.at? h hv

theorem Ordered.fieldAt? {d : Document} (h : d.Ordered) {p : Path} {v : Value}
    (hv : d.fieldAt? p = some v) : v.Ordered := by
  fun_induction Document.fieldAt? d p with
  | case1 => cases hv
  | case2 d segment => exact h.of_find? hv
  | case3 d segment rest _ inner hinner ih => exact ih (h.of_find? hinner) hv
  | case4 => cases hv

theorem Ordered.setAt {d : Document} (h : d.Ordered) {p : Path} {v : Value} (hv : v.Ordered)
    {d' : Document} (hd : d.setAt p v = .ok d') : d'.Ordered := by
  fun_induction Document.setAt d p v generalizing d' with
  | case1 d =>
    cases hd
    exact h
  | case2 d segment v =>
    cases hd
    exact h.insert segment hv
  | case3 d segment rest v _ hfree ih =>
    cases hinner : Document.setAt ∅ rest v with
    | error e => rw [hinner] at hd; cases hd
    | ok inner =>
      rw [hinner] at hd
      cases hd
      exact h.insert segment (ih ordered_empty hv hinner)
  | case4 d segment rest v _ old hold ih =>
    cases hinner : Document.setAt old rest v with
    | error e => rw [hinner] at hd; cases hd
    | ok inner =>
      rw [hinner] at hd
      cases hd
      exact h.insert segment (ih (h.of_find? hold) hv hinner)
  | case5 => cases hd

theorem Ordered.replaceAt {d : Document} (h : d.Ordered) (p : Path) {v : Value} (hv : v.Ordered) :
    (d.replaceAt p v).Ordered := by
  fun_induction Document.replaceAt d p v with
  | case1 d => exact h
  | case2 d segment v hbound => exact h.insert segment hv
  | case3 d segment v hfree => exact h
  | case4 d segment rest v _ inner hinner ih => exact h.insert segment (ih (h.of_find? hinner) hv)
  | case5 => exact h

theorem Ordered.removeAt {d : Document} (h : d.Ordered) (p : Path) : (d.removeAt p).Ordered := by
  fun_induction Document.removeAt d p with
  | case1 d => exact h
  | case2 d segment => exact h.erase segment
  | case3 d segment rest _ inner hinner ih => exact h.insert segment (ih (h.of_find? hinner))
  | case4 => exact h

theorem Ordered.setPath {d : Document} (h : d.Ordered) {path : String} {v : Value}
    (hv : v.Ordered) {d' : Document} (hd : d.setPath path v = .ok d') : d'.Ordered :=
  h.setAt hv hd

theorem Ordered.setPathIfFree {d : Document} (h : d.Ordered) (path : String) {v : Value}
    (hv : v.Ordered) : (d.setPathIfFree path v).Ordered := by
  rw [Document.setPathIfFree]
  split
  · rename_i d' hd
    exact h.setPath hv hd
  · exact h

end Document

/-! ## Updates -/

def UpdateOp.Ordered : UpdateOp → Prop
  | .set _ value | .push _ value => value.Ordered
  | .unset _ | .increment _ _ => True

def Update.Ordered (u : Update) : Prop := ∀ op ∈ u.ops, op.Ordered

theorem UpdateOp.ordered_apply {op : UpdateOp} (hop : op.Ordered) {d d' : Document}
    (h : d.Ordered) (hd : op.apply d = .ok d') : d'.Ordered := by
  cases op with
  | set field value =>
    rw [UpdateOp.apply] at hd
    split at hd
    · cases hd
    · exact h.setPath hop hd
  | unset field =>
    rw [UpdateOp.apply] at hd
    split at hd
    · cases hd
    · cases hd
      exact h.removeAt _
  | increment field amount =>
    simp only [UpdateOp.apply] at hd
    split at hd
    · split at hd
      · cases hd
        exact h.replaceAt _ trivial
      · cases hd
    · cases hd
    · exact h.setPath (v := .integer amount) trivial hd
  | push field value =>
    simp only [UpdateOp.apply] at hd
    split at hd
    · rename_i items hitems
      cases hd
      refine h.replaceAt _ (Value.ordered_array_iff.2 fun v hv => ?_)
      rcases List.mem_append.1 hv with hv | hv
      · exact Value.ordered_array_iff.1 (h.fieldAt? hitems) v hv
      · rw [List.mem_singleton.1 hv]
        exact hop
    · cases hd
    · refine h.setPath (Value.ordered_array_iff.2 fun v hv => ?_) hd
      rw [List.mem_singleton.1 hv]
      exact hop

namespace Update

theorem ordered_single {op : UpdateOp} (hop : op.Ordered) : (Update.mk [op]).Ordered :=
  fun _ hmem => List.mem_singleton.1 hmem ▸ hop

theorem Ordered.apply {u : Update} (hu : u.Ordered) {d d' : Document} (h : d.Ordered)
    (hd : u.apply d = .ok d') : d'.Ordered :=
  apply_induction h (fun op hop _ _ => op.ordered_apply (hu op hop)) hd

end Update

/-! ## Filters and their seeds -/

namespace Filter

mutual

/-- The values that a filter compares with are ordered. -/
def Ordered : Filter → Prop
  | .all | .present _ _ => True
  | .eq _ value | .ne _ value | .range _ _ value => value.Ordered
  | .oneOf _ values => ∀ v ∈ values, v.Ordered
  | .allOf filters | .anyOf filters => OrderedAll filters
  | .not filter => filter.Ordered
termination_by structural f => f

def OrderedAll : List Filter → Prop
  | [] => True
  | f :: rest => f.Ordered ∧ OrderedAll rest
termination_by structural l => l

end

theorem orderedAll_append {fs gs : List Filter} :
    OrderedAll (fs ++ gs) ↔ OrderedAll fs ∧ OrderedAll gs := by
  induction fs with
  | nil => simp [OrderedAll]
  | cons f rest ih => simp [OrderedAll, ih, and_assoc]

theorem Ordered.and {f g : Filter} (hf : f.Ordered) (hg : g.Ordered) : (f.and g).Ordered := by
  fun_cases Filter.and f g <;> simp_all [Ordered, OrderedAll, orderedAll_append]

mutual

theorem ordered_seedFrom : (f : Filter) → f.Ordered → {d : Document} → d.Ordered →
    (f.seedFrom d).Ordered
  | .eq field _, hf, _, h => h.setPathIfFree field hf
  | .allOf filters, hf, _, h => ordered_seedFromAll filters hf h
  | .all, _, _, h | .ne _ _, _, _, h | .range _ _ _, _, _, h | .oneOf _ _, _, _, h
  | .present _ _, _, _, h | .anyOf _, _, _, h | .not _, _, _, h => h

theorem ordered_seedFromAll : (l : List Filter) → OrderedAll l → {d : Document} → d.Ordered →
    (seedFromAll l d).Ordered
  | [], _, _, h => h
  | f :: rest, hf, _, h => ordered_seedFromAll rest hf.2 (ordered_seedFrom f hf.1 h)

end

theorem Ordered.seed {f : Filter} (hf : f.Ordered) : f.seed.Ordered :=
  ordered_seedFrom f hf Document.ordered_empty

end Filter

/-! ## Requests -/

def Stage.Ordered : Stage → Prop
  | .keep filter => filter.Ordered
  | .sort _ | .skip _ | .limit _ | .project _ | .count _ => True

def WriteModel.Ordered : WriteModel → Prop
  | .insertOne d => d.Ordered
  | .updateOne f u _ | .updateMany f u _ => f.Ordered ∧ u.Ordered
  | .replaceOne f d _ => f.Ordered ∧ d.Ordered
  | .deleteOne f | .deleteMany f => f.Ordered

def DocumentOp.Ordered : DocumentOp → Prop
  | .insertOne d => d.Ordered
  | .insertMany docs => ∀ d ∈ docs, d.Ordered
  | .findOne f _ | .find f _ | .count f | .distinct _ f | .deleteOne f | .deleteMany f
  | .findOneAndDelete f _ => f.Ordered
  | .replaceOne f d _ | .findOneAndReplace f d _ => f.Ordered ∧ d.Ordered
  | .updateOne f u _ | .updateMany f u _ | .findOneAndUpdate f u _ => f.Ordered ∧ u.Ordered
  | .aggregate stages => ∀ s ∈ stages, s.Ordered
  | .bulkWrite models => ∀ m ∈ models, m.Ordered

/-- The values that a request brings are ordered, those of the handle's filter included. -/
def Request.Ordered : Request → Prop
  | .documents h op => h.narrow.Ordered ∧ op.Ordered
  | _ => True

end ScopedStore
