import ScopedStore.Proofs.Query

/-!
# Sorted results and their pages

The keys of a sort compare two documents one after the other, and the first key in which they differ decides,
each key in its own direction (`compareBy_eq_lt_iff`). This is a total preorder on documents of any kinds.
Sorting puts documents into this order and is stable: documents that agree on every key stay in the order in
which they stood (`pairwise_sortDocuments`). The pages of one size that are cut from a list one after the
other make up the list (`flatMap_pageOf`).
-/

namespace ScopedStore

/-! ## The order of the keys -/

/-- A key puts one document before another: its value is smaller, or greater if the key descends. -/
def SortKey.Before (key : SortKey) (a b : Document) : Prop :=
  match key.2 with
  | .ascending => compare (a.pathOrNull key.1) (b.pathOrNull key.1) = .lt
  | .descending => compare (b.pathOrNull key.1) (a.pathOrNull key.1) = .lt

/-- Two documents have the same value at every key; a missing field counts as null. -/
def AgreeOn (keys : List SortKey) (a b : Document) : Prop :=
  ∀ key ∈ keys, a.pathOrNull key.1 = b.pathOrNull key.1

/-- The first key in which two documents differ puts one before the other. -/
def PrecedesBy (keys : List SortKey) (a b : Document) : Prop :=
  ∃ before key after, keys = before ++ key :: after ∧ AgreeOn before a b ∧ key.Before a b

namespace SortKey

variable (key : SortKey) {a b : Document}

theorem cmp_eq_lt_iff : key.cmp a b = .lt ↔ key.Before a b := by
  obtain ⟨field, order⟩ := key
  cases order with
  | ascending => exact Iff.rfl
  | descending =>
    show ((a.pathOrNull field).cmp (b.pathOrNull field)).swap = .lt ↔ _
    rw [Value.cmp_swap]
    exact Iff.rfl

theorem cmp_eq_eq_iff : key.cmp a b = .eq ↔ a.pathOrNull key.1 = b.pathOrNull key.1 := by
  obtain ⟨field, order⟩ := key
  cases order with
  | ascending => exact Value.cmp_eq_iff
  | descending =>
    show ((a.pathOrNull field).cmp (b.pathOrNull field)).swap = .eq ↔ _
    rw [Ordering.swap_eq_eq]
    exact Value.cmp_eq_iff

instance transCmp : Std.TransCmp key.cmp := by
  obtain ⟨field, order⟩ := key
  have hfield : Std.TransCmp (compareOn fun d : Document => d.pathOrNull field) := inferInstance
  cases order with
  | ascending => exact hfield
  | descending =>
    have hopposite : cmp (field, .descending) =
        fun a b => compareOn (fun d : Document => d.pathOrNull field) b a := by
      funext a b
      exact Value.cmp_swap _ _
    rw [hopposite]
    exact Std.TransCmp.opposite

end SortKey

instance transCmp_compareBy (keys : List SortKey) : Std.TransCmp (compareBy keys) := by
  induction keys with
  | nil => exact { eq_swap := rfl, isLE_trans := fun _ _ => rfl }
  | cons key rest ih =>
    have hlex : compareBy (key :: rest) = compareLex key.cmp (compareBy rest) := rfl
    rw [hlex]
    infer_instance

variable {keys : List SortKey} {a b : Document}

theorem compareBy_eq_eq_iff : compareBy keys a b = .eq ↔ AgreeOn keys a b := by
  induction keys with
  | nil => simp [compareBy, AgreeOn]
  | cons key rest ih =>
    rw [compareBy, Value.then_eq_eq, key.cmp_eq_eq_iff, ih]
    simp [AgreeOn]

theorem compareBy_eq_lt_iff : compareBy keys a b = .lt ↔ PrecedesBy keys a b := by
  induction keys with
  | nil => simp [compareBy, PrecedesBy]
  | cons key rest ih =>
    rw [compareBy, Ordering.then_eq_lt, key.cmp_eq_lt_iff, key.cmp_eq_eq_iff, ih]
    constructor
    · rintro (hbefore | ⟨hsame, before, key', after, rfl, hagree, hbefore⟩)
      · exact ⟨[], key, rest, rfl, by simp [AgreeOn], hbefore⟩
      · refine ⟨key :: before, key', after, rfl, ?_, hbefore⟩
        intro k hk
        rcases List.mem_cons.1 hk with rfl | hk
        · exact hsame
        · exact hagree k hk
    · rintro ⟨before, key', after, hkeys, hagree, hbefore⟩
      cases before with
      | nil =>
        obtain ⟨rfl, rfl⟩ := List.cons.inj hkeys
        exact .inl hbefore
      | cons k before =>
        obtain ⟨rfl, rfl⟩ := List.cons.inj hkeys
        refine .inr ⟨hagree key List.mem_cons_self, before, key', after, rfl, ?_, hbefore⟩
        intro k hk
        exact hagree k (List.mem_cons_of_mem _ hk)

/-! ## Stable sorting -/

section Stable

variable {α : Type} {le : α → α → Bool}
  (htrans : ∀ a b c, le a b = true → le b c = true → le a c = true)
  (htotal : ∀ a b, (le a b || le b a) = true)
include htrans htotal

/-- Elements that are in order both ways keep their order. -/
theorem filter_mergeSort {p : α → Bool}
    (hp : ∀ a b, p a = true → p b = true → le a b = true) (l : List α) :
    (l.mergeSort le).filter p = l.filter p := by
  have hsub : (l.filter p).Sublist (l.mergeSort le) := by
    apply List.sublist_mergeSort htrans htotal
    · rw [List.pairwise_iff_forall_sublist]
      intro a b hab
      have hmem : ∀ x ∈ [a, b], p x = true := fun x hx => (List.mem_filter.1 (hab.subset hx)).2
      exact hp a b (hmem a (by simp)) (hmem b (by simp))
    · exact List.filter_sublist
  have hfiltered : (l.filter p).Sublist ((l.mergeSort le).filter p) := by
    simpa using hsub.filter p
  have hlength : (l.filter p).length = ((l.mergeSort le).filter p).length :=
    ((List.mergeSort_perm l le).filter p).length_eq.symm
  exact (hfiltered.eq_of_length hlength).symm

/-- A sorted list is in order, and where the order leaves two elements open they stand as they stood. -/
theorem pairwise_mergeSort_stable {r : α → α → Prop} {l : List α} (hl : l.Pairwise r) :
    (l.mergeSort le).Pairwise fun a b => le a b = true ∧ (le b a = true → r a b) := by
  rw [List.pairwise_iff_forall_sublist]
  intro a b hab
  have hsorted := List.pairwise_mergeSort htrans htotal l
  refine ⟨List.pairwise_iff_forall_sublist.1 hsorted hab, fun hba => ?_⟩
  have hle := List.pairwise_iff_forall_sublist.1 hsorted hab
  have hrefl : le a a = true := by simpa using htotal a a
  -- the elements that are tied with `a` stand in the sorted list as in the given one
  let tied (x : α) : Bool := le a x && le x a
  have htied : ∀ x y, tied x = true → tied y = true → le x y = true := by
    intro x y hx hy
    simp only [tied, Bool.and_eq_true] at hx hy
    exact htrans x a y hx.2 hy.1
  have hpair : [a, b].Sublist ((l.mergeSort le).filter tied) := by
    simpa [tied, hrefl, hle, hba] using hab.filter tied
  rw [filter_mergeSort htrans htotal htied] at hpair
  exact List.pairwise_iff_forall_sublist.1 hl (hpair.trans List.filter_sublist)

end Stable

/-! ## Sorting documents with their identifiers -/

def sortEntries (keys : List SortKey) (entries : List (Value × Document)) : List (Value × Document) :=
  entries.mergeSort fun a b => (compareBy keys a.2 b.2).isLE

theorem sortDocuments_map (keys : List SortKey) (entries : List (Value × Document)) :
    sortDocuments keys (entries.map Prod.snd) = (sortEntries keys entries).map Prod.snd := by
  symm
  apply List.map_mergeSort
  intro a _ b _
  rfl

theorem perm_sortEntries (keys : List SortKey) (entries : List (Value × Document)) :
    (sortEntries keys entries).Perm entries :=
  List.mergeSort_perm entries _

/-- Entries in the order of their identifiers are sorted by the keys, and those that agree on every key stay
in the order of their identifiers. -/
theorem pairwise_sortEntries (keys : List SortKey) {entries : List (Value × Document)}
    (hentries : entries.Pairwise fun a b => compare a.1 b.1 = .lt) :
    (sortEntries keys entries).Pairwise fun a b =>
      PrecedesBy keys a.2 b.2 ∨ (AgreeOn keys a.2 b.2 ∧ compare a.1 b.1 = .lt) := by
  have htrans : ∀ a b c : Value × Document, (compareBy keys a.2 b.2).isLE = true →
      (compareBy keys b.2 c.2).isLE = true → (compareBy keys a.2 c.2).isLE = true := by
    intro a b c hab hbc
    exact Std.TransCmp.isLE_trans hab hbc
  have hswap (a b : Document) : compareBy keys a b = (compareBy keys b a).swap :=
    Std.OrientedCmp.eq_swap
  have htotal : ∀ a b : Value × Document,
      ((compareBy keys a.2 b.2).isLE || (compareBy keys b.2 a.2).isLE) = true := by
    intro a b
    rw [hswap]
    cases compareBy keys b.2 a.2 <;> rfl
  refine (pairwise_mergeSort_stable htrans htotal hentries).imp ?_
  rintro a b ⟨hle, htie⟩
  rw [hswap b.2] at htie
  cases hcompare : compareBy keys a.2 b.2 with
  | lt => exact .inl (compareBy_eq_lt_iff.1 hcompare)
  | eq =>
    rw [hcompare] at htie
    exact .inr ⟨compareBy_eq_eq_iff.1 hcompare, htie rfl⟩
  | gt =>
    rw [hcompare] at hle
    cases hle

/-! ## Pages -/

/-- One page of a list that is cut into pages of one size. -/
def pageOf {α : Type} (n : Nat) (l : List α) (k : Nat) : List α := (l.drop (k * n)).take n

theorem flatMap_pageOf {α : Type} (n : Nat) (l : List α) (m : Nat) :
    (List.range m).flatMap (pageOf n l) = l.take (m * n) := by
  induction m with
  | zero => simp
  | succ m ih =>
    rw [List.range_succ, List.flatMap_append, ih, Nat.succ_mul, List.take_add]
    simp [pageOf]

theorem pageOf_eq_nil_iff {α : Type} {n : Nat} (hn : 0 < n) {l : List α} {k : Nat} :
    pageOf n l k = [] ↔ l.length ≤ k * n := by
  rw [pageOf, List.take_eq_nil_iff, List.drop_eq_nil_iff]
  omega

theorem shape_page (keys : List SortKey) (n k : Nat) (docs : List Document) :
    ({ sort := keys, skip := some (k * n), limit := some n } : FindOptions).shape docs =
      pageOf n (sortDocuments keys docs) k := rfl

end ScopedStore
