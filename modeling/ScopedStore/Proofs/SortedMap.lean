import Mathlib.Data.List.Nodup
import ScopedStore.SortedMap

/-!
# Laws of key-sorted maps

Lookup decides a sorted map: `ext_find?` says that two sorted maps with the same bindings are the same
list of entries. The operations keep maps sorted, so everything above this module speaks of a map
through `find?` alone.
-/

namespace ScopedStore

namespace SortedMap

universe u v w

variable {κ : Type u} {α : Type v} [Ord κ]

/-! ## Lookup in a list of entries -/

theorem contains_iff {m : SortedMap κ α} {k : κ} :
    m.contains k = true ↔ ∃ x, m.find? k = some x := by
  rw [contains, Option.isSome_iff_exists]

theorem contains_eq_false_iff {m : SortedMap κ α} {k : κ} :
    m.contains k = false ↔ m.find? k = none := by
  rw [contains, Option.isSome_eq_false_iff, Option.isNone_iff_eq_none]

section Lookup

variable [Std.LawfulEqOrd κ]

theorem findIn?_eq_none_iff {k : κ} {l : List (κ × α)} :
    findIn? k l = none ↔ ∀ e ∈ l, e.1 ≠ k := by
  induction l with
  | nil => simp [findIn?]
  | cons e rest ih =>
    by_cases hk : compare k e.1 = .eq
    · have hke : k = e.1 := Std.LawfulEqCmp.eq_of_compare hk
      simp [findIn?, ← hke]
    · have hke : e.1 ≠ k := fun h => hk (by rw [h]; exact Std.ReflCmp.compare_self)
      rw [findIn?, if_neg hk, ih]
      simp [hke]

theorem mem_of_findIn? {k : κ} {x : α} {l : List (κ × α)} (h : findIn? k l = some x) :
    (k, x) ∈ l := by
  induction l with
  | nil => simp [findIn?] at h
  | cons e rest ih =>
    by_cases hk : compare k e.1 = .eq
    · rw [findIn?, if_pos hk, Option.some.injEq] at h
      rw [Std.LawfulEqCmp.eq_of_compare hk, ← h]
      exact List.mem_cons_self
    · rw [findIn?, if_neg hk] at h
      exact List.mem_cons_of_mem _ (ih h)

theorem findIn?_filter (k k' : κ) (l : List (κ × α)) :
    findIn? k' (l.filter fun e => compare k e.1 != .eq) =
      if compare k' k = .eq then none else findIn? k' l := by
  induction l with
  | nil => simp [findIn?]
  | cons e rest ih =>
    by_cases hk : compare k e.1 = .eq
    · have hke : k = e.1 := Std.LawfulEqCmp.eq_of_compare hk
      rw [List.filter_cons_of_neg (by simp [hke]), ih]
      by_cases hk' : compare k' k = .eq
      · rw [if_pos hk', if_pos hk']
      · rw [if_neg hk', if_neg hk', findIn?, if_neg (hke ▸ hk')]
    · rw [List.filter_cons_of_pos (by simpa using hk), findIn?, ih, findIn?]
      by_cases hk' : compare k' k = .eq
      · have hkk : k' = k := Std.LawfulEqCmp.eq_of_compare hk'
        simp [hkk, hk]
      · simp [hk']

@[simp] theorem find?_insert_self (m : SortedMap κ α) (k : κ) (x : α) :
    (m.insert k x).find? k = some x := by
  simp

theorem find?_insert_of_ne (m : SortedMap κ α) {k k' : κ} (x : α) (h : k' ≠ k) :
    (m.insert k x).find? k' = m.find? k' := by
  rw [find?_insert, if_neg fun hk => h (Std.LawfulEqCmp.eq_of_compare hk)]

@[simp] theorem find?_erase_self (m : SortedMap κ α) (k : κ) : (m.erase k).find? k = none := by
  simp [find?, erase, findIn?_filter]

theorem find?_erase_of_ne (m : SortedMap κ α) {k k' : κ} (h : k' ≠ k) :
    (m.erase k).find? k' = m.find? k' := by
  rw [find?, erase, findIn?_filter, if_neg fun hk => h (Std.LawfulEqCmp.eq_of_compare hk)]
  rfl

theorem find?_of_erase {m : SortedMap κ α} {k k' : κ} {x : α}
    (h : (m.erase k).find? k' = some x) : m.find? k' = some x := by
  by_cases hk : k' = k
  · rw [hk, find?_erase_self] at h
    cases h
  · rwa [find?_erase_of_ne _ hk] at h

theorem mem_of_find? {m : SortedMap κ α} {k : κ} {x : α} (h : m.find? k = some x) :
    (k, x) ∈ m.entries :=
  mem_of_findIn? h

theorem find?_eq_none_iff {m : SortedMap κ α} {k : κ} :
    m.find? k = none ↔ ∀ e ∈ m.entries, e.1 ≠ k :=
  findIn?_eq_none_iff

end Lookup

/-! ## Entries after an operation -/

theorem mem_insertEntry {k : κ} {x : α} {e : κ × α} {l : List (κ × α)}
    (h : e ∈ insertEntry k x l) : e = (k, x) ∨ e ∈ l := by
  induction l with
  | nil => simpa [insertEntry] using h
  | cons d rest ih =>
    rw [insertEntry] at h
    split at h
    · simpa using h
    · rcases List.mem_cons.1 h with h | h
      · exact .inl h
      · exact .inr (List.mem_cons_of_mem _ h)
    · rcases List.mem_cons.1 h with h | h
      · exact .inr (h ▸ List.mem_cons_self)
      · exact (ih h).imp_right (List.mem_cons_of_mem _)

theorem mem_entries_insert {m : SortedMap κ α} {k : κ} {x : α} {e : κ × α}
    (h : e ∈ (m.insert k x).entries) : e = (k, x) ∨ e ∈ m.entries :=
  mem_insertEntry h

theorem filter_insertEntry [Std.LawfulEqOrd κ] {k : κ} (x : α) {l : List (κ × α)}
    (h : ∀ e ∈ l, e.1 ≠ k) : (insertEntry k x l).filter (fun e => compare k e.1 != .eq) = l := by
  have hdrop (rest : List (κ × α)) : ((k, x) :: rest).filter (fun e => compare k e.1 != .eq) =
      rest.filter fun e => compare k e.1 != .eq :=
    List.filter_cons_of_neg (by simp)
  have hkeep {e : κ × α} (he : e.1 ≠ k) : (compare k e.1 != .eq) = true := by
    rw [bne_iff_ne]
    exact fun heq => he (Std.LawfulEqCmp.eq_of_compare heq).symm
  induction l with
  | nil => exact hdrop []
  | cons e rest ih =>
    have hhere : (compare k e.1 != .eq) = true := hkeep (h e List.mem_cons_self)
    rw [insertEntry]
    split
    · rw [hdrop]
      exact List.filter_eq_self.2 fun e' he' => hkeep (h e' he')
    · rename_i heq
      rw [heq] at hhere
      cases hhere
    · rw [List.filter_cons, if_pos hhere, ih fun e' he' => h e' (List.mem_cons_of_mem _ he')]

theorem erase_insert [Std.LawfulEqOrd κ] {m : SortedMap κ α} {k : κ} (h : m.find? k = none) (x : α) :
    (m.insert k x).erase k = m :=
  congrArg SortedMap.mk (filter_insertEntry x (find?_eq_none_iff.1 h))

theorem erase_eq_self [Std.LawfulEqOrd κ] {m : SortedMap κ α} {k : κ} (h : m.find? k = none) :
    m.erase k = m := by
  refine congrArg SortedMap.mk (List.filter_eq_self.2 fun e he => bne_iff_ne.2 fun heq => ?_)
  exact find?_eq_none_iff.1 h e he (Std.LawfulEqCmp.eq_of_compare heq).symm

theorem mem_of_mem_erase {m : SortedMap κ α} {k : κ} {e : κ × α}
    (h : e ∈ (m.erase k).entries) : e ∈ m.entries :=
  (List.mem_filter.1 h).1

/-! ## Sorted maps -/

theorem sorted_empty : (∅ : SortedMap κ α).Sorted := List.Pairwise.nil

theorem Sorted.erase {m : SortedMap κ α} (h : m.Sorted) (k : κ) : (m.erase k).Sorted :=
  List.Pairwise.filter _ h

section Ordered

variable [Std.LawfulEqOrd κ]

theorem findIn?_of_mem {k : κ} {x : α} {l : List (κ × α)}
    (h : l.Pairwise fun a b => compare a.1 b.1 = .lt) (hmem : (k, x) ∈ l) :
    findIn? k l = some x := by
  induction l with
  | nil => simp at hmem
  | cons e rest ih =>
    obtain ⟨hhead, hrest⟩ := List.pairwise_cons.1 h
    rcases List.mem_cons.1 hmem with rfl | hmem
    · simp [findIn?]
    · have hlt := hhead _ hmem
      rw [findIn?, if_neg, ih hrest hmem]
      intro heq
      simp [Std.LawfulEqCmp.eq_of_compare heq] at hlt

theorem Sorted.find?_eq_some_iff {m : SortedMap κ α} (h : m.Sorted) {k : κ} {x : α} :
    m.find? k = some x ↔ (k, x) ∈ m.entries :=
  ⟨mem_of_find?, findIn?_of_mem h⟩

theorem Sorted.nodup_keys {m : SortedMap κ α} (h : m.Sorted) : m.keys.Nodup :=
  List.pairwise_map.2 (List.Pairwise.imp (fun hlt heq => by simp [heq] at hlt) h)

theorem Sorted.nodup_entries {m : SortedMap κ α} (h : m.Sorted) : m.entries.Nodup :=
  List.Nodup.of_map Prod.fst h.nodup_keys

theorem findIn?_tail {e : κ × α} {l : List (κ × α)}
    (h : (e :: l).Pairwise fun a b => compare a.1 b.1 = .lt) : findIn? e.1 l = none := by
  refine findIn?_eq_none_iff.2 fun d hd heq => ?_
  have hlt := (List.pairwise_cons.1 h).1 d hd
  simp [heq] at hlt

variable [Std.TransOrd κ]

theorem pairwise_insertEntry (k : κ) (x : α) {l : List (κ × α)}
    (h : l.Pairwise fun a b => compare a.1 b.1 = .lt) :
    (insertEntry k x l).Pairwise fun a b => compare a.1 b.1 = .lt := by
  induction l with
  | nil => simp [insertEntry]
  | cons e rest ih =>
    obtain ⟨hhead, hrest⟩ := List.pairwise_cons.1 h
    rw [insertEntry]
    split
    · rename_i hlt
      refine List.pairwise_cons.2 ⟨fun d hd => ?_, h⟩
      rcases List.mem_cons.1 hd with rfl | hd
      · exact hlt
      · exact Std.TransCmp.lt_trans hlt (hhead d hd)
    · rename_i heq
      rw [← Std.LawfulEqCmp.eq_of_compare heq] at hhead
      exact List.pairwise_cons.2 ⟨hhead, hrest⟩
    · rename_i hgt
      refine List.pairwise_cons.2 ⟨fun d hd => ?_, ih hrest⟩
      rcases mem_insertEntry hd with rfl | hd
      · exact Std.OrientedCmp.lt_of_gt hgt
      · exact hhead d hd

theorem Sorted.insert {m : SortedMap κ α} (h : m.Sorted) (k : κ) (x : α) :
    (m.insert k x).Sorted :=
  pairwise_insertEntry k x h

theorem findIn?_of_lt_head {k : κ} {e : κ × α} {l : List (κ × α)}
    (h : (e :: l).Pairwise fun a b => compare a.1 b.1 = .lt) (hk : compare k e.1 = .lt) :
    findIn? k (e :: l) = none := by
  refine findIn?_eq_none_iff.2 fun d hd heq => ?_
  have hlt : compare k d.1 = .lt := by
    rcases List.mem_cons.1 hd with rfl | hd
    · exact hk
    · exact Std.TransCmp.lt_trans hk ((List.pairwise_cons.1 h).1 d hd)
  simp [heq] at hlt

theorem eq_of_findIn?_eq {l₁ l₂ : List (κ × α)}
    (h₁ : l₁.Pairwise fun a b => compare a.1 b.1 = .lt)
    (h₂ : l₂.Pairwise fun a b => compare a.1 b.1 = .lt)
    (h : ∀ k, findIn? k l₁ = findIn? k l₂) : l₁ = l₂ := by
  induction l₁ generalizing l₂ with
  | nil =>
    cases l₂ with
    | nil => rfl
    | cons e rest => simpa [findIn?] using h e.1
  | cons d rest₁ ih =>
    cases l₂ with
    | nil => simpa [findIn?] using h d.1
    | cons e rest₂ =>
      cases hcmp : compare d.1 e.1 with
      | lt =>
        have := h d.1
        rw [findIn?_of_lt_head h₂ hcmp] at this
        simp [findIn?] at this
      | gt =>
        have := h e.1
        rw [findIn?_of_lt_head h₁ (Std.OrientedCmp.lt_of_gt hcmp)] at this
        simp [findIn?] at this
      | eq =>
        have hkey : d.1 = e.1 := Std.LawfulEqCmp.eq_of_compare hcmp
        have hvalue : d.2 = e.2 := by simpa [findIn?, hkey] using h d.1
        have hrest : rest₁ = rest₂ := by
          refine ih h₁.of_cons h₂.of_cons fun k => ?_
          by_cases hk : k = d.1
          · rw [hk, findIn?_tail h₁, hkey, findIn?_tail h₂]
          · have hcmp' : ¬compare k d.1 = .eq := fun hc => hk (Std.LawfulEqCmp.eq_of_compare hc)
            have := h k
            rwa [findIn?, if_neg hcmp', findIn?, if_neg (hkey ▸ hcmp')] at this
        rw [hrest, Prod.ext hkey hvalue]

/-- A sorted map is decided by its bindings. -/
theorem ext_find? {m₁ m₂ : SortedMap κ α} (h₁ : m₁.Sorted) (h₂ : m₂.Sorted)
    (h : ∀ k, m₁.find? k = m₂.find? k) : m₁ = m₂ := by
  obtain ⟨l₁⟩ := m₁
  obtain ⟨l₂⟩ := m₂
  exact congrArg mk (eq_of_findIn?_eq h₁ h₂ h)

end Ordered

/-! ## Binding a key again -/

section Again

variable [Std.LawfulEqOrd κ] [Std.TransOrd κ]

theorem Sorted.insert_eq_self {m : SortedMap κ α} (h : m.Sorted) {k : κ} {x : α}
    (hx : m.find? k = some x) : m.insert k x = m := by
  refine ext_find? (h.insert k x) h fun k' => ?_
  by_cases hk : k' = k
  · rw [hk, find?_insert_self, hx]
  · exact find?_insert_of_ne m x hk

theorem Sorted.perm_entries_insert {m : SortedMap κ α} (h : m.Sorted) (k : κ) (x : α) :
    (m.insert k x).entries.Perm ((k, x) :: (m.erase k).entries) := by
  have hnew : (k, x) ∉ (m.erase k).entries := fun hmem => by
    rw [← (h.erase k).find?_eq_some_iff, find?_erase_self] at hmem
    cases hmem
  refine (List.perm_ext_iff_of_nodup (h.insert k x).nodup_entries
    (List.nodup_cons.2 ⟨hnew, (h.erase k).nodup_entries⟩)).2 fun ⟨k', y⟩ => ?_
  rw [← (h.insert k x).find?_eq_some_iff, List.mem_cons, ← (h.erase k).find?_eq_some_iff,
    Prod.mk.injEq]
  by_cases hk : k' = k
  · rw [hk, find?_insert_self, find?_erase_self]
    simp [eq_comm]
  · rw [find?_insert_of_ne m x hk, find?_erase_of_ne m hk]
    simp [hk]

theorem Sorted.perm_values_insert {m : SortedMap κ α} (h : m.Sorted) (k : κ) (x : α) :
    (m.insert k x).values.Perm (x :: (m.erase k).values) :=
  (h.perm_entries_insert k x).map Prod.snd

theorem Sorted.insert_insert {m : SortedMap κ α} (h : m.Sorted) (k : κ) (x y : α) :
    (m.insert k x).insert k y = m.insert k y := by
  refine ext_find? ((h.insert k x).insert k y) (h.insert k y) fun k' => ?_
  by_cases hk : k' = k
  · rw [hk, find?_insert_self, find?_insert_self]
  · rw [find?_insert_of_ne _ _ hk, find?_insert_of_ne _ _ hk, find?_insert_of_ne _ _ hk]

end Again

/-! ## Revising keys one after the other -/

/-- Binds a key to a value, or unbinds it. -/
def assign (m : SortedMap κ α) (k : κ) : Option α → SortedMap κ α
  | some x => m.insert k x
  | none => m.erase k

/-- Revises the binding of each key of a list, which may look at the binding before. -/
def reviseAll {β : Type w} (f : Option α → β → Option α) (m : SortedMap κ α) (l : List (κ × β)) :
    SortedMap κ α :=
  l.foldl (fun m e => m.assign e.1 (f (m.find? e.1) e.2)) m

section Revise

variable {β : Type w} [Std.LawfulEqOrd κ]

@[simp] theorem find?_assign_self (m : SortedMap κ α) (k : κ) (x : Option α) :
    (m.assign k x).find? k = x := by
  cases x <;> simp [assign]

theorem find?_assign_of_ne (m : SortedMap κ α) {k k' : κ} (x : Option α) (h : k' ≠ k) :
    (m.assign k x).find? k' = m.find? k' := by
  cases x with
  | none => exact find?_erase_of_ne m h
  | some x => exact find?_insert_of_ne m x h

/-- Where the keys of the list ascend, each key is revised once. -/
theorem find?_reviseAll (f : Option α → β → Option α) (m : SortedMap κ α) {l : List (κ × β)}
    (hl : (mk l).Sorted) (k : κ) :
    (m.reviseAll f l).find? k = (findIn? k l).elim (m.find? k) (f (m.find? k)) := by
  induction l generalizing m with
  | nil => rfl
  | cons e rest ih =>
    have hrest := ih (m.assign e.1 (f (m.find? e.1) e.2)) (List.Pairwise.of_cons hl)
    rw [reviseAll, List.foldl_cons]
    refine hrest.trans ?_
    by_cases hk : k = e.1
    · have htail : findIn? k rest = none := hk ▸ findIn?_tail hl
      rw [htail, hk, findIn?, if_pos Std.ReflCmp.compare_self]
      simp
    · have hcmp : ¬compare k e.1 = .eq := fun h => hk (Std.LawfulEqCmp.eq_of_compare h)
      rw [find?_assign_of_ne m _ hk, findIn?, if_neg hcmp]

variable [Std.TransOrd κ]

theorem Sorted.assign {m : SortedMap κ α} (h : m.Sorted) (k : κ) (x : Option α) :
    (m.assign k x).Sorted := by
  cases x with
  | none => exact h.erase k
  | some x => exact h.insert k x

theorem Sorted.reviseAll {m : SortedMap κ α} (h : m.Sorted) (f : Option α → β → Option α)
    (l : List (κ × β)) : (m.reviseAll f l).Sorted := by
  induction l generalizing m with
  | nil => exact h
  | cons e rest ih => exact ih (h.assign _ _)

end Revise

/-! ## Maps from lists -/

theorem insertEntry_of_all_lt [Std.OrientedOrd κ] {k : κ} {x : α} {l : List (κ × α)}
    (h : ∀ e ∈ l, compare e.1 k = .lt) : insertEntry k x l = l ++ [(k, x)] := by
  induction l with
  | nil => rfl
  | cons e rest ih =>
    have hgt : compare k e.1 = .gt := Std.OrientedCmp.gt_of_lt (h e List.mem_cons_self)
    rw [insertEntry, hgt, ih fun d hd => h d (List.mem_cons_of_mem _ hd)]
    rfl

theorem foldl_insert_of_sorted [Std.OrientedOrd κ] (l₁ l₂ : List (κ × α))
    (h : (l₁ ++ l₂).Pairwise fun a b => compare a.1 b.1 = .lt) :
    l₂.foldl (fun m e => m.insert e.1 e.2) (mk l₁) = mk (l₁ ++ l₂) := by
  induction l₂ generalizing l₁ with
  | nil => simp
  | cons e rest ih =>
    have hlt : ∀ d ∈ l₁, compare d.1 e.1 = .lt := fun d hd =>
      (List.pairwise_append.1 h).2.2 d hd e List.mem_cons_self
    rw [List.foldl_cons, insert, insertEntry_of_all_lt hlt, ih _ (by simpa using h)]
    simp

theorem ofList_entries [Std.OrientedOrd κ] {m : SortedMap κ α} (h : m.Sorted) : ofList m.entries = m :=
  foldl_insert_of_sorted [] m.entries h

section Keys

variable [Std.LawfulEqOrd κ]

theorem mem_keys_iff {m : SortedMap κ α} {k : κ} : k ∈ m.keys ↔ ∃ x, m.find? k = some x := by
  constructor
  · intro hk
    obtain ⟨e, he, rfl⟩ := List.mem_map.1 hk
    refine Option.ne_none_iff_exists'.1 fun hnone => ?_
    exact find?_eq_none_iff.1 hnone e he rfl
  · rintro ⟨x, hx⟩
    exact List.mem_map.2 ⟨(k, x), mem_of_find? hx, rfl⟩

theorem mem_keys_insert {m : SortedMap κ α} {k k' : κ} {x : α} :
    k' ∈ (m.insert k x).keys ↔ k' = k ∨ k' ∈ m.keys := by
  rw [mem_keys_iff, mem_keys_iff]
  by_cases hk : k' = k
  · simp [hk]
  · simp [find?_insert_of_ne m x hk, hk]

theorem mem_keys_foldl_insert {m : SortedMap κ α} {k : κ} {l : List (κ × α)} :
    k ∈ (l.foldl (fun m e => m.insert e.1 e.2) m).keys ↔ k ∈ m.keys ∨ k ∈ l.map Prod.fst := by
  induction l generalizing m with
  | nil => simp
  | cons e rest ih =>
    rw [List.foldl_cons, ih, mem_keys_insert, List.map_cons, List.mem_cons, or_left_comm, or_assoc]

theorem mem_keys_ofList {k : κ} {l : List (κ × α)} : k ∈ (ofList l).keys ↔ k ∈ l.map Prod.fst :=
  mem_keys_foldl_insert.trans (or_iff_right List.not_mem_nil)

theorem sorted_ofList [Std.TransOrd κ] (l : List (κ × α)) : (ofList l).Sorted :=
  List.foldlRecOn l _ sorted_empty fun _ h e _ => h.insert e.1 e.2

end Keys

end SortedMap

end ScopedStore
