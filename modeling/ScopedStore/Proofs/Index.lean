import Mathlib.Data.List.Nodup
import ScopedStore.Index
import ScopedStore.Proofs.SortedMap
import ScopedStore.Store.Pending

/-!
# Unique keys

An index separates documents when no two identifiers hold documents with the same key. The check of
the unique indexes passes exactly when each of them separates (`checkUniqueIndexes_eq_ok_iff`); the
index on the identifying field needs no check where documents stand under their own identifiers
(`separates_onId`).
-/

namespace ScopedStore

/-! ## Repeated items -/

theorem firstRepeated?_eq_none_iff {α : Type} [DecidableEq α] {seen l : List α} :
    firstRepeated? seen l = none ↔ l.Nodup ∧ ∀ x ∈ l, x ∉ seen := by
  induction l generalizing seen with
  | nil => simp [firstRepeated?]
  | cons x rest ih =>
    rw [firstRepeated?]
    by_cases hx : x ∈ seen
    · simp [hx]
    · rw [if_neg hx, ih, List.nodup_cons]
      simp only [List.mem_cons, not_or, forall_eq_or_imp]
      constructor
      · rintro ⟨hnodup, hrest⟩
        exact ⟨⟨fun hmem => (hrest x hmem).1 rfl, hnodup⟩, hx, fun y hy => (hrest y hy).2⟩
      · rintro ⟨⟨hnew, hnodup⟩, -, hrest⟩
        exact ⟨hnodup, fun y hy => ⟨fun h => hnew (h ▸ hy), hrest y hy⟩⟩

theorem exists_of_firstRepeated? {α : Type} [DecidableEq α] {seen l : List α} {x : α}
    (h : firstRepeated? seen l = some x) : ∃ l₁ l₂, l = l₁ ++ x :: l₂ ∧ (x ∈ seen ∨ x ∈ l₁) := by
  induction l generalizing seen with
  | nil => cases h
  | cons y rest ih =>
    rw [firstRepeated?] at h
    split at h
    · rename_i hy
      cases h
      exact ⟨[], rest, rfl, .inl hy⟩
    · obtain ⟨l₁, l₂, rfl, hx⟩ := ih h
      refine ⟨y :: l₁, l₂, rfl, ?_⟩
      rcases hx with hx | hx
      · rcases List.mem_cons.1 hx with rfl | hx
        · exact .inr List.mem_cons_self
        · exact .inl hx
      · exact .inr (List.mem_cons_of_mem y hx)

/-! ## Separation -/

namespace Index

/-- No two identifiers hold documents with the same key. -/
def Separates (i : Index) (document? : Value → Option Document) : Prop :=
  ∀ ⦃a b d e⦄, document? a = some d → document? b = some e → i.keyOf d = i.keyOf e → a = b

theorem Separates.mono {i : Index} {f g : Value → Option Document} (h : i.Separates f)
    (hfg : ∀ id d, g id = some d → f id = some d) : i.Separates g :=
  fun _ _ _ _ hd he hkey => h (hfg _ _ hd) (hfg _ _ he) hkey

theorem nodup_keys_iff (i : Index) {docs : Documents} (hdocs : docs.Sorted) :
    (docs.values.map i.keyOf).Nodup ↔ i.Separates docs.find? := by
  rw [SortedMap.values, List.map_map]
  constructor
  · intro h a b d e hd he hkey
    have heq := List.inj_on_of_nodup_map h (SortedMap.mem_of_find? hd) (SortedMap.mem_of_find? he) hkey
    exact congrArg Prod.fst heq
  · intro h
    refine List.Nodup.map_on (fun x hx y hy hkey => ?_) hdocs.nodup_entries
    have hx' := hdocs.find?_eq_some_iff.2 hx
    have hy' := hdocs.find?_eq_some_iff.2 hy
    have hid : x.1 = y.1 := h hx' hy' hkey
    rw [hid, hy', Option.some.injEq] at hx'
    exact Prod.ext hid hx'.symm

theorem exists_of_repeated (i : Index) {docs : Documents} (hdocs : docs.Sorted) {key : List Value}
    (h : firstRepeated? [] (docs.values.map i.keyOf) = some key) :
    ∃ a b d e, a ≠ b ∧ docs.find? a = some d ∧ docs.find? b = some e ∧ i.keyOf d = key ∧
      i.keyOf e = key := by
  obtain ⟨keys₁, keys₂, hkeys, hbefore⟩ := exists_of_firstRepeated? h
  have hbefore := hbefore.resolve_left List.not_mem_nil
  rw [SortedMap.values, List.map_map] at hkeys
  obtain ⟨before, rest, hentries, rfl, hrest⟩ := List.map_eq_append_iff.1 hkeys
  obtain ⟨second, after, rfl, hsecond, -⟩ := List.map_eq_cons_iff.1 hrest
  obtain ⟨first, hfirst, hkey⟩ := List.mem_map.1 hbefore
  have hmem {e : Value × Document} (he : e ∈ before ++ second :: after) : docs.find? e.1 = some e.2 :=
    hdocs.find?_eq_some_iff.2 (hentries ▸ he)
  have hlt : compare first.1 second.1 = .lt := by
    have hsorted := hdocs
    rw [SortedMap.Sorted, hentries, List.pairwise_append] at hsorted
    exact hsorted.2.2 first hfirst second List.mem_cons_self
  refine ⟨first.1, second.1, first.2, second.2, fun heq => ?_,
    hmem (List.mem_append_left _ hfirst), hmem (List.mem_append_right _ List.mem_cons_self), hkey, hsecond⟩
  rw [heq, Std.ReflOrd.compare_self] at hlt
  cases hlt

/-- An index that separates documents separates them with one more, or with one exchanged, if the new
document shares its key with no other. -/
theorem separates_insert_iff {i : Index} {docs : Documents} (h : i.Separates docs.find?) (id : Value)
    (d : Document) :
    i.Separates (docs.insert id d).find? ↔
      ∀ a e, docs.find? a = some e → i.keyOf e = i.keyOf d → a = id := by
  constructor
  · intro hinsert a e he hkey
    by_contra hne
    exact hne (hinsert ((SortedMap.find?_insert_of_ne _ _ hne).trans he)
      (SortedMap.find?_insert_self docs id d) hkey)
  · intro hother a b e₁ e₂ ha hb hkey
    by_cases haid : a = id <;> by_cases hbid : b = id
    · rw [haid, hbid]
    · rw [haid, SortedMap.find?_insert_self, Option.some.injEq] at ha
      rw [SortedMap.find?_insert_of_ne _ _ hbid] at hb
      exact haid.trans (hother b e₂ hb (by rw [← hkey, ha])).symm
    · rw [hbid, SortedMap.find?_insert_self, Option.some.injEq] at hb
      rw [SortedMap.find?_insert_of_ne _ _ haid] at ha
      exact (hother a e₁ ha (by rw [hkey, hb])).trans hbid.symm
    · rw [SortedMap.find?_insert_of_ne _ _ haid] at ha
      rw [SortedMap.find?_insert_of_ne _ _ hbid] at hb
      exact h ha hb hkey

def named (i : Index) : Index := { i with name := some i.resolvedName }

@[simp] theorem resolvedName_named (i : Index) : i.named.resolvedName = i.resolvedName := rfl

@[simp] theorem unique_named (i : Index) : i.named.unique = i.unique := rfl

theorem keyOf_onId (d : Document) : onId.keyOf d = [d.id?.getD .null] := by
  have hpath : Path.ofString Document.idField = [Document.idField] := by decide
  rw [keyOf, onId, List.map_singleton, Document.pathOrNull, Document.getPath?, hpath]
  cases hid : d.id? with
  | none => simp [Value.at?, Value.step?, show d.find? Document.idField = none from hid]
  | some id => simp [Value.at?, Value.step?, show d.find? Document.idField = some id from hid]

theorem separates_onId {document? : Value → Option Document}
    (hid : ∀ id d, document? id = some d → d.id? = some id) : onId.Separates document? := by
  intro a b d e hd he hkey
  rw [keyOf_onId, keyOf_onId, hid a d hd, hid b e he] at hkey
  simpa using hkey

end Index

def UniqueIn (indexes : List Index) (document? : Value → Option Document) : Prop :=
  ∀ i ∈ indexes, i.unique = true → i.Separates document?

theorem UniqueIn.mono {indexes : List Index} {f g : Value → Option Document}
    (h : UniqueIn indexes f) (hfg : ∀ id d, g id = some d → f id = some d) : UniqueIn indexes g :=
  fun i hi hu => (h i hi hu).mono hfg

/-- Every unique index but the one on the identifying field separates the documents. -/
def SecondaryUniqueIn (indexes : List Index) (document? : Value → Option Document) : Prop :=
  ∀ i ∈ indexes, i.isUniqueSecondary = true → i.Separates document?

theorem UniqueIn.secondary {indexes : List Index} {document? : Value → Option Document}
    (h : UniqueIn indexes document?) : SecondaryUniqueIn indexes document? := by
  intro i hi hsecondary
  rw [Index.isUniqueSecondary, Bool.and_eq_true] at hsecondary
  exact h i hi hsecondary.1

theorem checkUniqueIndexes_iff_nodup {ns : Namespace} {indexes : List Index} {docs : List Document} :
    checkUniqueIndexes ns indexes docs = .ok () ↔
      ∀ i ∈ indexes, i.isUniqueSecondary = true → (docs.map i.keyOf).Nodup := by
  induction indexes with
  | nil => simp [checkUniqueIndexes]
  | cons i rest ih =>
    rw [checkUniqueIndexes, List.forall_mem_cons]
    by_cases hi : i.isUniqueSecondary = true
    · have hkeys : firstRepeated? [] (docs.map i.keyOf) = none ↔ (docs.map i.keyOf).Nodup := by
        simp [firstRepeated?_eq_none_iff]
      rw [if_pos hi]
      cases hrep : firstRepeated? [] (docs.map i.keyOf) with
      | none => simp [ih, hi, hkeys.1 hrep]
      | some key =>
        have hnot : ¬(docs.map i.keyOf).Nodup := fun h => by simp [hkeys.2 h] at hrep
        simp [hi, hnot]
    · rw [if_neg hi, ih]
      simp [hi]

theorem checkUniqueIndexes_eq_ok_iff {ns : Namespace} {indexes : List Index} {docs : Documents}
    (hdocs : docs.Sorted) :
    checkUniqueIndexes ns indexes docs.values = .ok () ↔ SecondaryUniqueIn indexes docs.find? := by
  rw [checkUniqueIndexes_iff_nodup]
  exact forall₂_congr fun i _ => imp_congr_right fun _ => i.nodup_keys_iff hdocs

end ScopedStore
