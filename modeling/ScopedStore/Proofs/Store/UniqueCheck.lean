import Mathlib.Data.Option.Basic
import ScopedStore.Proofs.Store.View

/-!
# One key against all keys

A view that takes a document compares its keys with those of the other entries, index by index. Where
its documents pass the full check already, this says of the documents that would be left what the full
check says of them, the error included (`checkUnique_eq_checkUniqueIndexes`). With the identifiers,
which the full check leaves out, a call is accepted exactly if it leaves consistent documents
(`unique_check_exact`). The calls stand here as they change a view step by step, so that what a refused
one leaves can be said at all.
-/

namespace ScopedStore

/-- Documents of different identifiers that pass the full check of the unique indexes. -/
structure Consistent (ns : Namespace) (indexes : List Index) (docs : List Document) : Prop where
  ids : (docs.map Document.id?).Nodup
  keys : checkUniqueIndexes ns indexes docs = .ok ()

theorem checkUniqueIndexes_perm {ns : Namespace} {indexes : List Index} {docs docs' : List Document}
    (h : docs.Perm docs') :
    checkUniqueIndexes ns indexes docs = .ok () ↔ checkUniqueIndexes ns indexes docs' = .ok () := by
  rw [checkUniqueIndexes_iff_nodup, checkUniqueIndexes_iff_nodup]
  exact forall₂_congr fun i _ => imp_congr_right fun _ => (h.map i.keyOf).nodup_iff

namespace View

/-! ## The two checks -/

def Own (v : View) : Prop := ∀ id d, v.docs.find? id = some d → d.id? = some id

/-- Once a document is put among documents that an index separates, only its own key can be repeated. -/
theorem firstRepeated?_put {v : View} (hdocs : v.docs.Sorted) {i : Index}
    (hi : i.Separates v.docs.find?) (id : Value) (d : Document) :
    firstRepeated? [] ((v.put id d).documents.map i.keyOf) =
      if v.clashes i id (i.keyOf d) then some (i.keyOf d) else none := by
  have hput : (v.docs.insert id d).Sorted := hdocs.insert id d
  have hnone : firstRepeated? [] ((v.put id d).documents.map i.keyOf) = none ↔
      v.clashes i id (i.keyOf d) = false := by
    rw [clashes_eq_false_iff hdocs, ← Index.separates_insert_iff hi, ← i.nodup_keys_iff hput,
      firstRepeated?_eq_none_iff]
    exact and_iff_left fun _ _ => List.not_mem_nil
  cases hrep : firstRepeated? [] ((v.put id d).documents.map i.keyOf) with
  | none => rw [hnone.1 hrep, if_neg Bool.false_ne_true]
  | some key =>
    have hclash : v.clashes i id (i.keyOf d) = true := by
      rw [← Bool.not_eq_false]
      exact fun h => by simp [hnone.2 h] at hrep
    obtain ⟨a, b, e, e', hne, ha, hb, hkey, hkey'⟩ := i.exists_of_repeated hput hrep
    have hown : key = i.keyOf d := by
      by_cases haid : a = id
      · rw [haid, SortedMap.find?_insert_self, Option.some.injEq] at ha
        rw [ha, hkey]
      · by_cases hbid : b = id
        · rw [hbid, SortedMap.find?_insert_self, Option.some.injEq] at hb
          rw [hb, hkey']
        · rw [SortedMap.find?_insert_of_ne _ _ haid] at ha
          rw [SortedMap.find?_insert_of_ne _ _ hbid] at hb
          exact absurd (hi ha hb (hkey.trans hkey'.symm)) hne
    rw [if_pos hclash, hown]

/-- The check of the keys of one document is the full check of what its being put would leave. -/
theorem checkUnique_eq_checkUniqueIndexes {v : View} (hdocs : v.docs.Sorted) {indexes : List Index}
    (h : SecondaryUniqueIn indexes v.docs.find?) (id : Value) (d : Document) :
    v.checkUnique id d indexes = checkUniqueIndexes v.ns indexes (v.put id d).documents := by
  induction indexes with
  | nil => rfl
  | cons i rest ih =>
    have hrest := ih fun j hj => h j (List.mem_cons_of_mem i hj)
    rw [checkUnique, checkUniqueIndexes]
    by_cases hi : i.isUniqueSecondary = true
    · rw [firstRepeated?_put hdocs (h i List.mem_cons_self hi), hi, Bool.true_and, if_pos rfl, hrest]
      cases v.clashes i id (i.keyOf d) <;> rfl
    · rw [if_neg hi, if_neg (by simp [hi]), hrest]

/-! ## Identifiers -/

theorem Own.map_id? {v : View} (h : v.Own) (hdocs : v.docs.Sorted) :
    v.documents.map Document.id? = v.docs.keys.map some := by
  rw [documents, SortedMap.values, SortedMap.keys, List.map_map, List.map_map]
  exact List.map_congr_left fun e he => h e.1 e.2 (hdocs.find?_eq_some_iff.2 he)

theorem Own.nodup_ids {v : View} (h : v.Own) (hdocs : v.docs.Sorted) :
    (v.documents.map Document.id?).Nodup := by
  rw [h.map_id? hdocs]
  exact (hdocs.nodup_keys).map (Option.some_injective Value)

theorem Own.nodup_ids_cons_iff {v : View} (h : v.Own) (hdocs : v.docs.Sorted) {id : Value}
    {d : Document} (hd : d.id? = some id) :
    ((d :: v.documents).map Document.id?).Nodup ↔ v.docs.contains id = false := by
  rw [List.map_cons, List.nodup_cons, and_iff_left (h.nodup_ids hdocs), hd, h.map_id? hdocs,
    List.mem_map_of_injective (Option.some_injective Value), SortedMap.mem_keys_iff,
    ← SortedMap.contains_iff, Bool.not_eq_true]

theorem Own.erase {v : View} (h : v.Own) (id : Value) : { v with docs := v.docs.erase id }.Own :=
  fun id' d hd => h id' d (SortedMap.find?_of_erase hd)

/-! ## Consistent documents after a call -/

/-- A document with a free identifier fits if the documents with it are consistent. -/
theorem consistent_cons_iff {v : View} (hdocs : v.docs.Sorted) (hown : v.Own)
    (hunique : checkUniqueIndexes v.ns v.indexes v.documents = .ok ()) {id : Value} {d : Document}
    (hd : d.id? = some id) :
    Consistent v.ns v.indexes (d :: v.documents) ↔
      v.docs.contains id = false ∧ v.checkUnique id d v.indexes = .ok () := by
  have hseparate := (checkUniqueIndexes_eq_ok_iff hdocs).1 hunique
  have hids := hown.nodup_ids_cons_iff hdocs hd
  have hkeys (hfree : v.docs.contains id = false) :
      checkUniqueIndexes v.ns v.indexes (d :: v.documents) = .ok () ↔
        v.checkUnique id d v.indexes = .ok () := by
    have hperm := hdocs.perm_values_insert id d
    rw [SortedMap.erase_eq_self (SortedMap.contains_eq_false_iff.1 hfree)] at hperm
    rw [checkUnique_eq_checkUniqueIndexes hdocs hseparate]
    exact checkUniqueIndexes_perm hperm.symm
  constructor
  · intro h
    have hfree := hids.1 h.ids
    exact ⟨hfree, (hkeys hfree).1 h.keys⟩
  · rintro ⟨hfree, hcheck⟩
    exact ⟨hids.2 hfree, (hkeys hfree).2 hcheck⟩

theorem consistent_exchange_iff {v : View} (hdocs : v.docs.Sorted) (hown : v.Own)
    (hunique : checkUniqueIndexes v.ns v.indexes v.documents = .ok ()) {id : Value} {d : Document}
    (hd : d.id? = some id) :
    Consistent v.ns v.indexes (d :: (v.docs.erase id).values) ↔
      v.checkUnique id d v.indexes = .ok () := by
  have hfree : (v.docs.erase id).contains id = false :=
    SortedMap.contains_eq_false_iff.2 (SortedMap.find?_erase_self _ _)
  have hids := ((hown.erase id).nodup_ids_cons_iff (hdocs.erase id) hd).2 hfree
  rw [checkUnique_eq_checkUniqueIndexes hdocs ((checkUniqueIndexes_eq_ok_iff hdocs).1 hunique)]
  have hperm := hdocs.perm_values_insert id d
  exact ⟨fun h => (checkUniqueIndexes_perm hperm).2 h.keys,
    fun h => ⟨hids, (checkUniqueIndexes_perm hperm).1 h⟩⟩

/-! ## Calls that change a view in place -/

/-- Puts a document once its keys are checked: first the identifier counts as touched, then the document
stands under it. -/
def putChecked (v : View) (id : Value) (d : Document) : Except StoreError Unit × View :=
  match v.checkUnique id d v.indexes with
  | .error e => (.error e, v)
  | .ok () =>
    let v := { v with touched := v.touched.insert id () }
    (.ok (), { v with docs := v.docs.insert id d })

/-- The insertion, as it changes a view that the caller goes on to hold. -/
def insertInPlace (v : View) (d : Document) : Except StoreError Value × View :=
  let (id, d, v) := v.identify d
  if v.docs.contains id then (.error (.duplicateKey v.ns Index.idName [id]), v)
  else
    let (outcome, v) := v.putChecked id d
    (outcome.map fun _ => id, v)

def replaceInPlace (v : View) (id : Value) (d : Document) : Except StoreError Unit × View :=
  if d.id?.any (· ≠ id) then (.error (.invalidUpdate .immutableId), v)
  else v.putChecked id (if d.id?.isSome then d else d.insert Document.idField id)

theorem putChecked_eq (v : View) (id : Value) (d : Document) :
    (v.checkUnique id d v.indexes = .ok () ∧ v.putChecked id d = (.ok (), v.put id d)) ∨
      ∃ e, v.checkUnique id d v.indexes = .error e ∧ v.putChecked id d = (.error e, v) := by
  rw [putChecked]
  cases v.checkUnique id d v.indexes with
  | ok _ => exact .inl ⟨rfl, rfl⟩
  | error e => exact .inr ⟨e, rfl, rfl⟩

theorem insert_eq_inPlace (v : View) (d : Document) :
    v.insert d = (v.insertInPlace d).1.map fun id => (id, (v.insertInPlace d).2) := by
  rw [View.insert, insertInPlace]
  obtain ⟨id, d', v₀⟩ := v.identify d
  dsimp only
  split
  · rfl
  · rcases v₀.putChecked_eq id d' with ⟨hcheck, hput⟩ | ⟨e, hcheck, hput⟩ <;> rw [hcheck, hput] <;> rfl

theorem replace_eq_inPlace (v : View) (id : Value) (d : Document) :
    v.replace id d = (v.replaceInPlace id d).1.map fun _ => (v.replaceInPlace id d).2 := by
  rw [View.replace, replaceInPlace]
  split
  · rfl
  · rcases v.putChecked_eq id (if d.id?.isSome then d else d.insert Document.idField id) with
      ⟨hcheck, hput⟩ | ⟨e, hcheck, hput⟩ <;> rw [hput] <;> simp only [hcheck] <;> rfl

/-- A call is exact if it is accepted just when the documents that it is to leave are consistent; then
it leaves these, and refused it leaves those that it found. -/
structure Exact {α : Type} (v : View) (left : List Document) (call : Except StoreError α × View) :
    Prop where
  accepted_iff : (∃ a, call.1 = .ok a) ↔ Consistent v.ns v.indexes left
  leaves : ∀ a, call.1 = .ok a → call.2.documents.Perm left
  keeps : ∀ e, call.1 = .error e → call.2.docs = v.docs

theorem Exact.map {α β : Type} {v : View} {left : List Document} {call : Except StoreError α × View}
    (h : v.Exact left call) (f : α → β) : v.Exact left (call.1.map f, call.2) where
  accepted_iff := by
    rw [← h.accepted_iff]
    constructor
    · rintro ⟨b, hb⟩
      obtain ⟨a, ha, -⟩ := map_eq_ok.1 hb
      exact ⟨a, ha⟩
    · rintro ⟨a, ha⟩
      exact ⟨f a, map_eq_ok.2 ⟨a, ha, rfl⟩⟩
  leaves b hb := by
    obtain ⟨a, ha, -⟩ := map_eq_ok.1 hb
    exact h.leaves a ha
  keeps e he := h.keeps e (map_eq_error.1 he)

theorem exact_refused {α : Type} {v v' : View} {left : List Document} (e : StoreError)
    (hkept : v'.docs = v.docs) (h : ¬Consistent v.ns v.indexes left) :
    v.Exact left ((.error e, v') : Except StoreError α × View) where
  accepted_iff := iff_of_false (fun ⟨_, ha⟩ => nomatch ha) h
  leaves := nofun
  keeps _ _ := hkept

theorem exact_putChecked {v : View} {id : Value} {d : Document} {left : List Document}
    (hleft : (v.put id d).documents.Perm left)
    (h : Consistent v.ns v.indexes left ↔ v.checkUnique id d v.indexes = .ok ()) :
    v.Exact left (v.putChecked id d) := by
  rcases v.putChecked_eq id d with ⟨hcheck, hput⟩ | ⟨e, hcheck, hput⟩
  · rw [hput]
    exact ⟨iff_of_true ⟨(), rfl⟩ (h.2 hcheck), fun _ _ => hleft, nofun⟩
  · rw [hput]
    refine exact_refused e rfl fun hconsistent => ?_
    rw [h.1 hconsistent] at hcheck
    cases hcheck

theorem exact_insertInPlace {v : View} (hdocs : v.docs.Sorted) (hown : v.Own)
    (hunique : checkUniqueIndexes v.ns v.indexes v.documents = .ok ()) (d : Document) :
    v.Exact ((v.identify d).2.1 :: v.documents) (v.insertInPlace d) := by
  obtain ⟨id, seed, hidentify, hid, -⟩ := v.identify_spec d
  let v₀ : View := { v with seed := seed }
  have hiff : Consistent v.ns v.indexes (d.withId id :: v.documents) ↔
      v₀.docs.contains id = false ∧ v₀.checkUnique id (d.withId id) v₀.indexes = .ok () :=
    consistent_cons_iff (v := v₀) hdocs hown hunique hid
  rw [insertInPlace, hidentify]
  dsimp only
  split
  · rename_i htaken
    refine exact_refused _ rfl fun hconsistent => ?_
    rw [(hiff.1 hconsistent).1] at htaken
    cases htaken
  · rename_i hfree
    have hfree : v₀.docs.contains id = false := by simpa using hfree
    have hleft := hdocs.perm_values_insert id (d.withId id)
    rw [SortedMap.erase_eq_self (SortedMap.contains_eq_false_iff.1 hfree)] at hleft
    have hput : v₀.Exact (d.withId id :: v.documents) (v₀.putChecked id (d.withId id)) :=
      exact_putChecked hleft (hiff.trans (and_iff_right hfree))
    exact ⟨(hput.map _).accepted_iff, (hput.map _).leaves, (hput.map _).keeps⟩

theorem exact_replaceInPlace {v : View} (hdocs : v.docs.Sorted) (hown : v.Own)
    (hunique : checkUniqueIndexes v.ns v.indexes v.documents = .ok ()) {id : Value} {d : Document}
    (hid : d.id? = some id) :
    v.Exact (d :: (v.docs.erase id).values) (v.replaceInPlace id d) := by
  have hreplace : v.replaceInPlace id d = v.putChecked id d := by
    rw [replaceInPlace, if_neg (by simp [hid]), if_pos (by rw [hid]; rfl)]
  rw [hreplace]
  exact exact_putChecked (hdocs.perm_values_insert id d)
    (consistent_exchange_iff hdocs hown hunique hid)

/-- The check of one key is exact. In a view whose documents stand under their own identifiers and pass
the full check of the unique indexes, an insertion is accepted exactly if the documents with the new one
have different identifiers and pass the full check; so is the replacement of the document under an
identifier by one that has it. What is accepted leaves these documents, and what is refused leaves the
documents as they were. -/
theorem unique_check_exact {v : View} (hdocs : v.docs.Sorted) (hown : v.Own)
    (hunique : checkUniqueIndexes v.ns v.indexes v.documents = .ok ()) :
    (∀ d, v.insert d = ((v.insertInPlace d).1.map fun id => (id, (v.insertInPlace d).2)) ∧
      v.Exact ((v.identify d).2.1 :: v.documents) (v.insertInPlace d)) ∧
    ∀ id d, d.id? = some id →
      v.replace id d = ((v.replaceInPlace id d).1.map fun _ => (v.replaceInPlace id d).2) ∧
      v.Exact (d :: (v.docs.erase id).values) (v.replaceInPlace id d) :=
  ⟨fun d => ⟨insert_eq_inPlace v d, exact_insertInPlace hdocs hown hunique d⟩,
    fun id d hid => ⟨replace_eq_inPlace v id d, exact_replaceInPlace hdocs hown hunique hid⟩⟩

/-- A place in a hall, by its number; a place outside of the rows has none. -/
def place (id : Int) (row? : Option Int) (seat : Int) : Document :=
  .ofList (("_id", .ofInt id) :: ("seat", .ofInt seat) ::
    (row?.map fun row => ("row", Value.ofInt row)).toList)

/-- Three places, one of them without a row, under a unique index on row and seat. -/
def hall : View :=
  let docs := .ofList
    [(.ofInt 1, place 1 (some 4) 7), (.ofInt 2, place 2 (some 4) 8), (.ofInt 3, place 3 none 7)]
  { ns := ⟨"theatre", "places"⟩, base := docs, docs := docs, seed := 0,
    indexes := [.onId, ⟨none, [("row", .ascending), ("seat", .descending)], true⟩] }

/-- A fourth place without a row repeats the key of the third, which may take its own key again. -/
theorem unique_check_exact_hall :
    hall.Own ∧ checkUniqueIndexes hall.ns hall.indexes hall.documents = .ok () ∧
      ¬Consistent hall.ns hall.indexes (place 4 none 7 :: hall.documents) ∧
      (hall.insertInPlace (place 4 none 7)).2.docs = hall.docs ∧
      Consistent hall.ns hall.indexes (place 3 none 7 :: (hall.docs.erase (.ofInt 3)).values) := by
  have hdocs : hall.docs.Sorted := SortedMap.sorted_ofList _
  have hentries : ∀ e ∈ hall.docs.entries, e.2.id? = some e.1 := by decide +kernel
  have hown : hall.Own := fun id d hd => hentries (id, d) (SortedMap.mem_of_find? hd)
  have hunique : checkUniqueIndexes hall.ns hall.indexes hall.documents = .ok () := by decide +kernel
  obtain ⟨hinsert, hreplace⟩ := unique_check_exact hdocs hown hunique
  have hrefused : (hall.insertInPlace (place 4 none 7)).1 = .error
      (.duplicateKey hall.ns "row_1_seat_-1" [.null, .ofInt 7]) := by decide +kernel
  have haccepted : (hall.replaceInPlace (.ofInt 3) (place 3 none 7)).1 = .ok () := by decide +kernel
  refine ⟨hown, hunique, fun hconsistent => ?_, (hinsert _).2.keeps _ hrefused, ?_⟩
  · obtain ⟨a, ha⟩ := (hinsert (place 4 none 7)).2.accepted_iff.2 hconsistent
    rw [hrefused] at ha
    cases ha
  · exact (hreplace (.ofInt 3) (place 3 none 7) (by decide +kernel)).2.accepted_iff.1 ⟨(), haccepted⟩

end View

end ScopedStore
