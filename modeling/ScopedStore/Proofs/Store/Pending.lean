import ScopedStore.Proofs.Cbor.RoundTrip
import ScopedStore.Proofs.Outcome
import ScopedStore.Proofs.SortedMap
import ScopedStore.Store.Pending

/-!
# What buffered writes mean

A write leaves bytes under its identifier or none. Showing writes over documents and merging changes
into a buffer both revise one identifier after the other, so each has a meaning at every single
identifier: `find?_overlay` and `find?_writesOf_record`. Valid changes ascend by
identifier and leave bytes that were written for it; merging keeps them valid.
-/

namespace ScopedStore

/-! ## Single writes -/

namespace Write

def bytes? : Write → Option Bytes
  | .insert bytes | .replace bytes => some bytes
  | .delete => none

/-- The document that a write leaves; none if it deletes or its bytes do not decode. -/
def document? (w : Write) : Option Document := w.bytes?.bind Document.decode?

def Decodes (w : Write) : Prop := ∀ bytes, w.bytes? = some bytes → (Document.decode? bytes).isSome

theorem decodes_iff {w : Write} :
    w.Decodes ↔ (w.bytes?.all fun bytes => (Document.decode? bytes).isSome) = true := by
  cases w <;> simp [Decodes, bytes?]

instance (w : Write) : Decidable w.Decodes := decidable_of_iff' _ decodes_iff

theorem bytes?_merge {old : Option Write} {w w' : Write} (h : merge old w = some w') :
    w'.bytes? = w.bytes? := by
  rw [merge.eq_def] at h
  split at h <;> cases h <;> rfl

theorem bytes?_eq_none_iff {w : Write} : w.bytes? = none ↔ w = .delete := by
  cases w <;> simp [bytes?]

theorem merge_eq_none_iff {old : Option Write} {w : Write} :
    merge old w = none ↔ (∃ bytes, old = some (.insert bytes)) ∧ w = .delete := by
  rw [merge.eq_def]
  split <;> simp_all

theorem isDelete_iff {w : Write} : w.isDelete = true ↔ w = .delete := by
  cases w <;> simp [isDelete]

theorem isInsert_iff {w : Write} : w.isInsert = true ↔ ∃ bytes, w = .insert bytes := by
  cases w <;> simp [isInsert]

end Write

theorem decodeStored_eq_ok_iff {bytes : Bytes} {d : Document} :
    decodeStored bytes = .ok d ↔ Document.decode? bytes = some d := by
  rw [decodeStored]
  cases Document.decode? bytes <;> simp

/-- The bytes were written for an ordered document with the identifier. -/
def WrittenFor (id : Value) (bytes : Bytes) : Prop :=
  ∃ d : Document, d.Ordered ∧ d.id? = some id ∧ bytes = d.encode

theorem WrittenFor.of_decode? {id : Value} {bytes : Bytes} (h : WrittenFor id bytes) {d : Document}
    (hd : Document.decode? bytes = some d) : d.Ordered ∧ d.id? = some id := by
  obtain ⟨d', hordered, hid, rfl⟩ := h
  rw [Document.eq_of_decode?_encode hordered hd]
  exact ⟨hordered, hid⟩

/-- The changes ascend by identifier, and bytes that one of them leaves were written for it. -/
structure ValidChanges (changes : Changes) : Prop where
  sorted : (SortedMap.mk changes).Sorted
  written : ∀ e ∈ changes, ∀ bytes, e.2.bytes? = some bytes → WrittenFor e.1 bytes

theorem validChanges_empty : ValidChanges (∅ : Writes).entries :=
  ⟨SortedMap.sorted_empty, fun _ h => absurd h List.not_mem_nil⟩

/-! ## Showing writes over documents -/

namespace Writes

def Decode (l : Changes) : Prop := ∀ e ∈ l, e.2.Decodes

instance (l : Changes) : Decidable (Decode l) := inferInstanceAs (Decidable (∀ e ∈ l, e.2.Decodes))

theorem decode_empty : Decode (∅ : Writes).entries := fun _ h => absurd h List.not_mem_nil

/-- The document under an identifier after writes over given documents. -/
def shownOver (l : Changes) (document? : Value → Option Document) (id : Value) : Option Document :=
  (SortedMap.findIn? id l).elim (document? id) Write.document?

theorem overlayEntries_cons {id : Value} {w : Write} {rest : Changes} {docs docs' : Documents} :
    overlayEntries ((id, w) :: rest) docs = .ok docs' ↔
      w.Decodes ∧ overlayEntries rest (docs.assign id w.document?) = .ok docs' := by
  have hwrite (bytes : Bytes) :
      (decodeStored bytes >>= fun d => overlayEntries rest (docs.insert id d)) = .ok docs' ↔
        (Document.decode? bytes).isSome ∧
          overlayEntries rest (docs.assign id (Document.decode? bytes)) = .ok docs' := by
    simp only [bind_eq_ok, decodeStored_eq_ok_iff]
    cases Document.decode? bytes <;> simp [SortedMap.assign]
  cases w with
  | insert bytes | replace bytes =>
    simpa [overlayEntries, Write.Decodes, Write.document?, Write.bytes?] using hwrite bytes
  | delete => simp [overlayEntries, Write.Decodes, Write.document?, Write.bytes?, SortedMap.assign]

theorem overlayEntries_eq_ok_iff {l : Changes} {docs docs' : Documents} :
    overlayEntries l docs = .ok docs' ↔
      Decode l ∧ docs' = docs.reviseAll (fun _ w => w.document?) l := by
  induction l generalizing docs with
  | nil => simp [overlayEntries, Decode, SortedMap.reviseAll, eq_comm]
  | cons e rest ih =>
    obtain ⟨id, w⟩ := e
    rw [overlayEntries_cons, ih, Decode, Decode, List.forall_mem_cons, and_assoc]
    rfl

theorem overlay_eq_ok_iff {writes : Writes} {docs docs' : Documents} :
    writes.overlay docs = .ok docs' ↔
      Decode writes.entries ∧ docs' = docs.reviseAll (fun _ w => w.document?) writes.entries :=
  overlayEntries_eq_ok_iff

theorem exists_overlay {writes : Writes} (h : Decode writes.entries) (docs : Documents) :
    ∃ docs', writes.overlay docs = .ok docs' :=
  ⟨_, overlay_eq_ok_iff.2 ⟨h, rfl⟩⟩

theorem find?_overlay {writes : Writes} (hwrites : writes.Sorted) {docs docs' : Documents}
    (h : writes.overlay docs = .ok docs') : docs'.find? = shownOver writes.entries docs.find? := by
  funext id
  rw [(overlay_eq_ok_iff.1 h).2, SortedMap.find?_reviseAll _ _ hwrites]
  rfl

theorem sorted_overlay {writes : Writes} {docs docs' : Documents} (hdocs : docs.Sorted)
    (h : writes.overlay docs = .ok docs') : docs'.Sorted := by
  rw [(overlay_eq_ok_iff.1 h).2]
  exact hdocs.reviseAll _ _

/-! ## Merging changes into a buffer -/

theorem record_eq_assign (writes : Writes) (change : Value × Write) :
    writes.record change =
      writes.assign change.1 (Write.merge (writes.find? change.1) change.2) := by
  rw [record]
  cases Write.merge (writes.find? change.1) change.2 <;> rfl

theorem foldl_record (writes : Writes) (changes : Changes) :
    changes.foldl record writes = writes.reviseAll Write.merge changes := by
  induction changes generalizing writes with
  | nil => rfl
  | cons change rest ih =>
    rw [List.foldl_cons, record_eq_assign, ih]
    rfl

end Writes

theorem ValidChanges.reviseAll {writes : Writes} (h : ValidChanges writes.entries)
    {changes : Changes} (hchanges : ValidChanges changes) :
    ValidChanges (writes.reviseAll Write.merge changes).entries := by
  have hsorted : (writes.reviseAll Write.merge changes).Sorted :=
    SortedMap.Sorted.reviseAll h.sorted _ _
  refine ⟨hsorted, fun e he bytes hbytes => ?_⟩
  have hfind := hsorted.find?_eq_some_iff.2 he
  rw [SortedMap.find?_reviseAll _ _ hchanges.sorted] at hfind
  cases hw : SortedMap.findIn? e.1 changes with
  | none =>
    rw [hw] at hfind
    exact h.written e (SortedMap.mem_of_find? hfind) bytes hbytes
  | some w =>
    rw [hw] at hfind
    rw [Write.bytes?_merge hfind] at hbytes
    exact hchanges.written (e.1, w) (SortedMap.mem_of_findIn? hw) bytes hbytes

namespace Pending

theorem writesOf_record (p : Pending) (ns : Namespace) (changes : Changes) :
    (p.record ns changes).writesOf ns = (p.writesOf ns).reviseAll Write.merge changes := by
  rw [record]
  cases changes with
  | nil => rfl
  | cons change rest =>
    rw [if_neg (by simp), writesOf, SortedMap.find?_insert_self, Option.getD_some, Writes.foldl_record]

theorem find?_writesOf_record (p : Pending) (ns : Namespace) {changes : Changes}
    (hchanges : (SortedMap.mk changes).Sorted) (id : Value) :
    ((p.record ns changes).writesOf ns).find? id =
      (SortedMap.findIn? id changes).elim ((p.writesOf ns).find? id)
        (Write.merge ((p.writesOf ns).find? id)) := by
  rw [writesOf_record, SortedMap.find?_reviseAll _ _ hchanges]

theorem find?_record_of_ne (p : Pending) {ns ns' : Namespace} (h : ns' ≠ ns)
    (changes : Changes) : (p.record ns changes).find? ns' = p.find? ns' := by
  rw [record]
  split
  · rfl
  · exact SortedMap.find?_insert_of_ne _ _ h

theorem writesOf_record_of_ne (p : Pending) {ns ns' : Namespace} (h : ns' ≠ ns)
    (changes : Changes) : (p.record ns changes).writesOf ns' = p.writesOf ns' := by
  rw [writesOf, find?_record_of_ne p h, writesOf]

theorem decode_writesOf {p : Pending} (h : ∀ writes ∈ p.values, Writes.Decode writes.entries)
    (ns : Namespace) : Writes.Decode (p.writesOf ns).entries := by
  rw [writesOf]
  cases hfind : p.find? ns with
  | none => exact Writes.decode_empty
  | some writes => exact h writes (List.mem_map.2 ⟨_, SortedMap.mem_of_find? hfind, rfl⟩)

structure Valid (p : Pending) : Prop where
  sorted : p.Sorted
  writes : ∀ ns writes, p.find? ns = some writes → ValidChanges writes.entries

theorem valid_empty : Valid ∅ where
  sorted := SortedMap.sorted_empty
  writes _ _ h := by cases h

theorem Valid.writesOf {p : Pending} (h : p.Valid) (ns : Namespace) :
    ValidChanges (p.writesOf ns).entries := by
  rw [Pending.writesOf]
  cases hfind : p.find? ns with
  | none => exact validChanges_empty
  | some writes => exact h.writes ns writes hfind

theorem Valid.record {p : Pending} (h : p.Valid) (ns : Namespace) {changes : Changes}
    (hchanges : ValidChanges changes) : (p.record ns changes).Valid := by
  rw [Pending.record]
  split
  · exact h
  · refine ⟨h.sorted.insert _ _, fun ns' writes hwrites => ?_⟩
    by_cases hns : ns' = ns
    · rw [hns, SortedMap.find?_insert_self, Option.some.injEq, Writes.foldl_record] at hwrites
      exact hwrites ▸ (h.writesOf ns).reviseAll hchanges
    · rw [SortedMap.find?_insert_of_ne _ _ hns] at hwrites
      exact h.writes ns' writes hwrites

end Pending

end ScopedStore
