import ScopedStore.Proofs.Index
import ScopedStore.Proofs.Store.Pending
import ScopedStore.Store.Collection

/-!
# What collections hold

`document?` reads one identifier of a collection. `Valid` is the invariant of every collection: what
is stored under an identifier was written for an ordered document with this identifier, and the
indexes begin with the one on the identifying field and differ in their names. Changing what is
stored keeps it, and so does adding or removing an index.
-/

namespace ScopedStore

/-! ## Decoding -/

theorem decodeEntries_cons {id : Value} {bytes : Bytes} {rest : List (Value × Bytes)}
    {docs : List (Value × Document)} :
    decodeEntries ((id, bytes) :: rest) = .ok docs ↔
      ∃ d docs', Document.decode? bytes = some d ∧ decodeEntries rest = .ok docs' ∧
        docs = (id, d) :: docs' := by
  simp only [decodeEntries, bind_eq_ok, decodeStored_eq_ok_iff, pure_eq_ok, eq_comm (b := docs)]
  simp

theorem exists_decodeEntries {l : List (Value × Bytes)}
    (hl : ∀ e ∈ l, (Document.decode? e.2).isSome) : ∃ docs, decodeEntries l = .ok docs := by
  induction l with
  | nil => exact ⟨[], rfl⟩
  | cons e rest ih =>
    obtain ⟨d, hd⟩ := Option.isSome_iff_exists.1 (hl e List.mem_cons_self)
    obtain ⟨docs, hdocs⟩ := ih fun e' he' => hl e' (List.mem_cons_of_mem _ he')
    exact ⟨(e.1, d) :: docs, decodeEntries_cons.2 ⟨d, docs, hd, hdocs, rfl⟩⟩

theorem keys_decodeEntries {l : List (Value × Bytes)} {docs : List (Value × Document)}
    (h : decodeEntries l = .ok docs) : docs.map Prod.fst = l.map Prod.fst := by
  induction l generalizing docs with
  | nil =>
    cases h
    rfl
  | cons e rest ih =>
    obtain ⟨d, docs', -, hrest, rfl⟩ := decodeEntries_cons.1 h
    rw [List.map_cons, List.map_cons, ih hrest]

theorem findIn?_decodeEntries {l : List (Value × Bytes)} {docs : List (Value × Document)}
    (h : decodeEntries l = .ok docs) (id : Value) :
    SortedMap.findIn? id docs = (SortedMap.findIn? id l).bind Document.decode? := by
  induction l generalizing docs with
  | nil =>
    cases h
    rfl
  | cons e rest ih =>
    obtain ⟨d, docs', hd, hrest, rfl⟩ := decodeEntries_cons.1 h
    rw [SortedMap.findIn?, SortedMap.findIn?, ih hrest]
    split
    · exact hd.symm
    · rfl

theorem isSome_of_decodeEntries {l : List (Value × Bytes)} {docs : List (Value × Document)}
    (h : decodeEntries l = .ok docs) : ∀ e ∈ l, (Document.decode? e.2).isSome := by
  induction l generalizing docs with
  | nil => simp
  | cons e rest ih =>
    obtain ⟨d, docs', hd, hrest, rfl⟩ := decodeEntries_cons.1 h
    refine List.forall_mem_cons.2 ⟨?_, ih hrest⟩
    rw [hd]
    rfl

namespace Collection

/-- The document stored under an identifier, if its bytes decode. -/
def document? (c : Collection) (id : Value) : Option Document :=
  (c.stored.find? id).bind Document.decode?

def Decodes (c : Collection) : Prop := ∀ e ∈ c.stored.entries, (Document.decode? e.2).isSome

instance (c : Collection) : Decidable c.Decodes :=
  inferInstanceAs (Decidable (∀ e ∈ c.stored.entries, (Document.decode? e.2).isSome))

theorem exists_documents {c : Collection} (h : c.Decodes) : ∃ docs, c.documents = .ok docs := by
  obtain ⟨docs, hdocs⟩ := exists_decodeEntries h
  exact ⟨⟨docs⟩, by rw [documents, hdocs]; rfl⟩

theorem documents_eq_ok {c : Collection} {docs : Documents} (h : c.documents = .ok docs) :
    decodeEntries c.stored.entries = .ok docs.entries := by
  obtain ⟨l, hl, rfl⟩ := map_eq_ok.1 h
  exact hl

theorem decodes_of_documents {c : Collection} {docs : Documents} (h : c.documents = .ok docs) :
    c.Decodes :=
  isSome_of_decodeEntries (documents_eq_ok h)

theorem find?_documents {c : Collection} {docs : Documents} (h : c.documents = .ok docs) :
    docs.find? = c.document? :=
  funext fun id => findIn?_decodeEntries (documents_eq_ok h) id

theorem sorted_documents {c : Collection} {docs : Documents} (hc : c.stored.Sorted)
    (h : c.documents = .ok docs) : docs.Sorted := by
  have hkeys := keys_decodeEntries (documents_eq_ok h)
  have hsorted : (c.stored.entries.map Prod.fst).Pairwise fun a b => compare a b = .lt :=
    List.pairwise_map.2 hc
  rw [← hkeys] at hsorted
  exact List.pairwise_map.1 hsorted

theorem find?_eq_none_of_document? {c : Collection} (h : c.Decodes) {id : Value}
    (hid : c.document? id = none) : c.stored.find? id = none := by
  cases hbytes : c.stored.find? id with
  | none => rfl
  | some bytes =>
    have hdecodes := h (id, bytes) (SortedMap.mem_of_find? hbytes)
    rw [document?, hbytes] at hid
    rw [show Document.decode? bytes = none from hid] at hdecodes
    cases hdecodes

/-! ## Changes -/

theorem applyChange_eq (c : Collection) (change : Value × Write) :
    c.applyChange change = { c with stored := c.stored.assign change.1 change.2.bytes? } := by
  obtain ⟨id, w⟩ := change
  cases w <;> rfl

theorem foldl_applyChange (c : Collection) (changes : Changes) :
    changes.foldl applyChange c =
      { c with stored := c.stored.reviseAll (fun _ w => w.bytes?) changes } := by
  induction changes generalizing c with
  | nil => rfl
  | cons change rest ih =>
    rw [List.foldl_cons, applyChange_eq, ih]
    rfl

/-- Applying writes stores what showing them shows. -/
theorem document?_foldl_applyChange (c : Collection) {changes : Changes}
    (hchanges : (SortedMap.mk changes).Sorted) :
    (changes.foldl applyChange c).document? = Writes.shownOver changes c.document? := by
  funext id
  rw [foldl_applyChange, document?, Writes.shownOver]
  simp only [SortedMap.find?_reviseAll _ _ hchanges]
  cases SortedMap.findIn? id changes <;> rfl

theorem Decodes.foldl_applyChange {c : Collection} (h : c.Decodes) (hsorted : c.stored.Sorted)
    {changes : Changes} (hchanges : (SortedMap.mk changes).Sorted) (hdecode : Writes.Decode changes) :
    (changes.foldl applyChange c).Decodes := by
  rw [Collection.foldl_applyChange]
  intro e he
  have hfind := (hsorted.reviseAll _ _).find?_eq_some_iff.2 he
  rw [SortedMap.find?_reviseAll _ _ hchanges] at hfind
  cases hw : SortedMap.findIn? e.1 changes with
  | none =>
    rw [hw] at hfind
    exact h e (SortedMap.mem_of_find? hfind)
  | some w =>
    rw [hw] at hfind
    exact hdecode (e.1, w) (SortedMap.mem_of_findIn? hw) e.2 hfind

theorem decode_of_foldl_applyChange {c : Collection} {changes : Changes}
    (hchanges : (SortedMap.mk changes).Sorted) (h : (changes.foldl applyChange c).Decodes) :
    Writes.Decode changes := by
  intro e he bytes hbytes
  have hw := SortedMap.findIn?_of_mem hchanges he
  rw [Collection.foldl_applyChange] at h
  refine h (e.1, bytes) (SortedMap.mem_of_find? ?_)
  show (c.stored.reviseAll (fun _ w => w.bytes?) changes).find? e.1 = some bytes
  rw [SortedMap.find?_reviseAll _ _ hchanges, hw]
  exact hbytes

/-! ## The invariant -/

structure Valid (c : Collection) : Prop where
  sorted : c.stored.Sorted
  written : ∀ id bytes, c.stored.find? id = some bytes → WrittenFor id bytes
  onId : ∃ rest, c.indexes = Index.onId :: rest
  names : (c.indexes.map Index.resolvedName).Nodup

theorem valid_empty : Valid {} where
  sorted := SortedMap.sorted_empty
  written _ _ h := by cases h
  onId := ⟨[], rfl⟩
  names := List.nodup_singleton _

theorem Valid.document? {c : Collection} (h : c.Valid) {id : Value} {d : Document}
    (hd : c.document? id = some d) : d.Ordered ∧ d.id? = some id := by
  obtain ⟨bytes, hbytes, hdecode⟩ := Option.bind_eq_some_iff.1 hd
  exact (h.written id bytes hbytes).of_decode? hdecode

theorem Valid.isUniqueSecondary {c : Collection} (h : c.Valid) {i : Index} (hi : i ∈ c.indexes)
    (hunique : i.unique = true) : i = Index.onId ∨ i.isUniqueSecondary = true := by
  obtain ⟨rest, hrest⟩ := h.onId
  have hnames := h.names
  rw [hrest] at hi hnames
  rcases List.mem_cons.1 hi with hi | hi
  · exact .inl hi
  · refine .inr ?_
    have hne : i.resolvedName ≠ Index.idName := fun heq =>
      (List.nodup_cons.1 hnames).1 (List.mem_map.2 ⟨i, hi, heq⟩)
    simp [Index.isUniqueSecondary, hunique, hne]

theorem Valid.uniqueIn_iff {c : Collection} (h : c.Valid) {document? : Value → Option Document}
    (hid : ∀ id d, document? id = some d → d.id? = some id) :
    UniqueIn c.indexes document? ↔ SecondaryUniqueIn c.indexes document? := by
  refine ⟨UniqueIn.secondary, fun hsecondary i hi hunique => ?_⟩
  rcases h.isUniqueSecondary hi hunique with rfl | hi'
  · exact Index.separates_onId hid
  · exact hsecondary i hi hi'

theorem Valid.foldl_applyChange {c : Collection} (h : c.Valid) {changes : Changes}
    (hchanges : ValidChanges changes) : (changes.foldl applyChange c).Valid := by
  rw [Collection.foldl_applyChange]
  refine ⟨h.sorted.reviseAll _ _, fun id bytes hbytes => ?_, h.onId, h.names⟩
  rw [SortedMap.find?_reviseAll _ _ hchanges.sorted] at hbytes
  cases hw : SortedMap.findIn? id changes with
  | none =>
    rw [hw] at hbytes
    exact h.written id bytes hbytes
  | some w =>
    rw [hw] at hbytes
    exact hchanges.written (id, w) (SortedMap.mem_of_findIn? hw) bytes hbytes

theorem Valid.own_of_overlay {c : Collection} (hc : c.Valid) {writes : Writes}
    (hwrites : ValidChanges writes.entries) {loaded docs : Documents}
    (hloaded : c.documents = .ok loaded) (hdocs : writes.overlay loaded = .ok docs) {id : Value}
    {d : Document} (hd : docs.find? id = some d) : d.Ordered ∧ d.id? = some id := by
  rw [Writes.find?_overlay hwrites.sorted hdocs, find?_documents hloaded,
    Writes.shownOver] at hd
  cases hw : SortedMap.findIn? id writes.entries with
  | none =>
    rw [hw] at hd
    exact hc.document? hd
  | some w =>
    rw [hw] at hd
    obtain ⟨bytes, hbytes, hdecode⟩ := Option.bind_eq_some_iff.1 hd
    exact (hwrites.written (id, w) (SortedMap.mem_of_findIn? hw) bytes hbytes).of_decode? hdecode

/-! ## Indexes -/

theorem index?_eq_none_iff {c : Collection} {name : String} :
    c.index? name = none ↔ name ∉ c.indexes.map Index.resolvedName := by
  rw [index?, List.find?_eq_none, List.mem_map]
  simp

theorem addIndex_of_found {c : Collection} {ns : Namespace} {i found : Index} {writes : Writes}
    {r : String × Collection} (hfound : c.index? i.resolvedName = some found)
    (h : c.addIndex ns i writes = .ok r) : r = (i.resolvedName, c) := by
  rw [addIndex, hfound] at h
  simp only at h
  split at h <;> cases h
  rfl

theorem Valid.addIndex_eq_ok_iff {c : Collection} (h : c.Valid) (ns : Namespace) {i : Index}
    {writes : Writes} {r : String × Collection} (hnew : c.index? i.resolvedName = none) :
    c.addIndex ns i writes = .ok r ↔
      r = (i.resolvedName, { c with indexes := c.indexes ++ [i.named] }) ∧
        (i.unique = true → ∃ docs docs', c.documents = .ok docs ∧ writes.overlay docs = .ok docs' ∧
          i.Separates docs'.find?) := by
  have hadd : c.addIndex ns i writes =
      if i.unique = true then do
        let docs ← c.documents
        let docs ← writes.overlay docs
        checkUniqueIndexes ns [i.named] docs.values
        .ok (i.resolvedName, { c with indexes := c.indexes ++ [i.named] })
      else .ok (i.resolvedName, { c with indexes := c.indexes ++ [i.named] }) := by
    rw [addIndex, hnew]
    rfl
  rw [hadd]
  by_cases hunique : i.unique = true
  · have hsecondary : i.named.isUniqueSecondary = true := by
      obtain ⟨rest, hrest⟩ := h.onId
      have hname : i.resolvedName ≠ Index.idName := fun heq => by
        rw [index?_eq_none_iff, hrest, heq] at hnew
        exact hnew List.mem_cons_self
      rw [Index.isUniqueSecondary, Index.resolvedName_named, Index.unique_named, hunique]
      simpa using hname
    rw [if_pos hunique]
    constructor
    · intro hr
      obtain ⟨docs, hdocs, hr⟩ := bind_eq_ok.1 hr
      obtain ⟨docs', hover, hr⟩ := bind_eq_ok.1 hr
      obtain ⟨_, hcheck, hr⟩ := bind_eq_ok.1 hr
      cases hr
      have hsorted := Writes.sorted_overlay (sorted_documents h.sorted hdocs) hover
      have hseparates := (ScopedStore.checkUniqueIndexes_eq_ok_iff hsorted).1 hcheck
      exact ⟨rfl, fun _ => ⟨docs, docs', hdocs, hover,
        hseparates i.named List.mem_cons_self hsecondary⟩⟩
    · rintro ⟨rfl, hdocs⟩
      obtain ⟨docs, docs', hdocs, hover, hseparates⟩ := hdocs hunique
      have hsorted := Writes.sorted_overlay (sorted_documents h.sorted hdocs) hover
      have hcheck : checkUniqueIndexes ns [i.named] docs'.values = .ok () := by
        refine (ScopedStore.checkUniqueIndexes_eq_ok_iff hsorted).2 fun j hj _ => ?_
        rw [List.mem_singleton.1 hj]
        exact hseparates
      rw [hdocs, ok_bind, hover, ok_bind, hcheck, ok_bind]
  · simp [hunique, eq_comm]

theorem Valid.addIndex {c : Collection} (h : c.Valid) {ns : Namespace} {i : Index}
    {writes : Writes} {r : String × Collection} (hadd : c.addIndex ns i writes = .ok r) :
    r.2.Valid ∧ r.2.stored = c.stored := by
  cases hfound : c.index? i.resolvedName with
  | some found =>
    rw [addIndex_of_found hfound hadd]
    exact ⟨h, rfl⟩
  | none =>
    obtain ⟨rfl, -⟩ := (h.addIndex_eq_ok_iff ns hfound).1 hadd
    obtain ⟨rest, hrest⟩ := h.onId
    refine ⟨⟨h.sorted, h.written, ⟨rest ++ [i.named], by simp [hrest]⟩, ?_⟩, rfl⟩
    rw [List.map_append, List.map_singleton, Index.resolvedName_named]
    exact List.nodup_append_comm.1
      (List.nodup_cons.2 ⟨index?_eq_none_iff.1 hfound, h.names⟩)

theorem removeIndex_eq_ok {c c' : Collection} {name : String} (h : c.removeIndex name = .ok c') :
    name ≠ Index.idName ∧
      c' = { c with indexes := c.indexes.filter fun i => i.resolvedName != name } := by
  rw [removeIndex] at h
  split at h
  · cases h
  · rename_i hname
    split at h <;> cases h
    exact ⟨hname, rfl⟩

theorem Valid.removeIndex {c c' : Collection} (h : c.Valid) {name : String}
    (hremove : c.removeIndex name = .ok c') : c'.Valid := by
  obtain ⟨hname, rfl⟩ := removeIndex_eq_ok hremove
  obtain ⟨rest, hrest⟩ := h.onId
  refine ⟨h.sorted, h.written, ⟨rest.filter fun i => i.resolvedName != name, ?_⟩, ?_⟩
  · have hkept : (Index.onId.resolvedName != name) = true := by simpa using fun h => hname h.symm
    simp only [hrest, List.filter_cons, hkept, if_true]
  · exact h.names.sublist (List.Sublist.map _ List.filter_sublist)

end Collection

end ScopedStore
