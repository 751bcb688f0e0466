import ScopedStore.Fixture
import ScopedStore.Proofs.Client.Readability
import ScopedStore.Proofs.Client.Selection
import ScopedStore.Proofs.Index
import ScopedStore.Proofs.Scope.System
import ScopedStore.Proofs.Snapshot

/-!
# Snapshots identify contents

A reading of committed documents only counts (`committedDocuments_eq`), so whatever is read before, a
collection is read alike. Its documents come sorted by identifiers, which is the order that they stand
in, so two collections read alike exactly if all their documents decode and the same are committed in
both (`contents_eq_iff`). A snapshot stands for one list of documents only; hence texts, documents and
comparisons tell the same collections apart, as long as the documents can be read at all
(`snapshots_identify_contents_iff`).
-/

namespace ScopedStore

namespace Client

variable {c c' : Client} {h h' : Handle}

/-! ## The contents of a collection -/

/-- What a search through a handle finds that leaves nothing out and sorts by identifiers. -/
def contents (c : Client) (h : Handle) : Except StoreError (List Document) :=
  (c.viewOf .plain h.ns).map fun v =>
    sortDocuments [(Document.idField, .ascending)] (v.matching (h.narrow.and .all))

theorem perform_find_contents (c : Client) (h : Handle) :
    c.perform .plain
        (.documents h (.find .all { sort := [(Document.idField, .ascending)] })) =
      ((c.contents h).map .documents, c.countOperation .plain) := by
  rw [perform_of_isRead rfl, contents]
  show ((c.viewOf .plain h.ns >>= fun v => _), _) = _
  cases c.viewOf .plain h.ns <;> rfl

theorem contents_countOperation (c : Client) (h : Handle) :
    (c.countOperation .plain).contents h = c.contents h := rfl

theorem sortDocuments_byId {entries : List (Value × Document)}
    (hascending : entries.Pairwise fun a b => compare a.1 b.1 = .lt)
    (hown : ∀ e ∈ entries, e.2.id? = some e.1) :
    sortDocuments [(Document.idField, .ascending)] (entries.map Prod.snd) = entries.map Prod.snd := by
  refine List.mergeSort_of_pairwise (List.pairwise_map.2 ?_)
  refine hascending.imp_of_mem fun {a b} ha hb hlt => ?_
  have hid {e : Value × Document} (he : e ∈ entries) : e.2.pathOrNull Document.idField = e.1 := by
    have hkey := Index.keyOf_onId e.2
    rw [hown e he] at hkey
    exact (List.cons.inj hkey).1
  have hcmp : compareBy [(Document.idField, .ascending)] a.2 b.2 = .lt := by
    rw [compareBy, compareBy, SortKey.cmp, hid ha, hid hb]
    rw [Ordering.then_eq]
    exact hlt
  rw [hcmp]
  rfl

theorem eq_of_ascending {entries entries' : List (Value × Document)}
    (h : entries.Pairwise fun a b => compare a.1 b.1 = .lt)
    (h' : entries'.Pairwise fun a b => compare a.1 b.1 = .lt)
    (hmem : ∀ id d, (id, d) ∈ entries ↔ (id, d) ∈ entries') : entries = entries' := by
  have hsorted : (SortedMap.mk entries).Sorted := h
  have hsorted' : (SortedMap.mk entries').Sorted := h'
  refine congrArg SortedMap.entries (SortedMap.ext_find? hsorted hsorted' fun id => ?_)
  refine Option.ext fun d => ?_
  rw [hsorted.find?_eq_some_iff, hsorted'.find?_eq_some_iff]
  exact hmem id d

theorem exists_contents (hc : c.Valid) (hdecodes : (c.catalog.collection h.ns).Decodes) :
    ∃ found, c.Finds .plain h .all found ∧ (∀ e ∈ found, e.2.id? = some e.1) ∧
      c.contents h = .ok (found.map Prod.snd) := by
  have hwrites : c.writesOf .plain h.ns = ∅ := rfl
  obtain ⟨v, hview⟩ : ∃ v, c.viewOf .plain h.ns = .ok v :=
    View.load_isOk_iff.2 ⟨hdecodes, hwrites ▸ Writes.decode_empty⟩
  have hv := View.valid_load (hc.catalog.collection h.ns) (hc.writesOf .plain h.ns) hview
  have hown : ∀ e ∈ v.found (h.narrow.and .all), e.2.id? = some e.1 := fun e he =>
    (hv.own e.1 e.2 (hv.mem_found_iff.1 he).1).2
  refine ⟨v.found (h.narrow.and .all), finds_of_viewOf hc hview .all, hown, ?_⟩
  have hsorted := sortDocuments_byId (hv.ascending_found _) hown
  rw [← View.matching_eq] at hsorted ⊢
  rw [contents, hview]
  exact congrArg Except.ok hsorted

theorem decodes_of_contents {docs : List Document} (hdocs : c.contents h = .ok docs) :
    (c.catalog.collection h.ns).Decodes := by
  obtain ⟨v, hview, -⟩ := map_eq_ok.1 hdocs
  exact (View.load_isOk_iff.1 ⟨v, hview⟩).1

theorem contents_eq_undecodable (h' : ¬(c.catalog.collection h.ns).Decodes) :
    c.contents h = .error .undecodable := by
  have hview : c.viewOf .plain h.ns = .error .undecodable :=
    View.load_eq_undecodable_iff.2 fun hdecodes => h' hdecodes.1
  rw [contents, hview]
  rfl

/-- Two collections read alike if all their documents decode and the same are committed in both. -/
theorem contents_eq_iff (hc : c.Valid) (hc' : c'.Valid) :
    (∃ docs, c.contents h = .ok docs ∧ c'.contents h' = .ok docs) ↔
      (c.catalog.collection h.ns).Decodes ∧ (c'.catalog.collection h'.ns).Decodes ∧
        ∀ id d, c.Matches .plain h .all id d ↔ c'.Matches .plain h' .all id d := by
  constructor
  · rintro ⟨docs, hdocs, hdocs'⟩
    have hdecodes := decodes_of_contents hdocs
    have hdecodes' := decodes_of_contents hdocs'
    obtain ⟨found, hfound, hown, hcontents⟩ := exists_contents hc hdecodes
    obtain ⟨found', hfound', hown', hcontents'⟩ := exists_contents hc' hdecodes'
    have hsame : found.map Prod.snd = found'.map Prod.snd := by
      rw [hcontents, Except.ok.injEq] at hdocs
      rw [hcontents', Except.ok.injEq] at hdocs'
      rw [hdocs, hdocs']
    have hentry {entries : List (Value × Document)} (hown : ∀ e ∈ entries, e.2.id? = some e.1)
        (id : Value) (d : Document) :
        (id, d) ∈ entries ↔ d ∈ entries.map Prod.snd ∧ d.id? = some id := by
      constructor
      · exact fun hmem => ⟨List.mem_map_of_mem hmem, hown _ hmem⟩
      · rintro ⟨hmem, hid⟩
        obtain ⟨e, he, rfl⟩ := List.mem_map.1 hmem
        rw [hown e he, Option.some.injEq] at hid
        rwa [← hid]
    refine ⟨hdecodes, hdecodes', fun id d => ?_⟩
    rw [← hfound.mem_iff, ← hfound'.mem_iff, hentry hown, hentry hown', hsame]
  · rintro ⟨hdecodes, hdecodes', hmatches⟩
    obtain ⟨found, hfound, -, hcontents⟩ := exists_contents hc hdecodes
    obtain ⟨found', hfound', -, hcontents'⟩ := exists_contents hc' hdecodes'
    have hsame : found = found' := eq_of_ascending hfound.ascending hfound'.ascending fun id d => by
      rw [hfound.mem_iff, hfound'.mem_iff, hmatches]
    exact ⟨_, hcontents, hsame ▸ hcontents'⟩

end Client

namespace System

variable {sys : System} {a b : CollectionRef}

/-! ## Reading without a trace -/

def contents (sys : System) (c : CollectionRef) : Except TxError (List Document) :=
  ((sys.client c.client).contents c.handle).mapError .store

def counted (sys : System) (c : CollectionRef) : System :=
  sys.setClient c.client ((sys.client c.client).countOperation .plain)

theorem committedDocuments_eq (sys : System) (c : CollectionRef) :
    sys.committedDocuments c = (sys.contents c, sys.counted c) := by
  have hperform := Client.perform_find_contents (sys.client c.client) c.handle
  rw [committedDocuments, request, callerOn, onClient_eq hperform, contents]
  cases (sys.client c.client).contents c.handle <;> rfl

theorem contents_counted (sys : System) (c c' : CollectionRef) :
    (sys.counted c).contents c' = sys.contents c' := by
  rw [contents, contents, counted]
  by_cases hclient : c'.client = c.client
  · rw [hclient]
    by_cases hlt : c.client < sys.clients.length
    · rw [client_setClient_self hlt, Client.contents_countOperation]
    · rw [setClient, List.set_eq_of_length_le (Nat.le_of_not_lt hlt)]
  · rw [client_setClient_of_ne hclient]

theorem snapshotOf_eq (sys : System) (c : CollectionRef) :
    sys.snapshotOf c = ((sys.contents c).map Snapshot.render, sys.counted c) := by
  rw [snapshotOf, committedDocuments_eq]
  cases sys.contents c <;> rfl

theorem sameContentsOf_iff (sys : System) (a b : CollectionRef) :
    (sys.sameContentsOf a b).1 = true ↔
      ∃ docs, sys.contents a = .ok docs ∧ sys.contents b = .ok docs := by
  rw [sameContentsOf, committedDocuments_eq]
  cases hleft : sys.contents a with
  | error e => simp
  | ok left =>
    simp only [committedDocuments_eq, contents_counted]
    cases hright : sys.contents b with
    | error e => simp
    | ok right =>
      by_cases hsame : left = right
      · simp [hsame]
      · simp [hsame, Ne.symm hsame]

/-! ## Snapshots -/

/-- A document is committed in a collection, and its handle accepts it. -/
def Commits (sys : System) (c : CollectionRef) (id : Value) (d : Document) : Prop :=
  (sys.client c.client).Matches .plain c.handle .all id d

def Readable (sys : System) (c : CollectionRef) : Prop :=
  ((sys.client c.client).catalog.collection c.handle.ns).Decodes

/-- Whether snapshots identify contents. Two collections have one text exactly if their documents can be
read and are the same, which is exactly if their comparison passes, whatever is read before. So for
clients that are reachable, one text, the same committed documents and a comparison that passes are one
thing, if and only if it is not the case that the same documents are committed in both and one of them
cannot be read: then there is no text, and the comparison fails. -/
theorem snapshots_identify_contents_iff (sys : System) (a b : CollectionRef) :
    let text (c : CollectionRef) := (sys.snapshotOf c).1
    let documents (c : CollectionRef) := (sys.committedDocuments c).1
    let oneText := ∃ t, text a = .ok t ∧ text b = .ok t
    let sameRead := ∃ docs, documents a = .ok docs ∧ documents b = .ok docs
    let passes := (sys.sameContentsOf a b).1 = true
    let same := ∀ id d, sys.Commits a id d ↔ sys.Commits b id d
    (∀ c c', ((sys.snapshotOf c).2.snapshotOf c').1 = text c') ∧
    (oneText ↔ sameRead) ∧ (passes ↔ sameRead) ∧
    ((sys.client a.client).Reachable → (sys.client b.client).Reachable →
      (sameRead ↔ sys.Readable a ∧ sys.Readable b ∧ same) ∧
      (((oneText ↔ same) ∧ (same ↔ passes)) ↔
        ¬(same ∧ ¬(sys.Readable a ∧ sys.Readable b)))) := by
  intro text documents oneText sameRead passes same
  have hdocuments (c : CollectionRef) : documents c = sys.contents c :=
    congrArg Prod.fst (sys.committedDocuments_eq c)
  have htext (c : CollectionRef) : text c = (sys.contents c).map Snapshot.render :=
    congrArg Prod.fst (sys.snapshotOf_eq c)
  have honeText : oneText ↔ sameRead := by
    simp only [oneText, sameRead, hdocuments, htext]
    constructor
    · rintro ⟨t, ha, hb⟩
      obtain ⟨docs, hdocs, rfl⟩ := map_eq_ok.1 ha
      obtain ⟨docs', hdocs', hrender⟩ := map_eq_ok.1 hb
      exact ⟨docs, hdocs, Snapshot.render_injective hrender ▸ hdocs'⟩
    · rintro ⟨docs, ha, hb⟩
      exact ⟨Snapshot.render docs, map_eq_ok.2 ⟨docs, ha, rfl⟩, map_eq_ok.2 ⟨docs, hb, rfl⟩⟩
  have hpasses : passes ↔ sameRead := by
    simp only [passes, sameRead, hdocuments]
    exact sys.sameContentsOf_iff a b
  refine ⟨fun c c' => ?_, honeText, hpasses, fun ha hb => ?_⟩
  · rw [htext, snapshotOf_eq, snapshotOf_eq, contents_counted]
  · have hread : sameRead ↔ sys.Readable a ∧ sys.Readable b ∧ same := by
      simp only [sameRead, hdocuments, contents, mapError_eq_ok]
      exact Client.contents_eq_iff ha.valid hb.valid
    refine ⟨hread, ?_⟩
    rw [honeText, hpasses, hread, not_and_not_right]
    constructor
    · intro hone hsame
      obtain ⟨hreada, hreadb, -⟩ := hone.1.2 hsame
      exact ⟨hreada, hreadb⟩
    · intro h
      have hiff : (sys.Readable a ∧ sys.Readable b ∧ same) ↔ same :=
        ⟨fun hall => hall.2.2, fun hsame => ⟨(h hsame).1, (h hsame).2, hsame⟩⟩
      exact ⟨hiff, hiff.symm⟩

/-! ## Shelves -/

def labelled (id : Int64) (label : Value) : Document := ⟨[("_id", .integer id), ("label", label)]⟩

def shelf (name : String) : CollectionRef := ⟨0, { ns := ⟨"library", name⟩ }⟩

/-- Of three shelves two have the same label, and the third one has its text. -/
def shelfRun : List Event :=
  [.request .plain (.documents (shelf "left").handle (.insertOne (labelled 1 .null))),
    .request .plain (.documents (shelf "right").handle (.insertOne (labelled 1 (.text "Null")))),
    .request .plain (.documents (shelf "copy").handle (.insertOne (labelled 1 .null)))]

def library (events : List Event) : System := { clients := [(Client.fresh true 0).run events] }

theorem snapshots_identify_contents_iff_shelves :
    let sys := library shelfRun
    (sys.client 0).Reachable ∧ sys.Readable (shelf "left") ∧ sys.Readable (shelf "copy") ∧
      (∃ t, (sys.snapshotOf (shelf "left")).1 = .ok t ∧ (sys.snapshotOf (shelf "copy")).1 = .ok t) ∧
      (∀ id d, sys.Commits (shelf "left") id d ↔ sys.Commits (shelf "copy") id d) ∧
      ¬∃ t, (sys.snapshotOf (shelf "left")).1 = .ok t ∧ (sys.snapshotOf (shelf "right")).1 = .ok t := by
  intro sys
  have hordered (id : Int64) {label : Value} (hlabel : label.Ordered) : (labelled id label).Ordered :=
    Document.ordered_pair (by decide) trivial hlabel
  have hreachable : (sys.client 0).Reachable := by
    refine ⟨true, 0, shelfRun, fun e he => ?_, rfl⟩
    simp only [shelfRun, List.mem_cons, List.not_mem_nil, or_false] at he
    rcases he with rfl | rfl | rfl <;> exact ⟨trivial, hordered 1 trivial⟩
  have hcopy : (sys.sameContentsOf (shelf "left") (shelf "copy")).1 = true := by decide +kernel
  have hright : (sys.sameContentsOf (shelf "left") (shelf "right")).1 ≠ true := by decide +kernel
  obtain ⟨-, htext, hpasses, hsame⟩ := snapshots_identify_contents_iff sys (shelf "left") (shelf "copy")
  obtain ⟨-, htext', hpasses', -⟩ := snapshots_identify_contents_iff sys (shelf "left") (shelf "right")
  obtain ⟨hleft, hcopied, hcommits⟩ := (hsame hreachable hreachable).1.1 (hpasses.1 hcopy)
  exact ⟨hreachable, hleft, hcopied, htext.2 (hpasses.1 hcopy), hcommits,
    fun h => hright (hpasses'.2 (htext'.1 h))⟩

/-- The same document that is nested too deeply stands on two shelves, there is no text of either, and
their comparison fails. -/
theorem sameContents_fails_of_buried :
    let sys := library (Client.burial (shelf "left").handle.ns ++ Client.burial (shelf "right").handle.ns)
    (sys.client 0).Reachable ∧
      (∀ name, name = "left" ∨ name = "right" →
        ((sys.client 0).catalog.collection (shelf name).handle.ns).stored.entries =
          [(.integer 1, (Client.buried 128).encode)] ∧
        (sys.snapshotOf (shelf name)).1 = .error (.store .undecodable)) ∧
      (∀ id d, sys.Commits (shelf "left") id d ↔ sys.Commits (shelf "right") id d) ∧
      (sys.sameContentsOf (shelf "left") (shelf "right")).1 = false := by
  intro sys
  have hstored (name : String) (hname : name = "left" ∨ name = "right") :
      ((sys.client 0).catalog.collection (shelf name).handle.ns).stored.entries =
        [(.integer 1, (Client.buried 128).encode)] := by
    rcases hname with rfl | rfl <;> rfl
  have hunreadable (name : String) (hname : name = "left" ∨ name = "right") :
      sys.contents (shelf name) = .error (.store .undecodable) := by
    refine congrArg (Except.mapError TxError.store) (Client.contents_eq_undecodable fun hdecodes => ?_)
    have hmem : (.integer 1, (Client.buried 128).encode) ∈
        ((sys.client 0).catalog.collection (shelf name).handle.ns).stored.entries := by
      rw [hstored name hname]
      exact List.mem_singleton_self _
    have hdecode := hdecodes _ hmem
    rw [Document.decode?_encode (Client.ordered_buried 128), Client.isReadable_buried] at hdecode
    cases hdecode
  refine ⟨⟨true, 0, _, fun e he => ?_, rfl⟩, fun name hname => ⟨hstored name hname, ?_⟩,
    fun id d => ?_, ?_⟩
  · rcases List.mem_append.1 he with he | he <;> exact Client.ordered_burial _ e he
  · rw [snapshotOf_eq, hunreadable name hname]
    rfl
  · have hkept (name : String) (hname : name = "left" ∨ name = "right") :
        (sys.client (shelf name).client).kept? .plain (shelf name).handle.ns id =
          SortedMap.findIn? id [(.integer 1, (Client.buried 128).encode)] :=
      congrArg (SortedMap.findIn? id) (hstored name hname)
    exact and_congr_left' (and_congr_right' (by rw [hkept _ (.inl rfl), hkept _ (.inr rfl)]))
  · rw [← Bool.not_eq_true, sameContentsOf_iff, hunreadable _ (.inl rfl)]
    exact nofun

end System

end ScopedStore
