import Mathlib.Data.List.Nodup
import Mathlib.Data.List.ProdSigma
import ScopedStore.Proofs.Cbor.Faithful
import ScopedStore.Proofs.Decimal
import ScopedStore.Proofs.Operation
import ScopedStore.Proofs.Store.Net
import ScopedStore.Stress

/-!
# The documents of a plan

Each operation of a plan has its place: a worker, a scope and a number in the scope. Its document is
identified by the text of the three numbers, so no two places share an identifier (`Place.id_inj`). A worker
finds its own documents by its number, which is kept as a signed word and is still its own there
(`Place.accepts_own`). A map that lists the documents of some places (`Lists`) therefore holds as many documents
of a worker as there are places of it.
-/

namespace ScopedStore

namespace Stress

/-! ## Places -/

/-- An operation of a plan. -/
structure Place where
  worker : Nat
  scope : Nat
  operation : Nat
deriving DecidableEq

def Place.id (p : Place) : Value :=
  .text (toString p.worker ++ "-" ++ toString p.scope ++ "-" ++ toString p.operation)

def Place.document (p : Place) : Document := Stress.document p.worker p.scope p.operation

def Place.bytes (p : Place) : Bytes := p.document.encode

def Place.insertion (p : Place) : Write := .insert p.bytes

def own (worker : Nat) : Filter := .eq "thread" (.ofInt worker)

/-- The sizes of a plan are words of the machine. -/
structure Plan.Fits (plan : Plan) : Prop where
  workers : plan.workers < Cbor.argumentBound
  scopes : plan.scopes < Cbor.argumentBound
  operations : plan.operations < Cbor.argumentBound

structure Place.Within (plan : Plan) (p : Place) : Prop where
  worker : p.worker < plan.workers
  scope : p.scope < plan.scopes
  operation : p.operation < plan.operations

namespace Place

/-! ## Identifiers -/

/-- A text is cut at its first dash. -/
theorem eq_of_dash {l l' rest rest' : List Char} (hl : '-' ∉ l) (hl' : '-' ∉ l')
    (h : l ++ '-' :: rest = l' ++ '-' :: rest') : l = l' ∧ rest = rest' := by
  induction l generalizing l' with
  | nil =>
    cases l' with
    | nil => exact ⟨rfl, List.tail_eq_of_cons_eq h⟩
    | cons c l' => exact absurd (List.head_eq_of_cons_eq h ▸ List.mem_cons_self) hl'
  | cons c l ih =>
    cases l' with
    | nil => exact absurd (List.head_eq_of_cons_eq h ▸ List.mem_cons_self) hl
    | cons c' l' =>
      obtain ⟨rfl, htail⟩ := List.cons_eq_cons.1 h
      obtain ⟨rfl, hrest⟩ := ih (fun hmem => hl (List.mem_cons_of_mem _ hmem))
        (fun hmem => hl' (List.mem_cons_of_mem _ hmem)) htail
      exact ⟨rfl, hrest⟩

/-- No digit is a dash, so the three numbers are read off the text. -/
theorem id_inj {p q : Place} (h : p.id = q.id) : p = q := by
  have hdash := Decimal.dash_notMem_toDigits
  obtain ⟨worker, scope, operation⟩ := p
  obtain ⟨worker', scope', operation'⟩ := q
  have hchars := congrArg String.toList (Value.text.inj h)
  simp only [String.toList_append, List.append_assoc, Decimal.toList_toString,
    show "-".toList = ['-'] from rfl, List.singleton_append] at hchars
  obtain ⟨hworker, hrest⟩ := eq_of_dash (hdash worker) (hdash worker') hchars
  obtain ⟨hscope, hoperation⟩ := eq_of_dash (hdash scope) (hdash scope') hrest
  rw [Decimal.toDigits_inj hworker, Decimal.toDigits_inj hscope, Decimal.toDigits_inj hoperation]

/-! ## Documents -/

theorem document_eq (p : Place) :
    p.document = ⟨[(Document.idField, p.id), ("thread", .ofInt p.worker)]⟩ := by
  have hafter : compare "thread" Document.idField = .gt := by decide
  unfold document Stress.document SortedMap.ofList
  simp only [List.foldl_cons, List.foldl_nil, SortedMap.insert, SortedMap.empty, SortedMap.insertEntry]
  rw [hafter]
  rfl

theorem id?_document (p : Place) : p.document.id? = some p.id := by
  rw [document_eq]
  exact if_pos Std.ReflCmp.compare_self

theorem ordered_document (p : Place) : p.document.Ordered := by
  rw [document_eq]
  exact Document.ordered_pair (by decide) trivial trivial

theorem length_utf8_le (s : String) : (Cbor.utf8 s).length ≤ 4 * s.length := by
  have hbytes : Cbor.utf8 s = s.toList.flatMap String.utf8EncodeChar := by
    show s.toByteArray.data.toList = _
    rw [← String.utf8Encode_toList]
    simp [List.utf8Encode]
  rw [hbytes, ← String.length_toList]
  induction s.toList with
  | nil => exact Nat.le_refl _
  | cons c rest ih =>
    have hchar := c.utf8Size_le_four
    rw [List.flatMap_cons, List.length_append, String.length_utf8EncodeChar, List.length_cons]
    omega

theorem length_toDigits_le {n : Nat} (h : n < Cbor.argumentBound) : (Nat.toDigits 10 n).length ≤ 20 :=
  (Nat.length_toDigits_le_iff (by decide) (by decide)).2 (Nat.lt_trans h (by decide))

theorem decode?_bytes {plan : Plan} (hfits : plan.Fits) {p : Place} (hp : p.Within plan) :
    Document.decode? p.bytes = some p.document := by
  have hworker := length_toDigits_le (Nat.lt_trans hp.worker hfits.workers)
  have hscope := length_toDigits_le (Nat.lt_trans hp.scope hfits.scopes)
  have hoperation := length_toDigits_le (Nat.lt_trans hp.operation hfits.operations)
  let name := toString p.worker ++ "-" ++ toString p.scope ++ "-" ++ toString p.operation
  have hlength : name.length ≤ 62 := by
    rw [← String.length_toList]
    simp only [name, String.toList_append, List.length_append, Decimal.toList_toString,
      show "-".toList = ['-'] from rfl, List.length_singleton]
    omega
  have hname : (Cbor.utf8 name).length < Cbor.argumentBound := by
    refine Nat.lt_of_le_of_lt (length_utf8_le name) (Nat.lt_of_le_of_lt (Nat.mul_le_mul_left 4 hlength) ?_)
    decide
  have hreadable : p.document.isReadable = true := by
    have hfields : (Cbor.utf8 Document.idField).length < Cbor.argumentBound ∧
        (Cbor.utf8 "thread").length < Cbor.argumentBound := by decide
    have hsized : p.id.isSized = true := decide_eq_true hname
    rw [document_eq, Document.isReadable, Value.isReadable, Bool.and_eq_true]
    refine ⟨decide_eq_true (by decide : 2 + max 1 (max 1 0) ≤ Cbor.depthLimit + 1), ?_⟩
    simp only [Value.isSized, Value.isSizedFields, Value.ofInt, hsized, hfields, List.length_cons,
      List.length_nil, Bool.and_true, decide_true]
    exact decide_eq_true (by decide)
  rw [bytes, Document.decode?_encode p.ordered_document, if_pos hreadable]

theorem ofInt_inj {m n : Nat} (hm : m < Cbor.argumentBound) (hn : n < Cbor.argumentBound)
    (h : Value.ofInt m = Value.ofInt n) : m = n := by
  have hword := congrArg Int64.toInt (Value.integer.inj h)
  rw [Int64.toInt_ofInt, Int64.toInt_ofInt] at hword
  have hmod := congrArg (· % (Int64.size : Int)) hword
  simp only [Int.bmod_emod] at hmod
  have hsize : (Int64.size : Int) = (Cbor.argumentBound : Nat) := rfl
  rw [hsize] at hmod
  rw [Int.emod_eq_of_lt (Int.natCast_nonneg m) (Int.ofNat_lt.2 hm),
    Int.emod_eq_of_lt (Int.natCast_nonneg n) (Int.ofNat_lt.2 hn)] at hmod
  exact Int.ofNat.inj hmod

theorem accepts_own {plan : Plan} (hfits : plan.Fits) {p : Place} (hp : p.worker < plan.workers)
    {worker : Nat} (hworker : worker < plan.workers) :
    (own worker).accepts p.document = true ↔ p.worker = worker := by
  have hpath : Path.ofString "thread" = ["thread"] := by decide
  have hfield : p.document.getPath? "thread" = some (.ofInt p.worker) := by
    have hfind : p.document.find? "thread" = some (.ofInt p.worker) := by
      have hne : ¬compare "thread" Document.idField = .eq := by decide
      rw [document_eq]
      exact (if_neg hne).trans (if_pos Std.ReflCmp.compare_self)
    rw [Document.getPath?, hpath]
    show (p.document.find? "thread").bind some = _
    rw [hfind]
    rfl
  unfold own Filter.accepts Filter.fieldEquals
  rw [hfield]
  constructor
  · intro haccepts
    by_contra hne
    have hvalue : Value.ofInt p.worker ≠ Value.ofInt worker := fun hsame =>
      hne (ofInt_inj (Nat.lt_trans hp hfits.workers) (Nat.lt_trans hworker hfits.workers) hsame)
    dsimp only at haccepts
    rw [if_neg hvalue] at haccepts
    cases haccepts
  · rintro rfl
    exact if_pos rfl

end Place

/-! ## Listing places -/

/-- The map binds the identifiers of these places and no others, each to what belongs to its place. -/
def Lists {α : Type} (m : SortedMap Value α) (content : Place → α) (held : Place → Prop) : Prop :=
  ∀ id x, m.find? id = some x ↔ ∃ p, held p ∧ p.id = id ∧ content p = x

variable {α : Type} {m : SortedMap Value α} {content : Place → α} {held held' : Place → Prop}

theorem Lists.congr (h : Lists m content held) (hheld : ∀ p, held' p ↔ held p) :
    Lists m content held' := by
  intro id x
  simp only [hheld]
  exact h id x

theorem lists_empty (content : Place → α) : Lists ∅ content fun _ => False := fun _ _ =>
  ⟨nofun, fun ⟨_, hnone, _⟩ => hnone.elim⟩

theorem Lists.find?_id (h : Lists m content held) {p : Place} (hp : held p) :
    m.find? p.id = some (content p) :=
  (h _ _).2 ⟨p, hp, rfl, rfl⟩

theorem Lists.find?_id_eq_none (h : Lists m content held) {p : Place} (hp : ¬held p) :
    m.find? p.id = none := by
  cases hfind : m.find? p.id with
  | none => rfl
  | some x =>
    obtain ⟨q, hq, hid, -⟩ := (h _ _).1 hfind
    exact absurd (Place.id_inj hid ▸ hq) hp

theorem Lists.insert (h : Lists m content held) (p : Place) :
    Lists (m.insert p.id (content p)) content fun q => held q ∨ q = p := by
  intro id x
  by_cases hid : id = p.id
  · rw [hid, SortedMap.find?_insert_self]
    constructor
    · intro hx
      exact ⟨p, .inr rfl, rfl, Option.some.inj hx⟩
    · rintro ⟨q, -, hq, rfl⟩
      rw [Place.id_inj hq]
  · rw [SortedMap.find?_insert_of_ne _ _ hid, h id x]
    constructor
    · rintro ⟨q, hq, hrest⟩
      exact ⟨q, .inl hq, hrest⟩
    · rintro ⟨q, hq | rfl, hqid, hrest⟩
      · exact ⟨q, hq, hqid, hrest⟩
      · exact absurd hqid.symm hid

/-! ### Stored documents and buffered insertions -/

section Stored

variable {stored : SortedMap Value Bytes} {writes : Writes} {buffered : Place → Prop}

theorem Lists.written (hstored : Lists stored Place.bytes held) (hwrites : Lists writes Place.insertion buffered)
    (hsorted : writes.Sorted) :
    Lists (Changes.written writes.entries stored) Place.bytes fun p => held p ∨ buffered p := by
  intro id bytes
  have hinserted : SortedMap.findIn? id writes.entries = writes.find? id := rfl
  rw [Changes.find?_written hsorted, hinserted]
  cases hwrite : writes.find? id with
  | none =>
    rw [Option.elim_none, hstored]
    constructor
    · rintro ⟨p, hp, hrest⟩
      exact ⟨p, .inl hp, hrest⟩
    · rintro ⟨p, hp | hp, rfl, hrest⟩
      · exact ⟨p, hp, rfl, hrest⟩
      · cases hwrite.symm.trans (hwrites.find?_id hp)
  | some w =>
    obtain ⟨p, hp, rfl, rfl⟩ := (hwrites _ _).1 hwrite
    constructor
    · intro hbytes
      exact ⟨p, .inr hp, rfl, Option.some.inj hbytes⟩
    · rintro ⟨q, -, hid, rfl⟩
      rw [Place.id_inj hid]
      rfl

theorem Lists.shown (hstored : Lists stored Place.bytes held) (hwrites : Lists writes Place.insertion buffered)
    (hread : ∀ p, held p ∨ buffered p → Document.decode? p.bytes = some p.document) {docs : Documents}
    (hdocs : docs.find? =
      Writes.shownOver writes.entries fun id => (stored.find? id).bind Document.decode?) :
    Lists docs Place.document fun p => held p ∨ buffered p := by
  intro id d
  have hinserted : SortedMap.findIn? id writes.entries = writes.find? id := rfl
  rw [hdocs, Writes.shownOver, hinserted]
  -- the place that is found under the identifier is the only one that may be there
  have hsame {p : Place} (hp : held p ∨ buffered p) (hid : p.id = id) :
      Document.decode? p.bytes = some d ↔ ∃ q, (held q ∨ buffered q) ∧ q.id = id ∧ q.document = d := by
    rw [hread p hp]
    constructor
    · intro hd
      exact ⟨p, hp, hid, Option.some.inj hd⟩
    · rintro ⟨q, -, hq, rfl⟩
      rw [Place.id_inj (hq.trans hid.symm)]
  cases hwrite : writes.find? id with
  | some w =>
    obtain ⟨p, hp, hid, rfl⟩ := (hwrites _ _).1 hwrite
    have hbytes : p.insertion.bytes? = some p.bytes := rfl
    rw [Option.elim_some, Write.document?, hbytes, Option.bind_some]
    exact hsame (.inr hp) hid
  | none =>
    rw [Option.elim_none]
    cases hbytes : stored.find? id with
    | some bytes =>
      obtain ⟨p, hp, hid, rfl⟩ := (hstored _ _).1 hbytes
      rw [Option.bind_some]
      exact hsame (.inl hp) hid
    | none =>
      rw [Option.bind_none]
      refine iff_of_false (Option.some_ne_none d).symm ?_
      rintro ⟨p, hp | hp, rfl, -⟩
      · cases hbytes.symm.trans (hstored.find?_id hp)
      · cases hwrite.symm.trans (hwrites.find?_id hp)

theorem Lists.decode (hwrites : Lists writes Place.insertion buffered) (hsorted : writes.Sorted)
    (hread : ∀ p, buffered p → Document.decode? p.bytes = some p.document) :
    Writes.Decode writes.entries := by
  intro e he bytes hbytes
  obtain ⟨p, hp, -, hinsertion⟩ := (hwrites _ _).1 (hsorted.find?_eq_some_iff.2 he)
  rw [← hinsertion] at hbytes
  obtain rfl := Option.some.inj hbytes
  rw [hread p hp]
  rfl

theorem Lists.decodes {c : Collection} (hstored : Lists c.stored Place.bytes held) (hsorted : c.stored.Sorted)
    (hread : ∀ p, held p → Document.decode? p.bytes = some p.document) : c.Decodes := by
  intro e he
  obtain ⟨p, hp, -, hbytes⟩ := (hstored _ _).1 (hsorted.find?_eq_some_iff.2 he)
  rw [← hbytes, hread p hp]
  rfl

theorem Lists.record {pending : Pending} {ns : Namespace}
    (hwrites : Lists (pending.writesOf ns) Place.insertion buffered) {p : Place} (hp : ¬buffered p) :
    Lists ((pending.record ns [(p.id, p.insertion)]).writesOf ns) Place.insertion fun q => buffered q ∨ q = p := by
  have hrecorded : (pending.record ns [(p.id, p.insertion)]).writesOf ns =
      (pending.writesOf ns).insert p.id p.insertion := by
    rw [Pending.writesOf_record]
    show (pending.writesOf ns).assign p.id (Write.merge ((pending.writesOf ns).find? p.id) p.insertion) = _
    rw [hwrites.find?_id_eq_none hp]
    rfl
  rw [hrecorded]
  exact hwrites.insert p

end Stored

/-! ### Counting -/

theorem length_matching {v : View} (hdocs : v.docs.Sorted) (h : Lists v.docs Place.document held)
    {f : Filter} {l : List Place} (hnodup : l.Nodup)
    (hl : ∀ p, p ∈ l ↔ held p ∧ f.accepts p.document = true) : (v.matching f).length = l.length := by
  have hentries : v.docs.entries.Nodup := List.Pairwise.imp (fun hlt heq => by simp [heq] at hlt) hdocs
  have hperm : (v.docs.entries.filter fun e => f.accepts e.2).Perm (l.map fun p => (p.id, p.document)) := by
    refine (List.perm_ext_iff_of_nodup (hentries.filter _) (hnodup.map_on fun p _ q _ hpq => ?_)).2
      fun e => ?_
    · exact Place.id_inj (congrArg Prod.fst hpq)
    · rw [List.mem_filter, List.mem_map, ← hdocs.find?_eq_some_iff, h]
      constructor
      · rintro ⟨⟨p, hp, hid, hdocument⟩, haccepts⟩
        exact ⟨p, (hl p).2 ⟨hp, hdocument ▸ haccepts⟩, Prod.ext hid hdocument⟩
      · rintro ⟨p, hp, rfl⟩
        obtain ⟨hplace, haccepts⟩ := (hl p).1 hp
        exact ⟨⟨p, hplace, rfl, rfl⟩, haccepts⟩
  have hlength := hperm.length_eq
  rw [List.length_map] at hlength
  rw [← hlength, View.matching, View.documents, SortedMap.values, List.filter_map, List.length_map]
  rfl

/-! ## Counting places -/

def placesOf (worker scopes operations : Nat) : List Place :=
  (List.range scopes ×ˢ List.range operations).map fun e => ⟨worker, e.1, e.2⟩

theorem mem_placesOf {worker scopes operations : Nat} {p : Place} :
    p ∈ placesOf worker scopes operations ↔
      p.worker = worker ∧ p.scope < scopes ∧ p.operation < operations := by
  obtain ⟨worker', scope, operation⟩ := p
  unfold placesOf
  rw [List.mem_map]
  constructor
  · rintro ⟨⟨a, b⟩, hmem, heq⟩
    cases heq
    rw [List.mem_product, List.mem_range, List.mem_range] at hmem
    exact ⟨rfl, hmem⟩
  · rintro ⟨rfl, hscope, hoperation⟩
    exact ⟨(scope, operation), List.mem_product.2 ⟨List.mem_range.2 hscope, List.mem_range.2 hoperation⟩,
      rfl⟩

theorem nodup_placesOf (worker scopes operations : Nat) : (placesOf worker scopes operations).Nodup :=
  (List.nodup_range.product List.nodup_range).map_on fun _ _ _ _ heq => by
    injection heq with _ hscope hoperation
    exact Prod.ext hscope hoperation

theorem length_placesOf (worker scopes operations : Nat) :
    (placesOf worker scopes operations).length = scopes * operations := by
  rw [placesOf, List.length_map, List.length_product, List.length_range, List.length_range]

def Plan.places (plan : Plan) : List Place :=
  (List.range plan.workers).flatMap fun worker => placesOf worker plan.scopes plan.operations

theorem Plan.mem_places {plan : Plan} {p : Place} : p ∈ plan.places ↔ p.Within plan := by
  unfold Plan.places
  rw [List.mem_flatMap]
  constructor
  · rintro ⟨worker, hworker, hp⟩
    obtain ⟨rfl, hscope, hoperation⟩ := mem_placesOf.1 hp
    exact ⟨List.mem_range.1 hworker, hscope, hoperation⟩
  · intro hp
    exact ⟨p.worker, List.mem_range.2 hp.worker, mem_placesOf.2 ⟨rfl, hp.scope, hp.operation⟩⟩

theorem Plan.nodup_places (plan : Plan) : plan.places.Nodup := by
  refine List.nodup_flatMap.2 ⟨fun worker _ => nodup_placesOf worker _ _, ?_⟩
  refine List.nodup_range.imp fun {a b} hne p ha hb => hne ?_
  rw [← (mem_placesOf.1 ha).1, (mem_placesOf.1 hb).1]

theorem Plan.length_places (plan : Plan) :
    plan.places.length = plan.workers * (plan.scopes * plan.operations) := by
  unfold Plan.places
  induction plan.workers with
  | zero => rw [List.range_zero, List.flatMap_nil, Nat.zero_mul]; rfl
  | succ n ih =>
    rw [List.range_succ, List.flatMap_append, List.length_append, ih, List.flatMap_singleton,
      length_placesOf, Nat.succ_mul]

end Stress

end ScopedStore
