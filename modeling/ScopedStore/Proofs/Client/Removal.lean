import ScopedStore.Proofs.Client.Upsert
import ScopedStore.Proofs.Lens

/-!
# When an unset field is gone

Removing a field follows its path through documents only, looking it up goes through arrays, too. So a field that
an update removes last is gone exactly if the operators before it do not lead to a document in which the path
reads a value inside an array (`unset_removes_iff`).

An update of many documents leaves each document that matched as the update makes it, and inserts the updated
seed where it is an upsert and nothing matched (`Outcome`, `outcome_of_updateMany`). Where it removes a field
from all of these, the filter that asked for the documents with this field finds none.
-/

namespace ScopedStore

open Document (idField)

variable {d d' : Document} {path : String} {ops : List UpdateOp}

/-! ## One document -/

namespace Document

/-- The path reads an item of an array, or something inside an item. -/
def ReadsInArray (d : Document) (path : String) : Prop :=
  (d.getPath? path).isSome ∧ (Value.document d).ThroughArray (Path.ofString path)

instance (d : Document) (path : String) : Decidable (d.ReadsInArray path) :=
  inferInstanceAs (Decidable (_ ∧ _))

theorem getPath?_removePath_eq_none_iff :
    (d.removePath path).getPath? path = none ↔ ¬d.ReadsInArray path := by
  rw [getPath?, removePath, at?_removeAt_self (Path.ofString_ne_nil path), ← getPath?, ReadsInArray]
  split <;> simp_all

theorem getPath?_withId {id : Value} (hpath : path ≠ idField) (hid : d.id? = none → ∃ s, id = .text s) :
    (d.withId id).getPath? path = d.getPath? path := by
  rw [withId]
  split
  · rfl
  · rename_i hnone
    rw [Option.not_isSome_iff_eq_none] at hnone
    obtain ⟨s, rfl⟩ := hid hnone
    rw [getPath?, getPath?]
    obtain ⟨t, p, hsegments⟩ := List.exists_cons_of_ne_nil (Path.ofString_ne_nil path)
    rw [hsegments]
    by_cases ht : t = idField
    · subst ht
      have hp : p ≠ [] := by
        rintro rfl
        exact hpath (Path.ofString_eq_single hsegments)
      obtain ⟨t, p, rfl⟩ := List.exists_cons_of_ne_nil hp
      rw [at?_insert_self, at?_cons, ← id?, hnone]
      rfl
    · exact at?_insert_of_ne d _ ht p

end Document

namespace Update

/-- The operators apply, and lead to a document in which the path reads inside an array. -/
def LeadsIntoArray (ops : List UpdateOp) (path : String) (d : Document) : Prop :=
  ∃ d₁, (Update.mk ops).apply d = .ok d₁ ∧ d₁.ReadsInArray path

instance (ops : List UpdateOp) (path : String) (d : Document) : Decidable (LeadsIntoArray ops path d) :=
  match h : (Update.mk ops).apply d with
  | .ok d₁ => decidable_of_iff (d₁.ReadsInArray path) (by simp [LeadsIntoArray, h])
  | .error e => isFalse (by simp [LeadsIntoArray, h])

theorem ne_idField_of_unset (h : (Update.mk (ops ++ [.unset path])).apply d = .ok d') :
    path ≠ idField := by
  obtain ⟨d₁, -, hunset⟩ := apply_concat_eq_ok_iff.1 h
  rintro rfl
  simp [UpdateOp.apply] at hunset

/-- A field that an update removes last is gone unless it is read inside an array before. -/
theorem getPath?_unset_eq_none_iff (h : (Update.mk (ops ++ [.unset path])).apply d = .ok d') :
    d'.getPath? path = none ↔ ¬LeadsIntoArray ops path d := by
  have hpath := ne_idField_of_unset h
  obtain ⟨d₁, hd₁, hunset⟩ := apply_concat_eq_ok_iff.1 h
  rw [UpdateOp.apply, if_neg hpath, Except.ok.injEq] at hunset
  subst hunset
  rw [Document.getPath?_removePath_eq_none_iff, not_iff_not]
  constructor
  · exact fun hreads => ⟨d₁, hd₁, hreads⟩
  · rintro ⟨d₂, hd₂, hreads⟩
    cases hd₁.symm.trans hd₂
    exact hreads

end Update

theorem Filter.accepts_present_eq_false_iff :
    (Filter.present path true).accepts d = false ↔ d.getPath? path = none := by
  rw [Filter.accepts, beq_eq_false_iff_ne, ne_eq, Bool.not_eq_true, Option.isSome_eq_false_iff,
    Option.isNone_iff_eq_none]

/-! ## All documents that match -/

namespace Client

variable {c c' : Client} {caller : Caller} {h : Handle} {f : Filter} {u : Update} {upsert : Bool}
  {reply : Reply} {id : Value}

/-- What a caller holds under an identifier after an update of many documents: what it held, where no match
was; what the update makes of a match; or the updated seed that an upsert has inserted. -/
inductive Outcome (c c' : Client) (caller : Caller) (h : Handle) (f : Filter) (u : Update) (upsert : Bool)
    (id : Value) : Prop
  | kept (hmissed : ∀ d, ¬c.Matches caller h f id d)
      (hkept : c'.kept? caller h.ns id = c.kept? caller h.ns id)
  | updated {d d' : Document} (hmatch : c.Matches caller h f id d) (happly : u.apply d = .ok d')
      (hholds : c'.Holds caller h.ns id d')
  | inserted {d' : Document} (hupsert : upsert = true) (hmissed : ∀ id d, ¬c.Matches caller h f id d)
      (happly : u.apply (h.narrow.and f).seed = .ok d') (hid : d'.id? = none → ∃ s, id = .text s)
      (hholds : c'.Holds caller h.ns id (d'.withId id))

section UpdateMany

variable (hc : c.Valid) (hnarrow : h.narrow.Ordered) (hf : f.Ordered) (hu : u.Ordered)
  (hrun : c.perform caller (.documents h (.updateMany f u upsert)) = (.ok reply, c'))
include hc hnarrow hf hu hrun

theorem outcome_of_updateMany (id : Value) : c.Outcome c' caller h f u upsert id := by
  obtain ⟨locked, v, v', -, hlock, hview, hop, hhanded⟩ := exists_handOn_of_ok hrun
  have hv := View.valid_load (hc.catalog.collection h.ns) (hc.writesOf caller h.ns) hview
  have hordered : (DocumentOp.updateMany f u upsert).Ordered := ⟨hf, hu⟩
  have hsteps : v.Steps v' := DocumentOp.steps hnarrow hordered hv hop
  have hfinds := finds_of_viewOf hc hview f
  obtain ⟨⟨r, v₁⟩, hupdate, hop⟩ := bind_eq_ok.1 hop
  cases hop
  by_cases hinserts : upsert = true ∧ v.found (h.narrow.and f) = []
  · obtain ⟨rfl, hfound⟩ := hinserts
    have hmissed (id : Value) (d : Document) : ¬c.Matches caller h f id d := fun hmatch => by
      rw [hfound] at hfinds
      exact List.not_mem_nil ((hfinds.mem_iff id d).2 hmatch)
    obtain ⟨id', d, hd, hinsert, -⟩ := View.insert_of_missed hfound hupdate
    obtain ⟨-, -, -, -, seed, rfl⟩ := View.insert_spec hinsert
    by_cases hid : id = id'
    · subst hid
      refine .inserted rfl hmissed hd (View.text_of_insert hinsert) ?_
      exact holds_of_handOn hc hview hsteps hlock hhanded (SortedMap.find?_insert_self _ _ _)
    · refine .kept (hmissed id) (kept?_of_unchanged hc hview hsteps hlock hhanded ?_)
      exact SortedMap.find?_insert_of_ne _ _ hid
  · have hplain : v.update (h.narrow.and f) u false true = .ok (r, v') := by
      cases upsert with
      | false => exact hupdate
      | true =>
        rw [← View.update_of_found fun hfound => hinserts ⟨rfl, hfound⟩]
        exact hupdate
    obtain ⟨hupdated, hothers, -⟩ := hv.update_spec hplain
    by_cases htarget : ∃ e ∈ v.found (h.narrow.and f), e.1 = id
    · obtain ⟨e, he, rfl⟩ := htarget
      obtain ⟨d', hd', hfind⟩ := hupdated e he
      exact .updated ((hfinds.mem_iff e.1 e.2).1 he) hd'
        (holds_of_handOn hc hview hsteps hlock hhanded hfind)
    · refine .kept (fun d hmatch => htarget ⟨(id, d), (hfinds.mem_iff id d).2 hmatch, rfl⟩) ?_
      refine kept?_of_unchanged hc hview hsteps hlock hhanded (hothers id fun e he heq => ?_)
      exact htarget ⟨e, he, heq⟩

end UpdateMany

/-- The document that an update of many starts from somewhere: one that matches, or the seed, where nothing
matches and one is to be inserted. -/
def StartsFrom (c : Client) (caller : Caller) (h : Handle) (f : Filter) (upsert : Bool) (d : Document) :
    Prop :=
  (∃ id, c.Matches caller h f id d) ∨
    upsert = true ∧ (∀ id d, ¬c.Matches caller h f id d) ∧ d = (h.narrow.and f).seed

section Unset

variable (hc : c.Valid) (hnarrow : h.narrow.Ordered) (hf : f.Ordered)
  (hu : (Update.mk (ops ++ [.unset path])).Ordered)
  (hrun : c.perform caller (.documents h (.updateMany f ⟨ops ++ [.unset path]⟩ upsert)) =
    (.ok reply, c'))
include hc hnarrow hf hu hrun

theorem exists_holds_of_unset (hmatch : c.Matches caller h f id d) :
    ∃ d', c'.Holds caller h.ns id d' ∧
      (d'.getPath? path = none ↔ ¬Update.LeadsIntoArray ops path d) := by
  cases outcome_of_updateMany hc hnarrow hf hu hrun id with
  | kept hmissed hkept => exact absurd hmatch (hmissed d)
  | @updated d₀ d' hmatch₀ happly hholds =>
    obtain ⟨-, v, -, -, -, hview, -, -⟩ := exists_handOn_of_ok hrun
    have hfind := (find?_iff_holds hc hview).2 hmatch.1
    have hfind₀ := (find?_iff_holds hc hview).2 hmatch₀.1
    cases hfind.symm.trans hfind₀
    exact ⟨d', hholds, Update.getPath?_unset_eq_none_iff happly⟩
  | inserted hupsert hmissed => exact absurd hmatch (hmissed id d)

theorem count_of_unset (hpresent : f = .present path true)
    (hclear : ∀ d, c.StartsFrom caller h f upsert d → ¬Update.LeadsIntoArray ops path d) {n : Nat}
    (hcount : (c'.perform caller (.documents h (.count f))).1 = .ok (.count n)) : n = 0 := by
  obtain ⟨-, w, w', -, -, hview, hop, -⟩ := exists_handOn_of_ok (Prod.ext hcount rfl)
  cases hop
  have hc' : c'.Valid := by
    have hvalid := hc.perform caller (r := .documents h (.updateMany f ⟨ops ++ [.unset path]⟩ upsert))
      ⟨hnarrow, hf, hu⟩
    rwa [hrun] at hvalid
  have hgone {id : Value} {d' : Document} (hholds : c'.Holds caller h.ns id d')
      (hnone : d'.getPath? path = none) (d : Document) : ¬c'.Matches caller h f id d := by
    rintro ⟨hheld, -, haccepted⟩
    cases ((find?_iff_holds hc' hview).2 hholds).symm.trans ((find?_iff_holds hc' hview).2 hheld)
    rw [hpresent, Filter.accepts_present_eq_false_iff.2 hnone] at haccepted
    cases haccepted
  have hmissed (id : Value) (d : Document) : ¬c'.Matches caller h f id d := by
    cases outcome_of_updateMany hc hnarrow hf hu hrun id with
    | kept hmissed hkept =>
      rintro ⟨⟨hordered, hheld⟩, haccepted⟩
      exact hmissed d ⟨⟨hordered, hkept.symm.trans hheld⟩, haccepted⟩
    | updated hmatch happly hholds =>
      have hclear := hclear _ (.inl ⟨id, hmatch⟩)
      exact hgone hholds ((Update.getPath?_unset_eq_none_iff happly).2 hclear) d
    | inserted hupsert hnone happly hid hholds =>
      have hclear := hclear _ (.inr ⟨hupsert, hnone, rfl⟩)
      refine hgone hholds ?_ d
      rw [Document.getPath?_withId (Update.ne_idField_of_unset happly) hid]
      exact (Update.getPath?_unset_eq_none_iff happly).2 hclear
  have hfinds := finds_of_viewOf hc' hview f
  have hfound : w.found (h.narrow.and f) = [] :=
    List.eq_nil_iff_forall_not_mem.2 fun e he => hmissed e.1 e.2 ((hfinds.mem_iff e.1 e.2).1 he)
  rw [View.matching_of_nil hfound]
  rfl

end Unset

/-- Where the last operator of an update removes a field and all of them apply, the field reads nothing, and the
filter for documents with this field refuses the document, unless the operators before lead to a document in
which the path reads inside an array; then it reads there still. The same goes for each document that an update
of many has found. If no document from which it starts is led there, a count through the same handle of the
documents with the field gives none. -/
theorem unset_removes_iff (ops : List UpdateOp) (path : String) :
    (∀ d d', (Update.mk (ops ++ [.unset path])).apply d = .ok d' →
      (d'.getPath? path = none ↔ ¬Update.LeadsIntoArray ops path d) ∧
        ((Filter.present path true).accepts d' = false ↔ ¬Update.LeadsIntoArray ops path d)) ∧
      ∀ (c : Client) (caller : Caller) (h : Handle) (f : Filter) (upsert : Bool) (reply : Reply),
        c.Reachable → h.narrow.Ordered → f.Ordered → (Update.mk (ops ++ [.unset path])).Ordered →
        let updating := c.perform caller (.documents h (.updateMany f ⟨ops ++ [.unset path]⟩ upsert))
        updating.1 = .ok reply →
          (∀ id d, c.Matches caller h f id d → ∃ d', updating.2.Holds caller h.ns id d' ∧
            (d'.getPath? path = none ↔ ¬Update.LeadsIntoArray ops path d)) ∧
          (f = .present path true →
            (∀ d, c.StartsFrom caller h f upsert d → ¬Update.LeadsIntoArray ops path d) →
            ∀ n, (updating.2.perform caller (.documents h (.count f))).1 = .ok (.count n) → n = 0) := by
  refine ⟨fun d d' happly => ?_, fun c caller h f upsert reply hc hnarrow hf hu => ?_⟩
  · have hgone := Update.getPath?_unset_eq_none_iff happly
    exact ⟨hgone, Filter.accepts_present_eq_false_iff.trans hgone⟩
  · intro updating hreply
    have hrun : updating = (.ok reply, updating.2) := Prod.ext hreply rfl
    exact ⟨fun id d hmatch => exists_holds_of_unset hc.valid hnarrow hf hu hrun hmatch,
      fun hpresent hclear n hcount => count_of_unset hc.valid hnarrow hf hu hrun hpresent hclear hcount⟩

/-! ## Amounts and items -/

def lastRaise : List UpdateOp := [.increment "amount" 5]

theorem ordered_lastRaise : (Update.mk (lastRaise ++ [.unset "amount"])).Ordered := by
  intro op hop
  rcases List.mem_cons.1 hop with rfl | hop
  · trivial
  · rw [List.mem_singleton.1 hop]
    trivial

theorem not_leadsIntoArray_amount (ops : List UpdateOp) (d : Document) :
    ¬Update.LeadsIntoArray ops "amount" d := by
  rintro ⟨d₁, -, -, hthrough⟩
  rw [show Path.ofString "amount" = ["amount"] by decide +kernel] at hthrough
  exact Value.not_throughArray_single d₁ "amount" hthrough

theorem unset_removes_iff_ledgerRun :
    let c := (fresh true 0).run ledgerRun
    let updating := c.perform .plain (.documents { ns := ledger }
      (.updateMany (.present "amount" true) ⟨lastRaise ++ [.unset "amount"]⟩ false))
    c.Reachable ∧ updating.1 = .ok (.updated { matched := 3, modified := 3 }) ∧
      (Document.single idField (.integer 1)).getPath? "amount" = none ∧
      (∃ d', updating.2.Holds .plain ledger (.integer 1) d' ∧ d'.getPath? "amount" = none) ∧
      ∀ n, (updating.2.perform .plain (.documents { ns := ledger }
        (.count (.present "amount" true)))).1 = .ok (.count n) → n = 0 := by
  intro c updating
  obtain ⟨hone, hmany⟩ := unset_removes_iff lastRaise "amount"
  have hreply : updating.1 = .ok (.updated { matched := 3, modified := 3 }) := by decide +kernel
  have happly : (Update.mk (lastRaise ++ [.unset "amount"])).apply (entry 1 10) =
      .ok (Document.single idField (.integer 1)) := by decide +kernel
  have hmatch : c.Matches .plain { ns := ledger } (.present "amount" true) (.integer 1) (entry 1 10) :=
    ⟨⟨ordered_entry 1 10, by rfl⟩, rfl, by decide +kernel⟩
  obtain ⟨hmatched, hnone⟩ := hmany c .plain { ns := ledger } (.present "amount" true) false _
    reachable_ledgerRun trivial trivial ordered_lastRaise hreply
  obtain ⟨d', hholds, hgone⟩ := hmatched _ _ hmatch
  exact ⟨reachable_ledgerRun, hreply, (hone _ _ happly).1.2 (not_leadsIntoArray_amount _ _),
    ⟨d', hholds, hgone.2 (not_leadsIntoArray_amount _ _)⟩,
    hnone rfl fun d _ => not_leadsIntoArray_amount _ d⟩

def labelled : Document := ⟨[("_id", .integer 1), ("labels", .array [.text "new"])]⟩

example : Update.LeadsIntoArray [.push "labels" .null] "labels.1" labelled := by decide +kernel

/-- Removing an item of an array succeeds and leaves it, for a document as for all that match. -/
theorem item_stays_of_unset :
    let c := (fresh true 0).run [.request .plain (.documents { ns := ledger } (.insertOne labelled))]
    let updating := c.perform .plain (.documents { ns := ledger }
      (.updateMany (.present "labels.0" true) ⟨[.unset "labels.0"]⟩ false))
    (Update.mk [.unset "labels.0"]).apply labelled = .ok labelled ∧
      labelled.getPath? "labels.0" = some (.text "new") ∧
      (Filter.present "labels.0" true).accepts labelled = true ∧
      updating.1 = .ok (.updated { matched := 1 }) ∧
      (updating.2.perform .plain (.documents { ns := ledger }
        (.count (.present "labels.0" true)))).1 = .ok (.count 1) := by
  decide +kernel

end Client

end ScopedStore
