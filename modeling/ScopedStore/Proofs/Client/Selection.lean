import ScopedStore.Proofs.Client.Aftermath
import ScopedStore.Proofs.Selection

/-!
# Updates and deletions do what their filter says

An update changes each document that matched before the call by itself, and leaves every other one; a
deletion removes just these. On the side of the caller a removed document is gone, unless the removal only
takes back what the caller's own transaction had inserted: then what is stored shows again
(`writes_exactly`).
-/

namespace ScopedStore

namespace Client

variable {c c' : Client} {caller : Caller} {h : Handle} {f : Filter} {ns : Namespace}
  {locked : Option (SessionId × Session)} {targets : List (Value × Document)} {v v' : View}

/-- A caller holds a document under an identifier, and a handle and a filter accept it. -/
def Matches (c : Client) (caller : Caller) (h : Handle) (f : Filter) (id : Value) (d : Document) :
    Prop :=
  c.Holds caller h.ns id d ∧ h.narrow.accepts d = true ∧ f.accepts d = true

/-- The documents that match, with their identifiers in ascending order. -/
structure Finds (c : Client) (caller : Caller) (h : Handle) (f : Filter)
    (found : List (Value × Document)) : Prop where
  ascending : found.Pairwise fun a b => compare a.1 b.1 = .lt
  mem_iff : ∀ id d, (id, d) ∈ found ↔ c.Matches caller h f id d

/-- Between two clients just the listed documents were updated, and the reply says how many were listed
and how many of them their update changes. -/
structure Updates (c c' : Client) (caller : Caller) (ns : Namespace) (u : Update)
    (targets : List (Value × Document)) (reply : Reply) : Prop where
  updated : ∀ e ∈ targets, ∃ d, u.apply e.2 = .ok d ∧ c'.Holds caller ns e.1 d
  others : ∀ id, (∀ e ∈ targets, e.1 ≠ id) → c'.kept? caller ns id = c.kept? caller ns id
  ids : ∀ id, (c'.kept? caller ns id).isSome = (c.kept? caller ns id).isSome
  reply : reply = .updated
    { matched := targets.length
      modified := (targets.filter fun e => u.apply e.2 ≠ .ok e.2).length }

/-- Between two clients just the listed documents were removed, and the reply says how many. Where the
caller's transaction had inserted a document, nothing is left but what is stored. -/
structure Deletes (c c' : Client) (caller : Caller) (ns : Namespace)
    (targets : List (Value × Document)) (reply : Reply) : Prop where
  deleted : ∀ e ∈ targets, (∀ bytes, (c.writesOf caller ns).find? e.1 ≠ some (.insert bytes)) →
    c'.kept? caller ns e.1 = none
  undone : ∀ e ∈ targets, ∀ bytes, (c.writesOf caller ns).find? e.1 = some (.insert bytes) →
    c'.kept? caller ns e.1 = (c.catalog.collection ns).stored.find? e.1
  others : ∀ id, (∀ e ∈ targets, e.1 ≠ id) → c'.kept? caller ns id = c.kept? caller ns id
  reply : reply = .deleted targets.length

theorem finds_of_viewOf (hc : c.Valid) (hview : c.viewOf caller h.ns = .ok v) (f : Filter) :
    c.Finds caller h f (v.found (h.narrow.and f)) := by
  have hv := View.valid_load (hc.catalog.collection h.ns) (hc.writesOf caller h.ns) hview
  refine ⟨hv.ascending_found _, fun id d => ?_⟩
  rw [hv.mem_found_iff, find?_iff_holds hc hview, Filter.accepts_and, Bool.and_eq_true, Matches]

/-! ## From the view to the client -/

section HandedOn

variable (hc : c.Valid) (hlock : c.lock caller = .ok locked) (hview : c.viewOf caller ns = .ok v)
  (hsteps : v.Steps v')
  (hhanded : (c.countOperation caller).handOn locked ns v' = (.ok (), c'))
  (hothers : ∀ id, (∀ e ∈ targets, e.1 ≠ id) → v'.docs.find? id = v.docs.find? id)
include hc hlock hview hsteps hhanded hothers

theorem updates_of_handOn {u : Update}
    (hstand : ∀ e ∈ targets, v.docs.find? e.1 = some e.2)
    (hupdated : ∀ e ∈ targets, ∃ d, u.apply e.2 = .ok d ∧ v'.docs.find? e.1 = some d) :
    c.Updates c' caller ns u targets (.updated
      { matched := targets.length
        modified := (targets.filter fun e => u.apply e.2 ≠ .ok e.2).length }) := by
  have hkept (id : Value) (hid : ∀ e ∈ targets, e.1 ≠ id) :
      c'.kept? caller ns id = c.kept? caller ns id :=
    kept?_of_unchanged hc hview hsteps hlock hhanded (hothers id hid)
  have hholds (e : Value × Document) (he : e ∈ targets) :
      ∃ d, u.apply e.2 = .ok d ∧ c'.Holds caller ns e.1 d := by
    obtain ⟨d, hd, hfind⟩ := hupdated e he
    exact ⟨d, hd, holds_of_handOn hc hview hsteps hlock hhanded hfind⟩
  refine ⟨hholds, hkept, fun id => ?_, rfl⟩
  by_cases hid : ∃ e ∈ targets, e.1 = id
  · obtain ⟨e, he, rfl⟩ := hid
    obtain ⟨d, -, hafter⟩ := hholds e he
    rw [hafter.2, ((find?_iff_holds hc hview).1 (hstand e he)).2]
    rfl
  · rw [hkept id fun e he heq => hid ⟨e, he, heq⟩]

theorem deletes_of_handOn (hdeleted : ∀ e ∈ targets, v'.docs.find? e.1 = none) :
    c.Deletes c' caller ns targets (.deleted targets.length) := by
  refine ⟨fun e he hstored => ?_, fun e he bytes hinsert => ?_, fun id hid => ?_, rfl⟩
  · rcases kept?_of_handOn hc hview hsteps hlock hhanded e.1 with
      ⟨⟨⟨bytes, hinsert⟩, -⟩, -⟩ | ⟨-, hkept⟩
    · exact absurd hinsert (hstored bytes)
    · rw [hkept, hdeleted e he, Option.map_none]
  · rcases kept?_of_handOn hc hview hsteps hlock hhanded e.1 with ⟨-, hkept⟩ | ⟨hshown, -⟩
    · exact hkept
    · exact absurd ⟨⟨bytes, hinsert⟩, hdeleted e he⟩ hshown
  · exact kept?_of_unchanged hc hview hsteps hlock hhanded (hothers id hid)

end HandedOn

/-! ## The operations -/

section Operations

variable (hc : c.Valid) {reply : Reply} (multi : Bool)
include hc

theorem updates_of_ok (hnarrow : h.narrow.Ordered) (hf : f.Ordered) {u : Update} (hu : u.Ordered)
    (hrun : c.perform caller (.documents h
      (if multi then .updateMany f u false else .updateOne f u false)) = (.ok reply, c')) :
    ∃ found, c.Finds caller h f found ∧
      c.Updates c' caller h.ns u (View.taken multi found) reply := by
  obtain ⟨locked, v, v', -, hlock, hview, hop, hhanded⟩ := exists_handOn_of_ok hrun
  have hv := View.valid_load (hc.catalog.collection h.ns) (hc.writesOf caller h.ns) hview
  have hsteps : v.Steps v' := by
    refine DocumentOp.steps hnarrow ?_ hv hop
    cases multi <;> exact ⟨hf, hu⟩
  have hupdate : ∃ r, v.update (h.narrow.and f) u false multi = .ok (r, v') ∧
      reply = .updated r := by
    cases multi <;>
    · obtain ⟨⟨r, v₁⟩, hr, hop⟩ := bind_eq_ok.1 hop
      cases hop
      exact ⟨r, hr, rfl⟩
  obtain ⟨r, hr, rfl⟩ := hupdate
  obtain ⟨hupdated, hothers, rfl⟩ := hv.update_spec hr
  exact ⟨_, finds_of_viewOf hc hview f, updates_of_handOn hc hlock hview hsteps hhanded hothers
    (hv.stand multi (h.narrow.and f)).stand hupdated⟩

omit hc in
theorem run_delete (hv : v.Valid) :
    (if multi then DocumentOp.deleteMany f else .deleteOne f).run h.narrow v =
      .ok (.deleted (View.taken multi (v.found (h.narrow.and f))).length,
        (View.deleteEach ((View.taken multi (v.found (h.narrow.and f))).map Prod.fst) v).2) := by
  obtain ⟨hcount, -⟩ := View.deleteEach_spec (hv.stand multi (h.narrow.and f))
  rw [← hcount, ← hv.deleteMatching_eq]
  cases multi <;> rfl

theorem deletes_of_ok (hnarrow : h.narrow.Ordered) (hf : f.Ordered)
    (hrun : c.perform caller (.documents h
      (if multi then .deleteMany f else .deleteOne f)) = (.ok reply, c')) :
    ∃ found, c.Finds caller h f found ∧
      c.Deletes c' caller h.ns (View.taken multi found) reply := by
  obtain ⟨locked, v, v', -, hlock, hview, hop, hhanded⟩ := exists_handOn_of_ok hrun
  have hv := View.valid_load (hc.catalog.collection h.ns) (hc.writesOf caller h.ns) hview
  have hsteps : v.Steps v' := by
    refine DocumentOp.steps hnarrow ?_ hv hop
    cases multi <;> exact hf
  obtain ⟨-, hdeleted, hothers⟩ := View.deleteEach_spec (hv.stand multi (h.narrow.and f))
  rw [run_delete multi hv, Except.ok.injEq, Prod.mk.injEq] at hop
  obtain ⟨rfl, rfl⟩ := hop
  exact ⟨_, finds_of_viewOf hc hview f, deletes_of_handOn hc hlock hview hsteps hhanded hothers
    hdeleted⟩

theorem delete_succeeds (hlock : c.lock caller = .ok locked) (hview : c.viewOf caller h.ns = .ok v)
    (hplace : c.autoCreate = true ∨ (c.catalog.collection? h.ns).isSome) :
    ∃ reply, (c.perform caller (.documents h
      (if multi then .deleteMany f else .deleteOne f))).1 = .ok reply := by
  have hv := View.valid_load (hc.catalog.collection h.ns) (hc.writesOf caller h.ns) hview
  have hcheck : (if multi then DocumentOp.deleteMany f else .deleteOne f).check = .ok () := by
    cases multi <;> rfl
  rw [perform_eq hcheck hlock hview, run_delete multi hv, deliver]
  obtain ⟨c', hhanded⟩ := exists_handOn (c.countOperation caller) locked (by simpa using hplace)
    (View.deleteEach ((View.taken multi (v.found (h.narrow.and f))).map Prod.fst) v).2
  rw [hhanded]
  exact ⟨_, rfl⟩

end Operations

/-- An update of many documents that succeeds turns each document which its filter and its handle accept
before the call into what the update makes of it, leaves every other document and every identifier, and
counts the accepted documents and those that change; an update of one document does so with the first of
them by identifier. A deletion removes just these documents and counts them; it succeeds wherever its
caller has a view and the collection exists or may be made. -/
theorem writes_exactly {c : Client} (hc : c.Reachable) (caller : Caller) {h : Handle}
    (hnarrow : h.narrow.Ordered) {f : Filter} (hf : f.Ordered) {u : Update} (hu : u.Ordered)
    (multi : Bool) :
    let updating := c.perform caller (.documents h
      (if multi then .updateMany f u false else .updateOne f u false))
    let deleting := c.perform caller (.documents h
      (if multi then .deleteMany f else .deleteOne f))
    (∀ reply, updating.1 = .ok reply → ∃ found, c.Finds caller h f found ∧
        c.Updates updating.2 caller h.ns u (View.taken multi found) reply) ∧
      (∀ reply, deleting.1 = .ok reply → ∃ found, c.Finds caller h f found ∧
        c.Deletes deleting.2 caller h.ns (View.taken multi found) reply) ∧
      ∀ locked v, c.lock caller = .ok locked → c.viewOf caller h.ns = .ok v →
        c.autoCreate = true ∨ (c.catalog.collection? h.ns).isSome →
        ∃ reply, deleting.1 = .ok reply := by
  intro updating deleting
  refine ⟨fun reply hreply => ?_, fun reply hreply => ?_, fun locked v hlock hview hplace => ?_⟩
  · exact updates_of_ok hc.valid multi hnarrow hf hu (Prod.ext hreply rfl)
  · exact deletes_of_ok hc.valid multi hnarrow hf (Prod.ext hreply rfl)
  · exact delete_succeeds hc.valid multi hlock hview hplace

/-! ## Raising some entries -/

/-- A handle that reaches the entries with a small amount. -/
def smallEntries : Handle := { ns := ledger, narrow := .range .below "amount" (.integer 35) }

def raise : Update := ⟨[.increment "amount" 5]⟩

theorem ordered_raise : raise.Ordered := Update.ordered_single trivial

theorem writes_exactly_smallEntries :
    let c := (fresh true 0).run ledgerRun
    let updating := c.perform .plain (.documents smallEntries (.updateMany .all raise false))
    let deleting := c.perform .plain (.documents smallEntries (.deleteMany .all))
    c.Reachable ∧
      (∃ found, c.Finds .plain smallEntries .all found ∧
        c.Updates updating.2 .plain ledger raise found (.updated { matched := 2, modified := 2 })) ∧
      ∃ found, c.Finds .plain smallEntries .all found ∧
        c.Deletes deleting.2 .plain ledger found (.deleted 2) := by
  obtain ⟨hupdates, hdeletes, -⟩ :=
    writes_exactly reachable_ledgerRun .plain (h := smallEntries) trivial (f := .all) trivial
      ordered_raise true
  exact ⟨reachable_ledgerRun, hupdates _ rfl, hdeletes _ rfl⟩

end Client

end ScopedStore
