import ScopedStore.Proofs.Client.Upsert
import ScopedStore.Proofs.Identifier

/-!
# When an update keeps the identifier

Whether an update that succeeds keeps the identifier of a document, and whether an upsert inserts under the
identifier that its filter requires, is decided by the operators that reach the identifier, and by the
identifier alone (`update_keeps_id_iff`). Both fail where such an operator counts the identifier up, appends
to it or writes inside it (`id_lost_of_increment`).
-/

namespace ScopedStore

open Document (idField)

theorem Filter.id?_seed_of_mem {f : Filter} {id : Value} (hapart : TermsApart f.terms)
    (hid : (idField, id) ∈ f.terms) : f.seed.id? = some id := by
  have hmet := meets_seed hapart (idField, id) hid
  rw [Document.getPath?, Path.ofString_idField, Document.at?_cons] at hmet
  obtain ⟨v, hv, hid'⟩ := Option.bind_eq_some_iff.1 hmet
  cases hid'
  exact hv

namespace Client

variable {c : Client} {caller : Caller} {h : Handle} {f : Filter} {u : Update} {multi : Bool}

theorem id_of_upsert (hc : c.Valid) (hnarrow : h.narrow.Ordered) (hf : f.Ordered) (hu : u.Ordered)
    {id id' : Value} (hseed : (h.narrow.and f).seed.id? = some id) {r : UpdateReply}
    (hreply : (c.upsert caller h f u multi).1 = .ok (.updated r)) (hid' : r.upsertedId = some id') :
    u.idAfter? id = some id' ∧
      ∃ d, d.id? = some id' ∧ c.Inserts (c.upsert caller h f u multi).2 caller h f id' d := by
  obtain ⟨d, hd, hown, hinserts⟩ := inserts_of_upsert hc hnarrow hf hu hreply hid'
  have hafter := Update.id?_apply_eq hseed hd
  have hsome : d.id?.isSome := Update.isSome_id?_apply (by rw [hseed]; rfl) hd
  have hwith : d.withId id' = d := by rw [Document.withId, if_pos hsome]
  rw [hwith] at hown hinserts
  exact ⟨hafter.symm.trans hown, d, hown, hinserts⟩

/-- An update that succeeds on a document keeps its identifier exactly when the operators that reach the
identifier give it back by themselves, and an upsert whose filter requires an identifier inserts a document
with this one exactly then. They give it back whenever it is no integer, array or document, and whenever they
do nothing with it but set it. -/
theorem update_keeps_id_iff (u : Update) (id : Value) :
    (∀ d d', d.id? = some id → u.apply d = .ok d' → (d'.id? = some id ↔ u.KeepsId id)) ∧
      (∀ (c : Client) (caller : Caller) (h : Handle) (f : Filter) (multi : Bool) (r : UpdateReply)
        (id' : Value), c.Reachable → h.narrow.Ordered → f.Ordered → u.Ordered →
          (h.narrow.and f).seed.id? = some id →
          (c.upsert caller h f u multi).1 = .ok (.updated r) → r.upsertedId = some id' →
          (id' = id ↔ u.KeepsId id) ∧
            ∃ d, d.id? = some id' ∧ c.Inserts (c.upsert caller h f u multi).2 caller h f id' d) ∧
      (id.isFixed = true ∨ (∀ op ∈ u.ops, op.OnlySetsId) →
        ∀ d d', d.id? = some id → u.apply d = .ok d' → d'.id? = some id) := by
  refine ⟨?_, ?_, ?_⟩
  · intro d d' hid hd
    rw [Update.id?_apply_eq hid hd, Update.KeepsId]
  · intro c caller h f multi r id' hc hnarrow hf hu hseed hreply hid'
    obtain ⟨hafter, hinserts⟩ := id_of_upsert hc.valid hnarrow hf hu hseed hreply hid'
    refine ⟨?_, hinserts⟩
    rw [Update.KeepsId, hafter, Option.some.injEq]
  · intro hkept d d' hid hd
    exact Update.id?_apply_of_kept hkept hid hd

/-! ## An identifier that is counted up -/

def countId : Update := ⟨[.increment "_id" 1]⟩

theorem ordered_countId : countId.Ordered := Update.ordered_single trivial

theorem update_keeps_id_iff_ledgerRun :
    let c := (fresh true 0).run ledgerRun
    let once := (c.upsert .plain { ns := ledger } (.id (.integer 5)) countId false).2
    ((entry 6 10).id? = some (.integer 5) ↔ countId.KeepsId (.integer 5)) ∧
      (Value.integer 6 = .integer 5 ↔ countId.KeepsId (.integer 5)) ∧
      (∃ d, d.id? = some (.integer 6) ∧
        c.Inserts once .plain { ns := ledger } (.id (.integer 5)) (.integer 6) d) ∧
      (entry 5 15).id? = some (.integer 5) := by
  intro c once
  obtain ⟨happly, hupsert, -⟩ := update_keeps_id_iff countId (.integer 5)
  obtain ⟨-, -, hkept⟩ := update_keeps_id_iff raise (.integer 5)
  have hseed : (Filter.id (.integer 5)).seed.id? = some (.integer 5) :=
    Filter.id?_seed_of_mem (by decide +kernel) (List.mem_singleton.2 rfl)
  obtain ⟨hiff, hinserts⟩ := hupsert c .plain { ns := ledger } (.id (.integer 5)) false
    { upsertedId := some (.integer 6) } (.integer 6) reachable_ledgerRun trivial trivial ordered_countId
    hseed (by decide +kernel) rfl
  have honly : ∀ op ∈ raise.ops, op.OnlySetsId := by
    intro op hop hreaches
    rw [List.mem_singleton.1 hop] at hreaches
    exact absurd hreaches (by decide +kernel)
  exact ⟨happly (entry 5 10) (entry 6 10) (by decide +kernel) (by decide +kernel), hiff, hinserts,
    hkept (.inr honly) (entry 5 10) (entry 5 15) (by decide +kernel) (by decide +kernel)⟩

/-- Counting an identifier up, appending to one and writing inside one succeed and change it, and an upsert
whose filter requires the identifier five inserts a document with the identifier six. -/
theorem id_lost_of_increment :
    let c := (fresh true 0).run ledgerRun
    let asks := c.upsert .plain { ns := ledger } (.id (.integer 5)) countId false
    countId.apply (entry 5 10) = .ok (entry 6 10) ∧
      (Update.mk [.push "_id" .null]).apply (Document.single idField (.array [])) =
        .ok (Document.single idField (.array [.null])) ∧
      (Update.mk [.set "_id.a" .null]).apply (Document.single idField (.document ∅)) =
        .ok (Document.single idField (.document (Document.single "a" .null))) ∧
      (Filter.id (.integer 5)).seed.id? = some (.integer 5) ∧
      asks.1 = .ok (.updated { upsertedId := some (.integer 6) }) ∧
      (asks.2.perform .plain (.documents { ns := ledger } (.count (.id (.integer 6))))).1 =
        .ok (.count 1) := by
  decide +kernel

end Client

end ScopedStore
