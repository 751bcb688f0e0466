import ScopedStore.Proofs.Client.Selection
import ScopedStore.Proofs.Sorting

/-!
# Sorted paging

A sorted search finds each matching document once, in the order of the keys, and in the order of the
identifiers where the keys leave it open. Every page is cut from the same sorted list, so the pages that are
read one after the other make up what the search without pages finds (`pages_make_up_find`).
-/

namespace ScopedStore

namespace Client

variable {c : Client} {caller : Caller} {h : Handle} {f : Filter}

theorem find_eq (c : Client) (caller : Caller) (h : Handle) (f : Filter) (o : FindOptions) :
    (c.perform caller (.documents h (.find f o))).1 = do
      let _ ← c.lock caller
      let v ← c.viewOf caller h.ns
      return .documents (o.shape (v.matching (h.narrow.and f))) := by
  rw [perform_of_isRead rfl]
  rfl

/-- A sorted search either fails on every page as it fails without pages, for want of a view, or there is one
list of the matching documents: it holds each of them once, the keys put its documents in order, with a
missing field as null and a descending key reversed, and those that agree on every key stand in the order of
their identifiers. The search without pages finds this list, the pages make it up, and the first empty page
comes just after its end. -/
theorem pages_make_up_find (hc : c.Reachable) (caller : Caller) (h : Handle) (f : Filter)
    (keys : List SortKey) {n : Nat} (hn : 0 < n) :
    let ask (o : FindOptions) := (c.perform caller (.documents h (.find f o))).1
    (∃ e, (do let _ ← c.lock caller; c.viewOf caller h.ns) = .error e ∧ ∀ o, ask o = .error e) ∨
      ∃ (found : List (Value × Document)) (page : Nat → List Document),
        ask { sort := keys } = .ok (.documents (found.map Prod.snd)) ∧
        (∀ k, ask { sort := keys, skip := some (k * n), limit := some n } =
          .ok (.documents (page k))) ∧
        (∀ m, found.length ≤ m * n → (List.range m).flatMap page = found.map Prod.snd) ∧
        (∀ k, page k = [] ↔ found.length ≤ k * n) ∧
        (∀ id d, (id, d) ∈ found ↔ c.Matches caller h f id d) ∧
        (∀ e ∈ found, e.2.id? = some e.1) ∧
        (found.Pairwise fun a b => a.1 ≠ b.1) ∧
        found.Pairwise fun a b =>
          PrecedesBy keys a.2 b.2 ∨ (AgreeOn keys a.2 b.2 ∧ compare a.1 b.1 = .lt) := by
  intro ask
  have hask : ∀ o, ask o = _ := find_eq c caller h f
  cases hlock : c.lock caller with
  | error e =>
    refine .inl ⟨e, rfl, ?_⟩
    intro o
    rw [hask, hlock]
    rfl
  | ok locked =>
    cases hview : c.viewOf caller h.ns with
    | error e =>
      refine .inl ⟨e, rfl, ?_⟩
      intro o
      rw [hask, hlock, hview]
      rfl
    | ok v =>
      have hv := View.valid_load (hc.valid.catalog.collection h.ns) (hc.valid.writesOf caller h.ns) hview
      obtain ⟨hascending, hmem⟩ := finds_of_viewOf hc.valid hview f
      let found := sortEntries keys (v.found (h.narrow.and f))
      have hperm : found.Perm (v.found (h.narrow.and f)) := perm_sortEntries keys _
      have hsorted : sortDocuments keys (v.matching (h.narrow.and f)) = found.map Prod.snd := by
        rw [View.matching_eq, sortDocuments_map]
      have hshape : ∀ o, ask o = .ok (.documents (o.shape (v.matching (h.narrow.and f)))) := by
        intro o
        rw [hask, hlock, hview]
        rfl
      have hlength : (found.map Prod.snd).length = found.length := List.length_map _
      refine .inr ⟨found, pageOf n (found.map Prod.snd), ?_, ?_, ?_, ?_, ?_, ?_, ?_, ?_⟩
      · rw [hshape, ← hsorted]
        rfl
      · intro k
        rw [hshape, shape_page, hsorted]
      · intro m hm
        rw [flatMap_pageOf]
        apply List.take_of_length_le
        omega
      · intro k
        rw [pageOf_eq_nil_iff hn, hlength]
      · intro id d
        rw [hperm.mem_iff]
        exact hmem id d
      · intro e he
        exact (hv.own e.1 e.2 (hv.mem_found_iff.1 (hperm.mem_iff.1 he)).1).2
      · apply (hperm.pairwise_iff fun h heq => h heq.symm).2
        apply hascending.imp
        intro a b hlt heq
        rw [heq] at hlt
        simp at hlt
      · exact pairwise_sortEntries keys hascending

/-! ## The greatest amounts first -/

theorem pages_make_up_find_ledgerRun :
    let c := (fresh true 0).run ledgerRun
    let keys : List SortKey := [("amount", .descending)]
    let ask (o : FindOptions) :=
      (c.perform (.session ⟨1⟩) (.documents { ns := ledger } (.find .all o))).1
    c.Reachable ∧ ∃ (found : List (Value × Document)) (page : Nat → List Document),
      ask { sort := keys } = .ok (.documents (found.map Prod.snd)) ∧
      (∀ k, ask { sort := keys, skip := some (k * 2), limit := some 2 } = .ok (.documents (page k))) ∧
      (∀ m, found.length ≤ m * 2 → (List.range m).flatMap page = found.map Prod.snd) ∧
      found.Pairwise fun a b =>
        PrecedesBy keys a.2 b.2 ∨ (AgreeOn keys a.2 b.2 ∧ compare a.1 b.1 = .lt) := by
  intro c keys ask
  have hserved : (do let _ ← c.lock (.session ⟨1⟩); c.viewOf (.session ⟨1⟩) ledger).isOk = true := by
    decide +kernel
  refine ⟨reachable_ledgerRun, ?_⟩
  rcases pages_make_up_find reachable_ledgerRun (.session ⟨1⟩) { ns := ledger } .all keys
      (n := 2) (by decide) with ⟨e, hfailed, -⟩ | ⟨found, page, hall, hpages, hmake, -, -, -, -, horder⟩
  · have hrefused := congrArg Except.isOk hfailed
    cases hserved.symm.trans hrefused
  · exact ⟨found, page, hall, hpages, hmake, horder⟩

end Client

end ScopedStore
