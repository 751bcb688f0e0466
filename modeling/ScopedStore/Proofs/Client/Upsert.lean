import Mathlib.Logic.Function.Iterate
import ScopedStore.Proofs.Client.Selection
import ScopedStore.Proofs.Seed

/-!
# Upserts converge

An upsert that finds nothing inserts what its update makes of the seed (`inserts_of_upsert`). Where the filter
requires nothing but terms of equality on paths that are apart, and the update writes apart from all of them,
this document meets the terms, and so does whatever the update makes of it later. So from then on the caller
holds a document that meets them (`Settled`), the same call finds a match and inserts nothing
(`Settled.upsert`), however often it is repeated (`upserts_converge`).
-/

namespace ScopedStore

namespace Client

variable {c c' : Client} {caller : Caller} {h : Handle} {f : Filter} {u : Update} {multi : Bool}

/-- Asks for an update of all documents found, or of the first, and for an insertion where there is none. -/
def upsert (c : Client) (caller : Caller) (h : Handle) (f : Filter) (u : Update) (multi : Bool) :
    Except StoreError Reply × Client :=
  c.perform caller (.documents h (if multi then .updateMany f u true else .updateOne f u true))

/-- Between two clients nothing matched, and a document was inserted under an identifier that was free. -/
structure Inserts (c c' : Client) (caller : Caller) (h : Handle) (f : Filter) (id : Value)
    (d : Document) : Prop where
  missed : ∀ id' d', ¬c.Matches caller h f id' d'
  free : c.kept? caller h.ns id = none
  holds : c'.Holds caller h.ns id d
  others : ∀ id', id' ≠ id → c'.kept? caller h.ns id' = c.kept? caller h.ns id'

/-- A filter of equalities whose terms are apart from each other and from what an update writes. -/
structure Converges (f : Filter) (u : Update) : Prop where
  equalities : f.OnlyEqualities
  terms : Filter.TermsApart f.terms
  update : ∀ op ∈ u.ops, ∀ t ∈ f.terms, (Path.ofString op.field).Apart (Path.ofString t.1)

/-- The caller holds a document under an identifier that meets every term of a filter. -/
def Settled (c : Client) (caller : Caller) (ns : Namespace) (f : Filter) (id : Value) : Prop :=
  ∃ d, c.Holds caller ns id d ∧ d.Meets f.terms

theorem Settled.of_kept {ns : Namespace} {id : Value} (hsettled : c.Settled caller ns f id)
    (hkept : c'.kept? caller ns id = c.kept? caller ns id) : c'.Settled caller ns f id := by
  obtain ⟨d, ⟨hordered, hd⟩, hmeets⟩ := hsettled
  exact ⟨d, ⟨hordered, hkept.trans hd⟩, hmeets⟩

theorem Settled.matches {id : Value} (hsettled : c.Settled caller h.ns (h.narrow.and f) id)
    (honly : (h.narrow.and f).OnlyEqualities) : ∃ d, c.Matches caller h f id d := by
  obtain ⟨d, hheld, hmeets⟩ := hsettled
  have haccepted := Filter.accepts_of_meets _ honly hmeets
  rw [Filter.accepts_and, Bool.and_eq_true] at haccepted
  exact ⟨d, hheld, haccepted⟩

/-! ## One call -/

section Upsert

variable (hc : c.Valid) (hnarrow : h.narrow.Ordered) (hf : f.Ordered) (hu : u.Ordered)

theorem run_upsert {v v' : View} {reply : Reply}
    (hop : (if multi then DocumentOp.updateMany f u true else .updateOne f u true).run h.narrow v =
      .ok (reply, v')) :
    ∃ r, v.update (h.narrow.and f) u true multi = .ok (r, v') ∧ reply = .updated r := by
  cases multi <;>
  · obtain ⟨⟨r, v₁⟩, hupdate, hop⟩ := bind_eq_ok.1 hop
    cases hop
    exact ⟨r, hupdate, rfl⟩

include hc hnarrow hf hu

theorem inserts_of_upsert {r : UpdateReply} {id : Value}
    (hreply : (c.upsert caller h f u multi).1 = .ok (.updated r)) (hid : r.upsertedId = some id) :
    ∃ d, u.apply (h.narrow.and f).seed = .ok d ∧ (d.withId id).id? = some id ∧
      c.Inserts (c.upsert caller h f u multi).2 caller h f id (d.withId id) := by
  obtain ⟨locked, v, v', -, hlock, hview, hop, hhanded⟩ := exists_handOn_of_ok (Prod.ext hreply rfl)
  have hv := View.valid_load (hc.catalog.collection h.ns) (hc.writesOf caller h.ns) hview
  have hsteps : v.Steps v' := by
    refine DocumentOp.steps hnarrow ?_ hv hop
    cases multi <;> exact ⟨hf, hu⟩
  obtain ⟨_, hupdate, hr⟩ := run_upsert hop
  cases hr
  obtain ⟨hfound, d, hd, hinsert⟩ := View.insert_of_update hupdate hid
  obtain ⟨hfree, hown, -, -, seed, rfl⟩ := View.insert_spec hinsert
  have hdocs : ({ v.put id (d.withId id) with seed := seed } : View).docs =
      v.docs.insert id (d.withId id) := rfl
  have hfinds := finds_of_viewOf hc hview f
  rw [hfound] at hfinds
  refine ⟨d, hd, hown, ?_, ?_, ?_, ?_⟩
  · intro id' d' hmatch
    exact List.not_mem_nil ((hfinds.mem_iff id' d').2 hmatch)
  · rw [kept?_of_viewOf hc hview, SortedMap.contains_eq_false_iff.1 hfree, Option.map_none]
  · apply holds_of_handOn hc hview hsteps hlock hhanded
    rw [hdocs, SortedMap.find?_insert_self]
  · intro id' hne
    apply kept?_of_unchanged hc hview hsteps hlock hhanded
    rw [hdocs, SortedMap.find?_insert_of_ne _ _ hne]

variable (hconverges : Converges (h.narrow.and f) u)
include hconverges

variable (multi)

/-- Once a document meets the terms, the same upsert inserts nothing: it fails and leaves everything, or it
updates documents, and the terms stay met. -/
theorem Settled.upsert {id : Value} (hsettled : c.Settled caller h.ns (h.narrow.and f) id) :
    (c.upsert caller h f u multi).2.Settled caller h.ns (h.narrow.and f) id ∧
      (∀ r, (c.upsert caller h f u multi).1 = .ok (.updated r) → r.upsertedId = none) ∧
      ∀ id', ((c.upsert caller h f u multi).2.kept? caller h.ns id').isSome =
        (c.kept? caller h.ns id').isSome := by
  cases hreply : (c.upsert caller h f u multi).1 with
  | error e =>
    have hsame := sameStore_of_failed (Prod.ext hreply rfl)
    have hkept := kept?_of_eq hsame.catalog hsame.sessions caller h.ns
    exact ⟨hsettled.of_kept (hkept id), nofun, fun id' => congrArg Option.isSome (hkept id')⟩
  | ok reply =>
    obtain ⟨d, hheld, hmeets⟩ := hsettled
    obtain ⟨locked, v, -, -, hlock, hview, -, -⟩ := exists_handOn_of_ok (Prod.ext hreply rfl)
    have hv := View.valid_load (hc.catalog.collection h.ns) (hc.writesOf caller h.ns) hview
    have hfind := (find?_iff_holds hc hview).2 hheld
    have haccepted := Filter.accepts_of_meets _ hconverges.equalities hmeets
    have hfound : v.found (h.narrow.and f) ≠ [] :=
      List.ne_nil_of_mem (hv.mem_found_iff.2 ⟨hfind, haccepted⟩)
    -- a match is found, so the call is the plain update, of which it is known what it leaves
    have hplain : c.upsert caller h f u multi = c.perform caller (.documents h
        (if multi then .updateMany f u false else .updateOne f u false)) := by
      cases multi <;>
      · rw [Client.upsert, perform_eq rfl hlock hview, perform_eq rfl hlock hview]
        simp only [Bool.false_eq_true, if_true, if_false, DocumentOp.run, View.update_of_found hfound]
    obtain ⟨found, hfinds, hupdates⟩ := updates_of_ok hc multi hnarrow hf hu
      (Prod.ext (hplain ▸ hreply) rfl)
    rw [← hplain] at hupdates
    refine ⟨?_, ?_, hupdates.ids⟩
    · by_cases htaken : ∃ e ∈ View.taken multi found, e.1 = id
      · obtain ⟨e, he, rfl⟩ := htaken
        obtain ⟨hmatch, -⟩ := (hfinds.mem_iff e.1 e.2).1 ((View.taken_sublist multi found).subset he)
        obtain ⟨d', hd', hheld'⟩ := hupdates.updated e he
        have hfind' := (find?_iff_holds hc hview).2 hmatch
        rw [hfind, Option.some.injEq] at hfind'
        exact ⟨d', hheld', hmeets.apply hconverges.update (hfind' ▸ hd')⟩
      · have hkept := hupdates.others id fun e he heq => htaken ⟨e, he, heq⟩
        exact ⟨d, ⟨hheld.1, hkept.trans hheld.2⟩, hmeets⟩
    · intro r hr
      rw [Except.ok.injEq] at hr
      have hupdated := hr.symm.trans hupdates.reply
      cases hupdated
      rfl

/-! ## The call repeated -/

theorem Settled.iterate {id : Value} (hsettled : c.Settled caller h.ns (h.narrow.and f) id) (n : Nat) :
    let after := (fun c : Client => (c.upsert caller h f u multi).2)^[n] c
    after.Valid ∧ after.Settled caller h.ns (h.narrow.and f) id ∧
      ∀ id', (after.kept? caller h.ns id').isSome = (c.kept? caller h.ns id').isSome := by
  induction n with
  | zero => exact ⟨hc, hsettled, fun id' => rfl⟩
  | succ n ih =>
    obtain ⟨hvalid, hstill, hids⟩ := ih
    rw [Function.iterate_succ_apply']
    obtain ⟨hnext, -, hsame⟩ := Settled.upsert multi hvalid hnarrow hf hu hconverges hstill
    refine ⟨?_, hnext, ?_⟩
    · apply hvalid.perform
      refine ⟨hnarrow, ?_⟩
      cases multi <;> exact ⟨hf, hu⟩
    · intro id'
      rw [hsame, hids]

end Upsert

/-- Where the handle's filter and the call's require nothing but terms of equality, on paths that are apart
from each other and from those that the update writes, an upsert that has inserted a document has found no
match, and the document matches. However often the same call is repeated, it inserts no second document: no
repetition says that it has, no identifier comes or goes, and under its identifier the document matches
still. -/
theorem upserts_converge (hc : c.Reachable) (caller : Caller) {h : Handle}
    (hnarrow : h.narrow.Ordered) {f : Filter} (hf : f.Ordered) {u : Update} (hu : u.Ordered)
    (hconverges : Converges (h.narrow.and f) u) (multi : Bool) {r : UpdateReply} {id : Value}
    (hreply : (c.upsert caller h f u multi).1 = .ok (.updated r)) (hid : r.upsertedId = some id) :
    let once := (c.upsert caller h f u multi).2
    (∃ d, c.Inserts once caller h f id d ∧ once.Matches caller h f id d) ∧
      ∀ n, let after := (fun c : Client => (c.upsert caller h f u multi).2)^[n] once
        (∀ r', (after.upsert caller h f u multi).1 = .ok (.updated r') → r'.upsertedId = none) ∧
          (∀ id', (after.kept? caller h.ns id').isSome = (once.kept? caller h.ns id').isSome) ∧
          ∃ d, after.Matches caller h f id d := by
  intro once
  obtain ⟨d, hd, -, hinserts⟩ := inserts_of_upsert hc.valid hnarrow hf hu hreply hid
  have hmeets : (d.withId id).Meets (h.narrow.and f).terms :=
    ((Filter.meets_seed hconverges.terms).apply hconverges.update hd).withId id
  have haccepted := Filter.accepts_of_meets _ hconverges.equalities hmeets
  rw [Filter.accepts_and, Bool.and_eq_true] at haccepted
  have hvalid : once.Valid := by
    apply hc.valid.perform
    refine ⟨hnarrow, ?_⟩
    cases multi <;> exact ⟨hf, hu⟩
  have hsettled : once.Settled caller h.ns (h.narrow.and f) id := ⟨_, hinserts.holds, hmeets⟩
  refine ⟨⟨_, hinserts, hinserts.holds, haccepted⟩, ?_⟩
  intro n after
  obtain ⟨hvalid', hsettled', hids⟩ :=
    Settled.iterate multi hvalid hnarrow hf hu hconverges hsettled n
  obtain ⟨-, hnone, -⟩ := Settled.upsert multi hvalid' hnarrow hf hu hconverges hsettled'
  exact ⟨hnone, hids, hsettled'.matches hconverges.equalities⟩

/-! ## A fee that is charged once more at each call -/

/-- A conjunction of conjunctions, with the identifier and a path inside. -/
def feeFilter : Filter := .allOf [.id (.integer 9), .allOf [.eq "paid.by" (.text "ops")]]

def chargeFee : Update := ⟨[.increment "amount" 5, .push "paid.marks" (.bool true)]⟩

theorem ordered_chargeFee : chargeFee.Ordered := by
  intro op hop
  rcases List.mem_cons.1 hop with rfl | hop
  · trivial
  · rw [List.mem_singleton.1 hop]
    trivial

theorem converges_chargeFee : Converges feeFilter chargeFee :=
  ⟨⟨trivial, ⟨trivial, trivial⟩, trivial⟩, by decide +kernel, by decide +kernel⟩

theorem upserts_converge_chargeFee :
    let c := (fresh true 0).run ledgerRun
    let once := (c.upsert .plain { ns := ledger } feeFilter chargeFee false).2
    c.Reachable ∧ Converges feeFilter chargeFee ∧
      (∃ d, c.Inserts once .plain { ns := ledger } feeFilter (.integer 9) d) ∧
      ∀ n, ∃ d, ((fun c : Client => (c.upsert .plain { ns := ledger } feeFilter chargeFee false).2)^[n]
        once).Matches .plain { ns := ledger } feeFilter (.integer 9) d := by
  intro c once
  obtain ⟨⟨d, hinserts, -⟩, hafter⟩ :=
    upserts_converge reachable_ledgerRun .plain (h := { ns := ledger }) trivial (f := feeFilter)
      ⟨trivial, ⟨trivial, trivial⟩, trivial⟩ ordered_chargeFee converges_chargeFee false
      (r := { upsertedId := some (.integer 9) }) (by decide +kernel) rfl
  exact ⟨reachable_ledgerRun, converges_chargeFee, ⟨d, hinserts⟩, fun n => (hafter n).2.2⟩

end Client

end ScopedStore
