import ScopedStore.Fixture
import ScopedStore.Proofs.Stress.FirstRun

/-!
# Two runs of a plan

However the turns of the workers follow one another, a run on an empty collection closes every scope with success
and leaves the documents of the plan and nothing else (`runs_lose_nothing`), provided that no transaction expires.
A second run finds every identifier taken: all of its scopes fail with their first insertion, whether or not they
expire, and the catalog stays as it is (`Repeating`).
-/

namespace ScopedStore

namespace Stress

variable {f : Fixture} {ns : Namespace} {plan : Plan} {start sys : System} {state : State}
  {members : TxKey → Option Member} {writes writes' : TxKey → Pending} {worker : Nat} {w : Worker}
  {key : TxKey}

/-! ## The second run -/

/-- A worker has not got anything done in its open scope. -/
structure Worker.Fails (writes : TxKey → Pending) (w : Worker) : Prop where
  fresh : ∀ scope inserted, w.progress = .working scope inserted → inserted = 0
  failed : ∀ scope outcome, w.progress = .returned scope outcome → outcome.isOk = false
  empty : ∀ key, w.key? = some key → writes key = ∅

theorem Worker.Fails.congr (h : w.Fails writes) (hwrites : ∀ key, w.key? = some key → writes' key = writes key) :
    w.Fails writes' :=
  ⟨h.fresh, h.failed, fun key hkey => (hwrites key hkey).trans (h.empty key hkey)⟩

theorem Worker.fails_of_idle (hidle : w.progress = .idle) : w.Fails writes := by
  refine ⟨fun scope inserted hworking => ?_, fun scope outcome hreturned => ?_, fun key hkey => ?_⟩
  · cases hidle.symm.trans hworking
  · cases hidle.symm.trans hreturned
  · cases (Worker.key?_of_idle hidle).symm.trans hkey

/-- All scopes that are closed have failed, and the open ones have not got anything done. -/
structure Repeating (f : Fixture) (plan : Plan) (start : System) (state : State)
    (members : TxKey → Option Member) (writes : TxKey → Pending) : Prop where
  manned : Manned f plan start state.system state.workers members writes
  catalog : (state.system.client f.client).catalog = (start.client f.client).catalog
  fails : ∀ worker, worker < plan.workers → (state.workers worker).Fails writes
  tally : state.tally = { successful := 0, failed := closedScopes state.workers plan.workers }

namespace Repeating

theorem moves (h : Repeating f plan start state members writes) {members' : TxKey → Option Member}
    {progress : Progress} (hcatalog : (sys.client f.client).catalog = (state.system.client f.client).catalog)
    (hmanned : Manned f plan start sys
      (Function.update state.workers worker { state.workers worker with progress := progress }) members'
      (Function.update writes key ∅))
    (hothers : ∀ other < plan.workers, other ≠ worker → (state.workers other).key? ≠ some key)
    (hfails : ({ state.workers worker with progress := progress } : Worker).Fails (Function.update writes key ∅)) :
    Repeating f plan start
      { state with
        system := sys
        workers := Function.update state.workers worker { state.workers worker with progress := progress } }
      members' (Function.update writes key ∅) := by
  refine ⟨hmanned, hcatalog.trans h.catalog,
    forall_update (P := fun writes _ w => w.Fails writes) (fun _ _ _ hw => hw.congr) h.fails hfails hothers, ?_⟩
  rw [h.tally]
  exact congrArg (Tally.mk 0)
    (closedScopes_congr (finished_update state.workers worker progress) plan.workers).symm

theorem begins (h : Repeating f plan start state members writes) (hroot : f.root.transaction = none)
    (hworker : worker < plan.workers) (hactive : (state.workers worker).finished < plan.scopes)
    (hidle : (state.workers worker).progress = .idle) (ns : Namespace) :
    ∃ members' writes', Repeating f plan start (state.step f ns plan worker) members' writes' := by
  obtain ⟨hkey, hclient, hothers, hmanned⟩ := h.manned.begins hroot hworker hactive hidle
  rw [State.step_begins f ns hworker hactive hidle]
  refine ⟨_, _, h.moves (congrArg Client.catalog hclient) hmanned hothers
    ⟨fun scope inserted hworking => ?_, fun scope outcome hreturned => ?_, fun key' hkey' => ?_⟩⟩
  · cases hworking
    rfl
  · cases hreturned
  · obtain rfl := Option.some.inj (hkey'.symm.trans hkey)
    exact Function.update_self ..

theorem inserts (h : Repeating f plan start state members writes) (hworker : worker < plan.workers)
    (htaken : ∀ p : Place, p.Within plan → (start.stored f.client ns).contains p.id = true)
    (hoperations : 0 < plan.operations) {scope : Scope} {inserted : Nat}
    (hprogress : (state.workers worker).progress = .working scope inserted) :
    ∃ members' writes', Repeating f plan start (state.step f ns plan worker) members' writes' := by
  have hscope : (state.workers worker).progress.scope? = some scope := congrArg Progress.scope? hprogress
  obtain ⟨hactive, key, hcx, hkey, -, hothers⟩ := h.manned.exists_key hworker hscope
  obtain rfl := (h.fails worker hworker).fresh scope inserted hprogress
  have hempty := (h.fails worker hworker).empty key hkey
  let p : Place := ⟨worker, (state.workers worker).finished, 0⟩
  let c := state.system.client f.client
  have hstored : c.stored ns = start.stored f.client ns := Client.stored_of_eq h.catalog ns
  obtain ⟨e, herror⟩ : ∃ e, c.replyOver (writes key) { ns := ns } (.insertOne p.document) = .error e := by
    rw [hempty]
    exact Client.replyOver_insertOne_of_stored p.id?_document
      (hstored ▸ htaken p ⟨hworker, hactive, hoperations⟩)
  have hordered : (Request.documents { ns := ns } (.insertOne p.document)).Ordered :=
    ⟨trivial, p.ordered_document⟩
  obtain ⟨hcatalog, hcalled, -⟩ := h.manned.calls hworker hscope hcx hordered hscope
  have hstep := State.step_inserts f ns hworker hactive hprogress hoperations
  rw [insertNext] at hstep
  have hop : DocumentOp.insertOne (document worker (state.workers worker).finished 0) =
      .insertOne p.document := rfl
  rw [hop] at hstep
  have hfailed : ∃ e, (state.system.requestThrough f.client f.binding scope.context
      (.documents { ns := ns } (.insertOne p.document))).1 = .error e := by
    rcases hcalled with ⟨-, hrefused⟩ | hreply
    · cases houtcome : (state.system.requestThrough f.client f.binding scope.context
        (.documents { ns := ns } (.insertOne p.document))).1 with
      | error e => exact ⟨e, rfl⟩
      | ok reply =>
        rw [houtcome] at hrefused
        cases hrefused
    · exact ⟨.store e, by rw [hreply, herror]; rfl⟩
  obtain ⟨e', hfailed⟩ := hfailed
  obtain ⟨-, -, members', hmanned⟩ := h.manned.calls hworker hscope hcx hordered
    (show (Progress.returned scope (.error e')).scope? = some scope from rfl)
  generalize state.system.requestThrough f.client f.binding scope.context
    (.documents { ns := ns } (.insertOne p.document)) = called at *
  obtain ⟨outcome, sys⟩ := called
  obtain rfl : outcome = .error e' := hfailed
  replace hmanned : Manned f plan start sys _ members' (Function.update writes key (writes key)) := hmanned
  rw [hempty] at hmanned
  rw [hstep]
  refine ⟨members', _, h.moves hcatalog hmanned hothers
    ⟨fun scope' inserted hworking => ?_, fun scope' outcome hreturned => ?_, fun key' hkey' => ?_⟩⟩
  · cases hworking
  · cases hreturned
    rfl
  · obtain rfl : key' = key := Option.some.inj (hkey'.symm.trans hcx)
    exact Function.update_self ..

theorem closes (h : Repeating f plan start state members writes) (hworker : worker < plan.workers)
    {scope : Scope} {result : Except TxError Unit}
    (hprogress : (state.workers worker).progress = .returned scope result) (ns : Namespace) :
    ∃ members' writes', Repeating f plan start (state.step f ns plan worker) members' writes' := by
  obtain ⟨hactive, key, hcx, -⟩ := h.manned.exists_key hworker (congrArg Progress.scope? hprogress)
  obtain ⟨hcatalog, hok, hmanned⟩ := h.manned.closes hworker hprogress hcx
  rw [(h.fails worker hworker).failed scope result hprogress] at hcatalog hok
  have hstep := State.step_closes f ns hworker hactive hprogress
  generalize state.system.finish scope result = finished at *
  obtain ⟨outcome, sys⟩ := finished
  rw [hstep]
  refine ⟨members, writes, hmanned, hcatalog.trans h.catalog, ?_, ?_⟩
  · exact (Function.forall_update_iff state.workers
      (p := fun other w => other < plan.workers → w.Fails writes)).2
      ⟨fun _ => Worker.fails_of_idle rfl, fun other _ => h.fails other⟩
  · cases outcome with
    | ok u => cases (hok.1 rfl).1
    | error e =>
      dsimp only [Option.elim_some, Tally.add]
      rw [closedScopes_update hworker rfl, h.tally]

theorem after (h : Repeating f plan start state members writes) (hroot : f.root.transaction = none)
    (htaken : ∀ p : Place, p.Within plan → (start.stored f.client ns).contains p.id = true)
    (hoperations : 0 < plan.operations) (turn : Turn) :
    ∃ members' writes', Repeating f plan start (state.after f ns plan turn) members' writes' := by
  cases turn with
  | wait seconds => exact ⟨members, writes, { h with manned := h.manned.waits seconds }⟩
  | step worker =>
    show ∃ members' writes', Repeating f plan start (state.step f ns plan worker) members' writes'
    by_cases hactive : worker < plan.workers ∧ (state.workers worker).finished < plan.scopes
    · cases hprogress : (state.workers worker).progress with
      | idle => exact h.begins hroot hactive.1 hactive.2 hprogress ns
      | working scope inserted => exact h.inserts hactive.1 htaken hoperations hprogress
      | returned scope result => exact h.closes hactive.1 hprogress ns
    · have hsame : state.step f ns plan worker = state := if_neg hactive
      rw [hsame]
      exact ⟨members, writes, h⟩

theorem play (h : Repeating f plan start state members writes) (hroot : f.root.transaction = none)
    (htaken : ∀ p : Place, p.Within plan → (start.stored f.client ns).contains p.id = true)
    (hoperations : 0 < plan.operations) (turns : List Turn) :
    ∃ members' writes', Repeating f plan start (state.play f ns plan turns) members' writes' := by
  induction turns generalizing state members writes with
  | nil => exact ⟨members, writes, h⟩
  | cons turn rest ih =>
    obtain ⟨members', writes', hnext⟩ := h.after hroot htaken hoperations turn
    exact ih hnext

end Repeating

/-! ## Both runs -/

/-- A system in which a plan can be run on a collection: the collection is empty, or missing where it may be made,
no other unique index than that of the identifiers is on it, and no call of the client is armed to fail. -/
structure Ready (f : Fixture) (ns : Namespace) (sys : System) : Prop where
  serves : sys.Serves f.registry f.client
  root : f.root.transaction = none
  reachable : (sys.client f.client).Reachable
  unarmed : (sys.client f.client).Unarmed
  empty : sys.stored f.client ns = ∅
  place : (sys.client f.client).autoCreate = true ∨ ((sys.client f.client).catalog.collection? ns).isSome
  indexes : ∀ i ∈ ((sys.client f.client).catalog.collection ns).indexes, i.isUniqueSecondary = false

theorem Ready.running (h : Ready f ns sys) (plan : Plan) :
    Running f ns plan sys { system := sys } (fun _ => none) fun _ => ∅ where
  manned := .init h.serves h.reachable.valid h.unarmed plan
  indexes := h.indexes
  place := h.place
  stored := by
    rw [h.empty]
    exact (lists_empty _).congr fun p => iff_false_intro fun hp => Nat.not_lt_zero _ hp.2.1
  inserts _ _ := Worker.inserts_of_idle rfl
  tally := by rw [closedScopes_init]

theorem Running.repeating (h : Running f ns plan start state members writes) :
    Repeating f plan state.system { system := state.system } (fun _ => none) fun _ => ∅ where
  manned := .init h.manned.nested.serves h.manned.nested.valid h.manned.nested.unarmed plan
  catalog := rfl
  fails _ _ := Worker.fails_of_idle rfl
  tally := by rw [closedScopes_init]

theorem Running.committed (h : Running f ns plan start state members writes) (hfinished : state.Finished plan) :
    Lists (state.system.stored f.client ns) Place.bytes (Place.Within plan) := by
  refine h.stored.congr fun p => ⟨fun hp => ?_, fun hp => ?_⟩
  · refine ⟨hp.worker, ?_, hp.operation⟩
    rw [hfinished p.worker hp.worker]
    exact hp.scope
  · refine ⟨hp.1, ?_, hp.2.2⟩
    rw [← hfinished p.worker hp.1]
    exact hp.2.1

theorem Running.committedCount (h : Running f ns plan start state members writes) (hfits : plan.Fits)
    (hfinished : state.Finished plan) :
    (f.committedCount state.system ns).1 = .ok (plan.workers * (plan.scopes * plan.operations)) := by
  let c := state.system.client f.client
  have hstored := h.committed hfinished
  have hread (p : Place) (hp : p.Within plan) : Document.decode? p.bytes = some p.document :=
    Place.decode?_bytes hfits hp
  have hcollection := h.manned.nested.valid.catalog.collection ns
  obtain ⟨v, hload⟩ : ∃ v, View.load c.catalog ns ∅ c.seed = .ok v :=
    View.load_isOk_iff.2 ⟨hstored.decodes hcollection.sorted hread, Writes.decode_empty⟩
  have hshown := hstored.shown (lists_empty Place.insertion) (fun p hp => hread p (hp.resolve_right id))
    (View.find?_of_load SortedMap.sorted_empty hload)
  have hlength : (v.matching .all).length = plan.workers * (plan.scopes * plan.operations) := by
    rw [← plan.length_places]
    refine length_matching (View.valid_load hcollection validChanges_empty hload).docs_sorted hshown
      plan.nodup_places fun p => ?_
    rw [Plan.mem_places, or_iff_left id]
    exact (and_iff_left rfl).symm
  have hreply : (state.system.request f.client none (.documents { ns := ns } (.count .all))).1 =
      .ok (.count (plan.workers * (plan.scopes * plan.operations))) := by
    rw [System.request, System.onClient_eq (Prod.eta _).symm]
    show ((c.perform .plain (.documents { ns := ns } (.count .all))).1.mapError TxError.store) = _
    rw [Client.perform_plain_count hload, hlength]
    rfl
  unfold Fixture.committedCount
  generalize state.system.request f.client none (.documents { ns := ns } (.count .all)) = called at *
  obtain ⟨outcome, sys⟩ := called
  obtain rfl : outcome = _ := hreply
  rfl

/-- A run of a plan in which no transaction expires, with the turns of the workers in any order. Enough turns
close every scope. Then all scopes have succeeded, the documents of the plan are committed and no others, and
nothing is left open. In a second run, again with the turns in any order, every scope fails and the catalog stays
as it is. -/
theorem runs_lose_nothing (hready : Ready f ns sys) (hfits : plan.Fits) {turns : List Turn}
    (htime : State.timely f ns plan turns { system := sys } = true) :
    let first := ({ system := sys } : State).play f ns plan turns
    ((∀ worker < plan.workers, plan.steps ≤ turns.count (.step worker)) → first.Finished plan) ∧
      (first.Finished plan →
        first.tally = { successful := plan.workers * plan.scopes, failed := 0 } ∧
          (f.committedCount first.system ns).1 =
            .ok (plan.workers * (plan.scopes * plan.operations)) ∧
          Lists (first.system.stored f.client ns) Place.bytes (Place.Within plan) ∧
          Leaves f sys first.system ∧
          (0 < plan.operations → ∀ turns' : List Turn,
            let second := ({ system := first.system } : State).play f ns plan turns'
            ((∀ worker < plan.workers, plan.steps ≤ turns'.count (.step worker)) → second.Finished plan) ∧
              (second.Finished plan →
                second.tally = { successful := 0, failed := plan.workers * plan.scopes } ∧
                  (second.system.client f.client).catalog = (first.system.client f.client).catalog ∧
                  Leaves f first.system second.system))) := by
  intro first
  refine ⟨State.finished_of_turns sys, fun hfinished => ?_⟩
  obtain ⟨members, writes, hran⟩ := (hready.running plan).play hready.root hfits htime
  have hbalances := hready.reachable.balances
  have hcommitted := hran.committed hfinished
  refine ⟨?_, hran.committedCount hfits hfinished, hcommitted, hran.manned.leaves hfinished hbalances,
    fun hoperations turns' => ⟨State.finished_of_turns first.system, fun hfinished' => ?_⟩⟩
  · rw [hran.tally, closedScopes_of_finished hfinished]
  · have htaken (p : Place) (hp : p.Within plan) : (first.system.stored f.client ns).contains p.id = true :=
      SortedMap.contains_iff.2 ⟨p.bytes, hcommitted.find?_id hp⟩
    obtain ⟨members', writes', hrepeated⟩ := hran.repeating.play hready.root htaken hoperations turns'
    refine ⟨?_, hrepeated.catalog,
      hrepeated.manned.leaves hfinished' (hran.manned.starts.balances hbalances)⟩
    rw [hrepeated.tally, closedScopes_of_finished hfinished']

/-! ## Two workers -/

def target : Namespace := ⟨"stress", "docs"⟩

def bench : Fixture × System := Fixture.add {} true {}

/-- Two workers with two scopes each, of one document. -/
def twoByTwo : Plan := ⟨2, 2, 1⟩

/-- The workers take their steps by turns, but the second has begun first, and time passes. -/
def byTurns : List Turn :=
  (List.replicate twoByTwo.steps [Turn.step 1, .wait 1, .step 0]).flatten

theorem ready_bench : Ready bench.1 target bench.2 where
  serves := ⟨by decide, by decide, rfl, rfl, fun tx slot hslot => by cases hslot⟩
  root := rfl
  reachable := ⟨true, _, [], fun _ hmem => absurd hmem List.not_mem_nil, rfl⟩
  unarmed kind := by cases kind <;> rfl
  empty := rfl
  place := .inl rfl
  indexes := by decide

theorem timely_byTurns : State.timely bench.1 target twoByTwo byTurns { system := bench.2 } = true := by
  decide +kernel

theorem runs_lose_nothing_by_turns :
    let first := ({ system := bench.2 } : State).play bench.1 target twoByTwo byTurns
    let second := ({ system := first.system } : State).play bench.1 target twoByTwo byTurns
    first.tally = { successful := 4, failed := 0 } ∧ (bench.1.committedCount first.system target).1 = .ok 4 ∧
      second.tally = { successful := 0, failed := 4 } := by
  have hfits : twoByTwo.Fits := ⟨by decide, by decide, by decide⟩
  have henough : ∀ worker < twoByTwo.workers, twoByTwo.steps ≤ byTurns.count (.step worker) := by decide
  obtain ⟨hcloses, hresult⟩ := runs_lose_nothing ready_bench hfits timely_byTurns
  obtain ⟨htally, hcount, -, -, hsecond⟩ := hresult (hcloses henough)
  obtain ⟨hcloses', hresult'⟩ := hsecond (by decide) byTurns
  exact ⟨htally, hcount, (hresult' (hcloses' henough)).1⟩

end Stress

end ScopedStore
