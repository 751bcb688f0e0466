import ScopedStore.Proofs.Stress.Crew

/-!
# The first run of a plan

Workers insert into a collection that was empty when they started. At every point of every interleaving what is
committed are the documents of the scopes that are closed, and what a worker has buffered are those that it has
inserted in its open scope (`Running`). So the next identifier is free wherever the worker is, its count sees its
own closed scopes and the open one, and the commit finds no identifier taken. Each turn keeps this up as long as no
transaction expires (`Running.after`), and so does a play (`Running.play`).
-/

namespace ScopedStore

namespace Stress

variable {f : Fixture} {ns : Namespace} {plan : Plan} {start : System} {state : State}
  {workers workers' : Nat → Worker} {members : TxKey → Option Member} {writes writes' : TxKey → Pending}
  {worker : Nat} {w : Worker} {key : TxKey}

/-! ## Closed scopes -/

/-- How many scopes the first workers have closed. -/
def closedScopes (workers : Nat → Worker) : Nat → Nat
  | 0 => 0
  | n + 1 => closedScopes workers n + (workers n).finished

theorem closedScopes_congr (h : ∀ worker, (workers' worker).finished = (workers worker).finished) (n : Nat) :
    closedScopes workers' n = closedScopes workers n := by
  induction n with
  | zero => rfl
  | succ n ih => rw [closedScopes, closedScopes, ih, h]

theorem closedScopes_init (n : Nat) : closedScopes (fun _ => {}) n = 0 := by
  induction n with
  | zero => rfl
  | succ n ih => exact ih

theorem finished_update (workers : Nat → Worker) (worker : Nat) (progress : Progress) (other : Nat) :
    (Function.update workers worker { workers worker with progress := progress } other).finished =
      (workers other).finished := by
  by_cases hsame : other = worker
  · rw [hsame, Function.update_self]
  · rw [Function.update_of_ne hsame]

theorem closedScopes_update {n : Nat} (hworker : worker < n)
    (hw : w.finished = (workers worker).finished + 1) :
    closedScopes (Function.update workers worker w) n = closedScopes workers n + 1 := by
  have hbelow (m : Nat) (hm : m ≤ worker) :
      closedScopes (Function.update workers worker w) m = closedScopes workers m := by
    induction m with
    | zero => rfl
    | succ m ih => rw [closedScopes, closedScopes, ih (Nat.le_of_lt hm), Function.update_of_ne (Nat.ne_of_lt hm)]
  induction n with
  | zero => cases hworker
  | succ n ih =>
    rw [closedScopes, closedScopes]
    rcases Nat.lt_succ_iff_lt_or_eq.1 hworker with hlt | rfl
    · rw [ih hlt, Function.update_of_ne (Nat.ne_of_gt hlt), Nat.add_right_comm]
    · rw [hbelow worker (Nat.le_refl _), Function.update_self, hw, Nat.add_assoc]

theorem closedScopes_of_finished {n : Nat} (h : ∀ worker < n, (workers worker).finished = plan.scopes) :
    closedScopes workers n = n * plan.scopes := by
  induction n with
  | zero => rw [Nat.zero_mul]; rfl
  | succ n ih =>
    rw [closedScopes, ih fun worker hworker => h worker (Nat.lt_succ_of_lt hworker), h n (Nat.lt_succ_self n),
      Nat.succ_mul]

/-! ## Places that have been inserted -/

def Progress.inserted (plan : Plan) : Progress → Nat
  | .idle => 0
  | .working _ inserted => inserted
  | .returned _ _ => plan.operations

/-- The document of the place was inserted in the open scope of a worker. -/
def Worker.Buffered (plan : Plan) (worker : Nat) (w : Worker) (p : Place) : Prop :=
  p.worker = worker ∧ p.scope = w.finished ∧ p.operation < w.progress.inserted plan

/-- The document of the place was inserted in a scope that is closed. -/
def Committed (plan : Plan) (workers : Nat → Worker) (p : Place) : Prop :=
  p.worker < plan.workers ∧ p.scope < (workers p.worker).finished ∧ p.operation < plan.operations

theorem committed_congr (h : ∀ worker, (workers' worker).finished = (workers worker).finished) (p : Place) :
    Committed plan workers' p ↔ Committed plan workers p := by
  unfold Committed
  rw [h]

theorem committed_update (hworker : worker < plan.workers)
    (hinserted : (workers worker).progress.inserted plan = plan.operations) {w : Worker}
    (hw : w.finished = (workers worker).finished + 1) (p : Place) :
    Committed plan (Function.update workers worker w) p ↔
      Committed plan workers p ∨ (workers worker).Buffered plan worker p := by
  unfold Committed Worker.Buffered
  rw [hinserted]
  by_cases hsame : p.worker = worker
  · rw [hsame, Function.update_self, hw]
    omega
  · rw [Function.update_of_ne hsame]
    exact ⟨.inl, fun h => h.resolve_right fun hbuffered => hsame hbuffered.1⟩

/-- What a worker has buffered, and that nothing went wrong in its open scope. -/
structure Worker.Inserts (ns : Namespace) (plan : Plan) (writes : TxKey → Pending) (worker : Nat)
    (w : Worker) : Prop where
  inserted : w.progress.inserted plan ≤ plan.operations
  outcome : ∀ scope outcome, w.progress = .returned scope outcome → outcome = .ok ()
  buffered : ∀ key, w.key? = some key →
    Lists ((writes key).writesOf ns) Place.insertion (w.Buffered plan worker)
  elsewhere : ∀ key, w.key? = some key → ∀ ns', ns' ≠ ns → ((writes key).writesOf ns').entries = []

theorem Worker.Inserts.congr (h : w.Inserts ns plan writes worker)
    (hwrites : ∀ key, w.key? = some key → writes' key = writes key) : w.Inserts ns plan writes' worker where
  inserted := h.inserted
  outcome := h.outcome
  buffered key hkey := by
    rw [hwrites key hkey]
    exact h.buffered key hkey
  elsewhere key hkey := by
    rw [hwrites key hkey]
    exact h.elsewhere key hkey

theorem Worker.inserts_of_idle (hidle : w.progress = .idle) : w.Inserts ns plan writes worker := by
  have hnone (key : TxKey) : w.key? ≠ some key := by
    rw [Worker.key?_of_idle hidle]
    exact Option.some_ne_none key ∘ Eq.symm
  refine ⟨?_, fun scope outcome hreturned => ?_, fun key hkey => absurd hkey (hnone key), fun key hkey =>
    absurd hkey (hnone key)⟩
  · rw [hidle]
    exact Nat.zero_le _
  · cases hidle.symm.trans hreturned

/-! ## The invariant -/

/-- What is committed are the documents of the closed scopes, all of which succeeded, and open scopes have
buffered their own. -/
structure Running (f : Fixture) (ns : Namespace) (plan : Plan) (start : System) (state : State)
    (members : TxKey → Option Member) (writes : TxKey → Pending) : Prop where
  manned : Manned f plan start state.system state.workers members writes
  indexes : ∀ i ∈ ((state.system.client f.client).catalog.collection ns).indexes, i.isUniqueSecondary = false
  place : (state.system.client f.client).autoCreate = true ∨
    ((state.system.client f.client).catalog.collection? ns).isSome
  stored : Lists (state.system.stored f.client ns) Place.bytes (Committed plan state.workers)
  inserts : ∀ worker, worker < plan.workers → (state.workers worker).Inserts ns plan writes worker
  tally : state.tally = { successful := closedScopes state.workers plan.workers, failed := 0 }

namespace Running

theorem within_of_committed (h : Running f ns plan start state members writes) {p : Place}
    (hp : Committed plan state.workers p) : p.Within plan :=
  ⟨hp.1, Nat.lt_of_lt_of_le hp.2.1 (h.manned.crew.onCourse p.worker hp.1).finished, hp.2.2⟩

theorem within_of_buffered (h : Running f ns plan start state members writes) (hworker : worker < plan.workers)
    {scope : Scope} (hscope : (state.workers worker).progress.scope? = some scope) {p : Place}
    (hp : (state.workers worker).Buffered plan worker p) : p.Within plan := by
  obtain ⟨rfl, hnumber, hoperation⟩ := hp
  refine ⟨hworker, ?_, Nat.lt_of_lt_of_le hoperation (h.inserts _ hworker).inserted⟩
  rw [hnumber]
  exact (h.manned.crew.onCourse _ hworker).active scope hscope

/-- In its open scope a worker sees the documents of all closed scopes and those that it has inserted. -/
theorem exists_view (h : Running f ns plan start state members writes) (hfits : plan.Fits)
    (hworker : worker < plan.workers) {scope : Scope}
    (hscope : (state.workers worker).progress.scope? = some scope)
    (hkey : (state.workers worker).key? = some key) :
    let c := state.system.client f.client
    (c.catalog.collection ns).Decodes ∧ Writes.Decode ((writes key).writesOf ns).entries ∧
      ∃ v, View.load c.catalog ns ((writes key).writesOf ns) c.seed = .ok v ∧ v.docs.Sorted ∧
        v.indexes = (c.catalog.collection ns).indexes ∧
        Lists v.docs Place.document fun p =>
          Committed plan state.workers p ∨ (state.workers worker).Buffered plan worker p := by
  intro c
  have hmem : key ∈ openKeys plan state.workers := mem_openKeys.2 ⟨worker, hworker, hkey⟩
  have hpending := h.manned.nested.valid_writes hmem
  have hcollection := h.manned.nested.valid.catalog.collection ns
  have hbuffered := (h.inserts worker hworker).buffered key hkey
  have hread (p : Place) (hp : Committed plan state.workers p ∨ (state.workers worker).Buffered plan worker p) :
      Document.decode? p.bytes = some p.document :=
    Place.decode?_bytes hfits (hp.elim h.within_of_committed (h.within_of_buffered hworker hscope))
  have hdecodes : (c.catalog.collection ns).Decodes :=
    h.stored.decodes hcollection.sorted fun p hp => hread p (.inl hp)
  have hdecode := hbuffered.decode (hpending.writesOf ns).sorted fun p hp => hread p (.inr hp)
  obtain ⟨v, hload⟩ : ∃ v, View.load c.catalog ns ((writes key).writesOf ns) c.seed = .ok v :=
    View.load_isOk_iff.2 ⟨hdecodes, hdecode⟩
  have hindexes : v.indexes = (c.catalog.collection ns).indexes := by
    obtain ⟨_, _, -, -, rfl⟩ := View.load_eq_ok_iff.1 hload
    rfl
  exact ⟨hdecodes, hdecode, v, hload, (View.valid_load hcollection (hpending.writesOf ns) hload).docs_sorted,
    hindexes, h.stored.shown hbuffered hread (View.find?_of_load (hpending.writesOf ns).sorted hload)⟩

/-! ## Turns -/

theorem moves (h : Running f ns plan start state members writes) {sys : System}
    {members' : TxKey → Option Member} {p : Pending} {progress : Progress}
    (hcatalog : (sys.client f.client).catalog = (state.system.client f.client).catalog)
    (hcreate : (sys.client f.client).autoCreate = (state.system.client f.client).autoCreate)
    (hmanned : Manned f plan start sys
      (Function.update state.workers worker { state.workers worker with progress := progress }) members'
      (Function.update writes key p))
    (hothers : ∀ other < plan.workers, other ≠ worker → (state.workers other).key? ≠ some key)
    (hinserts : ({ state.workers worker with progress := progress } : Worker).Inserts ns plan
      (Function.update writes key p) worker) :
    Running f ns plan start
      { state with
        system := sys
        workers := Function.update state.workers worker { state.workers worker with progress := progress } }
      members' (Function.update writes key p) := by
  have hfinished := finished_update state.workers worker progress
  refine ⟨hmanned, by rw [hcatalog]; exact h.indexes, by rw [hcatalog, hcreate]; exact h.place, ?_,
    forall_update (fun _ _ _ hw => hw.congr) h.inserts hinserts hothers, ?_⟩
  · have hstored : sys.stored f.client ns = state.system.stored f.client ns := Client.stored_of_eq hcatalog ns
    rw [hstored]
    exact h.stored.congr (committed_congr hfinished)
  · rw [closedScopes_congr hfinished]
    exact h.tally

theorem begins (h : Running f ns plan start state members writes) (hroot : f.root.transaction = none)
    (hworker : worker < plan.workers) (hactive : (state.workers worker).finished < plan.scopes)
    (hidle : (state.workers worker).progress = .idle) :
    ∃ members' writes', Running f ns plan start (state.step f ns plan worker) members' writes' := by
  obtain ⟨hkey, hclient, hothers, hmanned⟩ := h.manned.begins hroot hworker hactive hidle
  rw [State.step_begins f ns hworker hactive hidle]
  refine ⟨_, _, h.moves (congrArg Client.catalog hclient) (congrArg Client.autoCreate hclient) hmanned
    hothers ?_⟩
  have hown {key' : TxKey} (hkey' : (⟨(state.workers worker).finished, .working
      (state.system.begin f.root .required {}).1 0⟩ : Worker).key? = some key') :
      key' = state.system.transactions.length :=
    Option.some.inj (hkey'.symm.trans hkey)
  refine ⟨Nat.zero_le _, fun scope outcome hreturned => ?_, fun key' hkey' => ?_, fun key' hkey' ns' _ => ?_⟩
  · cases hreturned
  · rw [hown hkey', Function.update_self]
    exact (lists_empty _).congr fun p => iff_false_intro fun hp => Nat.not_lt_zero _ hp.2.2
  · rw [hown hkey', Function.update_self]
    rfl

/-- The next document is inserted: its identifier is free among the closed scopes and in the open one. -/
theorem insertsNext (h : Running f ns plan start state members writes) (hfits : plan.Fits)
    (hworker : worker < plan.workers) {scope : Scope} {inserted : Nat}
    (hprogress : (state.workers worker).progress = .working scope inserted)
    (hnext : inserted < plan.operations)
    (halive : ∀ key, (state.workers worker).key? = some key →
      (state.system.transaction key).isExpired state.system.clock = false) :
    ∃ members' writes', Running f ns plan start (state.step f ns plan worker) members' writes' := by
  have hscope : (state.workers worker).progress.scope? = some scope := congrArg Progress.scope? hprogress
  obtain ⟨hactive, key, hcx, hkey, -, hothers⟩ := h.manned.exists_key hworker hscope
  obtain ⟨-, -, v, hload, -, hindexes, hshown⟩ := h.exists_view hfits hworker hscope hkey
  let p : Place := ⟨worker, (state.workers worker).finished, inserted⟩
  have hinserted : (state.workers worker).progress.inserted plan = inserted :=
    congrArg (Progress.inserted plan) hprogress
  have hnot : ¬(state.workers worker).Buffered plan worker p := fun hp =>
    Nat.lt_irrefl inserted (Nat.lt_of_lt_of_eq hp.2.2 hinserted)
  have hfree : v.docs.find? p.id = none := hshown.find?_id_eq_none fun hp =>
    hp.elim (fun hcommitted => Nat.lt_irrefl _ hcommitted.2.1) hnot
  obtain ⟨hreply, hchanges⟩ := Client.replyOver_insertOne hload (by rw [hindexes]; exact h.indexes) h.place
    p.id?_document hfree
  have hordered : (Request.documents { ns := ns } (.insertOne p.document)).Ordered :=
    ⟨trivial, p.ordered_document⟩
  obtain ⟨hcatalog, hcalled, members', hmanned⟩ := h.manned.calls hworker hscope hcx hordered
    (show (Progress.working scope (inserted + 1)).scope? = some scope from rfl)
  have hcreate := hmanned.starts.autoCreate.trans h.manned.starts.autoCreate.symm
  rw [hreply] at hcalled
  rw [hchanges] at hmanned
  have hstep := State.step_inserts f ns hworker hactive hprogress hnext
  rw [insertNext] at hstep
  have hop : DocumentOp.insertOne (document worker (state.workers worker).finished inserted) =
      .insertOne p.document := rfl
  rw [hop] at hstep
  generalize state.system.requestThrough f.client f.binding scope.context
    (.documents { ns := ns } (.insertOne p.document)) = called at *
  obtain ⟨outcome, sys⟩ := called
  obtain rfl : outcome = .ok (.id p.id) :=
    hcalled.resolve_left fun hexpired => by cases (halive key hkey).symm.trans hexpired.1
  rw [hstep]
  refine ⟨members', _, h.moves hcatalog hcreate hmanned hothers
    ⟨hnext, fun _ _ hreturned => (by cases hreturned), fun key' hkey' => ?_, fun key' hkey' ns' hns => ?_⟩⟩ <;>
    obtain rfl : key' = key := Option.some.inj (hkey'.symm.trans hcx)
  · rw [Function.update_self]
    refine Lists.congr (Lists.record ((h.inserts worker hworker).buffered key' hkey) hnot) fun q => ?_
    obtain ⟨worker', scope', operation⟩ := q
    unfold Worker.Buffered
    rw [hinserted]
    simp only [Progress.inserted, p, Place.mk.injEq]
    omega
  · rw [Function.update_self]
    show (((writes key').record ns [(p.id, p.insertion)]).writesOf ns').entries = []
    rw [Pending.writesOf_record_of_ne _ hns]
    exact (h.inserts worker hworker).elsewhere key' hkey ns' hns

theorem counts (h : Running f ns plan start state members writes) (hfits : plan.Fits)
    (hworker : worker < plan.workers) {scope : Scope} {inserted : Nat}
    (hprogress : (state.workers worker).progress = .working scope inserted)
    (hlast : ¬inserted < plan.operations)
    (halive : ∀ key, (state.workers worker).key? = some key →
      (state.system.transaction key).isExpired state.system.clock = false) :
    ∃ members' writes', Running f ns plan start (state.step f ns plan worker) members' writes' := by
  have hscope : (state.workers worker).progress.scope? = some scope := congrArg Progress.scope? hprogress
  obtain ⟨hactive, key, hcx, hkey, -, hothers⟩ := h.manned.exists_key hworker hscope
  obtain ⟨-, -, v, hload, hsorted, -, hshown⟩ := h.exists_view hfits hworker hscope hkey
  have hall : (state.workers worker).progress.inserted plan = plan.operations := by
    have hle := (h.inserts worker hworker).inserted
    rw [hprogress] at hle ⊢
    exact Nat.le_antisymm hle (Nat.le_of_not_lt hlast)
  have hcount : (v.matching (own worker)).length =
      ((state.workers worker).finished + 1) * plan.operations := by
    rw [length_matching hsorted hshown (nodup_placesOf worker ((state.workers worker).finished + 1)
      plan.operations) fun p => ?_, length_placesOf]
    rw [mem_placesOf]
    constructor
    · rintro ⟨rfl, hnumber, hoperation⟩
      refine ⟨?_, (Place.accepts_own hfits hworker hworker).2 rfl⟩
      rcases Nat.lt_succ_iff_lt_or_eq.1 hnumber with hnumber | hnumber
      · exact .inl ⟨hworker, hnumber, hoperation⟩
      · exact .inr ⟨rfl, hnumber, by rw [hall]; exact hoperation⟩
    · rintro ⟨hcommitted | ⟨hown, hnumber, hoperation⟩, haccepts⟩
      · have hown := (Place.accepts_own hfits hcommitted.1 hworker).1 haccepts
        have hnumber := hcommitted.2.1
        rw [hown] at hnumber
        exact ⟨hown, Nat.lt_succ_of_lt hnumber, hcommitted.2.2⟩
      · rw [hall] at hoperation
        exact ⟨hown, hnumber ▸ Nat.lt_succ_self _, hoperation⟩
  obtain ⟨hreply, hchanges⟩ := Client.replyOver_count hload (own worker)
  have hordered : (Request.documents { ns := ns } (.count (own worker))).Ordered := ⟨trivial, trivial⟩
  obtain ⟨hcatalog, hcalled, members', hmanned⟩ := h.manned.calls hworker hscope hcx hordered
    (show (Progress.returned scope (.ok ())).scope? = some scope from rfl)
  have hcreate := hmanned.starts.autoCreate.trans h.manned.starts.autoCreate.symm
  rw [hreply, hcount] at hcalled
  rw [hchanges] at hmanned
  have hstep := State.step_counts f ns hworker hactive hprogress hlast
  rw [countOwn] at hstep
  generalize state.system.requestThrough f.client f.binding scope.context
    (.documents { ns := ns } (.count (own worker))) = called at *
  obtain ⟨outcome, sys⟩ := called
  obtain rfl : outcome = .ok (.count (((state.workers worker).finished + 1) * plan.operations)) :=
    hcalled.resolve_left fun hexpired => by cases (halive key hkey).symm.trans hexpired.1
  dsimp only [checkSeen] at hstep
  rw [if_pos rfl] at hstep
  rw [hstep]
  refine ⟨members', _, h.moves hcatalog hcreate hmanned hothers
    ⟨Nat.le_refl _, fun scope' outcome hreturned => ?_, fun key' hkey' => ?_, fun key' hkey' => ?_⟩⟩
  · cases hreturned
    rfl
  · obtain rfl : key' = key := Option.some.inj (hkey'.symm.trans hcx)
    rw [Function.update_self]
    refine Lists.congr ((h.inserts worker hworker).buffered key' hkey) fun p => ?_
    unfold Worker.Buffered
    rw [hall]
    exact Iff.rfl
  · obtain rfl : key' = key := Option.some.inj (hkey'.symm.trans hcx)
    rw [Function.update_self]
    exact (h.inserts worker hworker).elsewhere key' hkey

/-- A scope is closed: no identifier that it has inserted is taken by now, so its documents are committed. -/
theorem closes (h : Running f ns plan start state members writes) (hfits : plan.Fits)
    (hworker : worker < plan.workers) {scope : Scope} {result : Except TxError Unit}
    (hprogress : (state.workers worker).progress = .returned scope result)
    (halive : ∀ key, (state.workers worker).key? = some key →
      (state.system.transaction key).isExpired state.system.clock = false) :
    ∃ members' writes', Running f ns plan start (state.step f ns plan worker) members' writes' := by
  have hscope : (state.workers worker).progress.scope? = some scope := congrArg Progress.scope? hprogress
  obtain ⟨hactive, key, hcx, hkey, hmem, -⟩ := h.manned.exists_key hworker hscope
  obtain ⟨hdecodes, hdecode, -⟩ := h.exists_view hfits hworker hscope hkey
  have hall : (state.workers worker).progress.inserted plan = plan.operations :=
    congrArg (Progress.inserted plan) hprogress
  have hpending := h.manned.nested.valid_writes hmem
  have hinserts := h.inserts worker hworker
  have hbuffered := hinserts.buffered key hkey
  obtain rfl := hinserts.outcome scope result hprogress
  obtain ⟨hcatalog, hok, hmanned⟩ := h.manned.closes hworker hprogress hcx
  rw [halive key hkey] at hcatalog hok
  have haccepted : ((state.system.client f.client).catalog.commit (state.system.client f.client).autoCreate
      (writes key)).1 = .ok () := by
    refine Catalog.commit_of_insertions hpending (hinserts.elsewhere key hkey) h.indexes h.place hdecodes
      hdecode fun e he => ?_
    obtain ⟨p, hp, hid, -⟩ := (hbuffered _ _).1 ((hpending.writesOf ns).sorted.find?_eq_some_iff.2 he)
    rw [← hid]
    refine h.stored.find?_id_eq_none fun hcommitted => ?_
    obtain ⟨rfl, hnumber, -⟩ := hp
    exact Nat.lt_irrefl _ (hnumber ▸ hcommitted.2.1)
  obtain ⟨hchanged, -⟩ := Catalog.commit_of_ok hpending.sorted haccepted ns
  have hstep := State.step_closes f ns hworker hactive hprogress
  generalize state.system.finish scope (.ok () : Except TxError Unit) = finished at *
  obtain ⟨outcome, sys⟩ := finished
  obtain rfl : outcome = .ok () := by
    cases outcome with
    | ok u => rfl
    | error e => cases hok.2 ⟨rfl, haccepted⟩
  let c := state.system.client f.client
  have hafter : (sys.client f.client).catalog.collection? ns =
      Catalog.changed ((writes key).writesOf ns).entries (c.catalog.collection? ns) :=
    (congrArg (fun catalog => catalog.collection? ns) hcatalog).trans hchanged
  have hcollection : (sys.client f.client).catalog.collection ns =
      ((writes key).writesOf ns).entries.foldl Collection.applyChange (c.catalog.collection ns) := by
    unfold Catalog.collection
    rw [hafter, Catalog.getD_changed]
  rw [Collection.foldl_applyChange] at hcollection
  rw [hstep]
  refine ⟨members, writes, hmanned, ?_, ?_, ?_, ?_, ?_⟩
  · rw [hcollection]
    exact h.indexes
  · rw [hafter, hmanned.starts.autoCreate, ← h.manned.starts.autoCreate]
    refine h.place.imp_right fun hsome => ?_
    unfold Catalog.changed
    split
    · exact hsome
    · rfl
  · have hstored : sys.stored f.client ns =
        Changes.written ((writes key).writesOf ns).entries (state.system.stored f.client ns) :=
      congrArg Collection.stored hcollection
    rw [hstored]
    refine (h.stored.written hbuffered (hpending.writesOf ns).sorted).congr ?_
    exact committed_update hworker hall rfl
  · exact (Function.forall_update_iff state.workers
      (p := fun other w => other < plan.workers → w.Inserts ns plan writes other)).2
      ⟨fun _ => Worker.inserts_of_idle rfl, fun other _ => h.inserts other⟩
  · dsimp only [Option.elim_some, Tally.add]
    rw [closedScopes_update hworker rfl, h.tally]

/-! ## Plays -/

theorem waits (h : Running f ns plan start state members writes) (seconds : Nat) :
    Running f ns plan start (state.after f ns plan (.wait seconds)) members writes :=
  { h with manned := h.manned.waits seconds }

end Running

def State.inTime (plan : Plan) (state : State) : Bool :=
  (List.range plan.workers).all fun worker =>
    (state.workers worker).key?.all fun key => !(state.system.transaction key).isExpired state.system.clock

def State.timely (f : Fixture) (ns : Namespace) (plan : Plan) : List Turn → State → Bool
  | [], _ => true
  | turn :: rest, state => state.inTime plan && timely f ns plan rest (state.after f ns plan turn)

theorem State.isExpired_of_inTime (h : state.inTime plan = true) (hworker : worker < plan.workers)
    (hkey : (state.workers worker).key? = some key) :
    (state.system.transaction key).isExpired state.system.clock = false := by
  have halive := List.all_eq_true.1 h worker (List.mem_range.2 hworker)
  rw [hkey] at halive
  exact Bool.not_eq_true' _ ▸ halive

namespace Running

theorem after (h : Running f ns plan start state members writes) (hroot : f.root.transaction = none)
    (hfits : plan.Fits) (htime : state.inTime plan = true) (turn : Turn) :
    ∃ members' writes', Running f ns plan start (state.after f ns plan turn) members' writes' := by
  cases turn with
  | wait seconds => exact ⟨members, writes, h.waits seconds⟩
  | step worker =>
    show ∃ members' writes', Running f ns plan start (state.step f ns plan worker) members' writes'
    by_cases hactive : worker < plan.workers ∧ (state.workers worker).finished < plan.scopes
    · have halive (key : TxKey) (hkey : (state.workers worker).key? = some key) :
          (state.system.transaction key).isExpired state.system.clock = false :=
        State.isExpired_of_inTime htime hactive.1 hkey
      cases hprogress : (state.workers worker).progress with
      | idle => exact h.begins hroot hactive.1 hactive.2 hprogress
      | working scope inserted =>
        by_cases hnext : inserted < plan.operations
        · exact h.insertsNext hfits hactive.1 hprogress hnext halive
        · exact h.counts hfits hactive.1 hprogress hnext halive
      | returned scope result => exact h.closes hfits hactive.1 hprogress halive
    · have hsame : state.step f ns plan worker = state := if_neg hactive
      rw [hsame]
      exact ⟨members, writes, h⟩

theorem play (h : Running f ns plan start state members writes) (hroot : f.root.transaction = none)
    (hfits : plan.Fits) {turns : List Turn} (htime : state.timely f ns plan turns = true) :
    ∃ members' writes', Running f ns plan start (state.play f ns plan turns) members' writes' := by
  induction turns generalizing state members writes with
  | nil => exact ⟨members, writes, h⟩
  | cons turn rest ih =>
    obtain ⟨hnow, hlater⟩ := Bool.and_eq_true_iff.1 htime
    obtain ⟨members', writes', hnext⟩ := h.after hroot hfits hnow turn
    exact ih hnext hlater

end Running

end Stress

end ScopedStore
