import ScopedStore.Proofs.Scope.Nested
import ScopedStore.Proofs.Stress.Interleaving

/-!
# What workers have open

Between two turns each worker has at most one transaction open, that of its scope, and no two workers have one in
common (`Crew`). The system knows of these transactions, and otherwise has the sessions and slots that it had when
the workers started (`Manned`). Each kind of step keeps this up and says what it does to the catalog, whatever the
documents are: a scope is begun, an operation is made in it, and it is closed.
-/

namespace ScopedStore

namespace Stress

variable {f : Fixture} {plan : Plan} {start sys : System} {workers workers' : Nat → Worker}
  {members : TxKey → Option Member} {writes : TxKey → Pending} {worker : Nat} {w : Worker}
  {key : TxKey} {scope : Scope}

/-! ## The workers -/

def openKeys (plan : Plan) (workers : Nat → Worker) : List TxKey :=
  (List.range plan.workers).filterMap fun worker => (workers worker).key?

theorem mem_openKeys :
    key ∈ openKeys plan workers ↔ ∃ worker < plan.workers, (workers worker).key? = some key := by
  rw [openKeys, List.mem_filterMap]
  simp only [List.mem_range]

theorem openKeys_congr (h : ∀ worker, (workers' worker).key? = (workers worker).key?) :
    openKeys plan workers' = openKeys plan workers :=
  congrArg (fun keys => (List.range plan.workers).filterMap keys) (funext h)

theorem Worker.key?_eq (h : w.progress.scope? = some scope) : w.key? = scope.context.transaction := by
  rw [Worker.key?, h, Option.bind_some]

theorem Worker.key?_of_idle (h : w.progress = .idle) : w.key? = none := by
  rw [Worker.key?, h]
  rfl

theorem mem_openKeys_update (hworker : worker < plan.workers) :
    key ∈ openKeys plan (Function.update workers worker w) ↔
      w.key? = some key ∨ ∃ other < plan.workers, other ≠ worker ∧ (workers other).key? = some key := by
  rw [mem_openKeys]
  constructor
  · rintro ⟨other, hother, hkey⟩
    by_cases hsame : other = worker
    · rw [hsame, Function.update_self] at hkey
      exact .inl hkey
    · rw [Function.update_of_ne hsame] at hkey
      exact .inr ⟨other, hother, hsame, hkey⟩
  · rintro (hkey | ⟨other, hother, hne, hkey⟩)
    · exact ⟨worker, hworker, by rw [Function.update_self]; exact hkey⟩
    · exact ⟨other, hother, by rw [Function.update_of_ne hne]; exact hkey⟩

/-- A worker has closed no more than its scopes, and while one is open it has closed fewer. The open one has
started a transaction. -/
structure Worker.OnCourse (plan : Plan) (w : Worker) : Prop where
  finished : w.finished ≤ plan.scopes
  active : ∀ scope, w.progress.scope? = some scope → w.finished < plan.scopes
  owned : ∀ scope, w.progress.scope? = some scope →
    scope.owns = true ∧ ∃ key, scope.context.transaction = some key

theorem Worker.onCourse_of_idle (hfinished : w.finished ≤ plan.scopes) (hidle : w.progress = .idle) :
    w.OnCourse plan := by
  have hnone (scope : Scope) : w.progress.scope? ≠ some scope := by
    rw [hidle]
    exact nofun
  exact ⟨hfinished, fun scope hscope => absurd hscope (hnone scope), fun scope hscope =>
    absurd hscope (hnone scope)⟩

/-- Workers that are on course, each open scope with a transaction of its own. -/
structure Crew (plan : Plan) (workers : Nat → Worker) : Prop where
  onCourse : ∀ worker, worker < plan.workers → (workers worker).OnCourse plan
  apart : ∀ worker < plan.workers, ∀ other < plan.workers, ∀ key,
    (workers worker).key? = some key → (workers other).key? = some key → other = worker

theorem Crew.init (plan : Plan) : Crew plan fun _ => {} :=
  ⟨fun _ _ => Worker.onCourse_of_idle (Nat.zero_le _) rfl, fun _ _ _ _ _ hkey => by cases hkey⟩

theorem Crew.update (h : Crew plan workers) (hw : w.OnCourse plan)
    (hapart : ∀ key, w.key? = some key → ∀ other < plan.workers, other ≠ worker →
      (workers other).key? ≠ some key) : Crew plan (Function.update workers worker w) := by
  refine ⟨(Function.forall_update_iff workers (p := fun other w => other < plan.workers → w.OnCourse plan)).2
    ⟨fun _ => hw, fun other _ => h.onCourse other⟩, fun a ha b hb key => ?_⟩
  by_cases hsame : a = worker <;> by_cases hsame' : b = worker
  · exact fun _ _ => hsame'.trans hsame.symm
  · rw [hsame, Function.update_self, Function.update_of_ne hsame']
    exact fun hkey hkey' => absurd hkey' (hapart key hkey b hb hsame')
  · rw [hsame', Function.update_self, Function.update_of_ne hsame]
    exact fun hkey hkey' => absurd hkey (hapart key hkey' a ha hsame)
  · rw [Function.update_of_ne hsame, Function.update_of_ne hsame']
    exact h.apart a ha b hb key

/-- What holds of each worker with what its own transaction has buffered still holds after one of them has changed
with its transaction, which no other one has. -/
theorem forall_update {P : (TxKey → Pending) → Nat → Worker → Prop}
    (hcongr : ∀ other w writes', P writes other w →
      (∀ key, w.key? = some key → writes' key = writes key) → P writes' other w)
    (h : ∀ other, other < plan.workers → P writes other (workers other)) {p : Pending}
    (hw : P (Function.update writes key p) worker w)
    (hothers : ∀ other < plan.workers, other ≠ worker → (workers other).key? ≠ some key) (other : Nat)
    (hother : other < plan.workers) :
    P (Function.update writes key p) other (Function.update workers worker w other) := by
  by_cases hsame : other = worker
  · rw [hsame, Function.update_self]
    exact hw
  · rw [Function.update_of_ne hsame]
    refine hcongr other _ _ (h other hother) fun key' hkey' => Function.update_of_ne ?_ ..
    rintro rfl
    exact hothers other hother hsame hkey'

/-! ## The system -/

/-- The workers have their scopes open in a system that was another one when they started. -/
structure Manned (f : Fixture) (plan : Plan) (start sys : System) (workers : Nat → Worker)
    (members : TxKey → Option Member) (writes : TxKey → Pending) : Prop where
  crew : Crew plan workers
  ground : start.Serves f.registry f.client
  nested : sys.Nested f.client f.registry (openKeys plan workers) members writes
  longer : start.transactions.length ≤ sys.transactions.length
  later : ∀ key ∈ openKeys plan workers, start.transactions.length ≤ key
  undoomed : ∀ key ∈ openKeys plan workers, (sys.transaction key).doomed = none
  slots : ∀ key, key ∉ openKeys plan workers →
    (sys.registry f.registry).slots.find? key = (start.registry f.registry).slots.find? key
  starts : Client.Starts
    (fun id => ∃ key ∈ openKeys plan workers, ∃ m, members key = some m ∧ m.session.id = id)
    (start.client f.client) (sys.client f.client)

namespace Manned

theorem exists_key (h : Manned f plan start sys workers members writes) (hworker : worker < plan.workers)
    (hscope : (workers worker).progress.scope? = some scope) :
    (workers worker).finished < plan.scopes ∧
      ∃ key, scope.context.transaction = some key ∧ (workers worker).key? = some key ∧
        key ∈ openKeys plan workers ∧
        ∀ other < plan.workers, other ≠ worker → (workers other).key? ≠ some key := by
  have hcourse := h.crew.onCourse worker hworker
  obtain ⟨-, key, hkey⟩ := hcourse.owned scope hscope
  have hown := (Worker.key?_eq hscope).trans hkey
  exact ⟨hcourse.active scope hscope, key, hkey, hown, mem_openKeys.2 ⟨worker, hworker, hown⟩,
    fun other hother hne hother' => hne (h.crew.apart worker hworker other hother key hown hother')⟩

theorem init (hserves : sys.Serves f.registry f.client) (hvalid : (sys.client f.client).Valid)
    (hunarmed : (sys.client f.client).Unarmed) (plan : Plan) :
    Manned f plan sys sys (fun _ => {}) (fun _ => none) fun _ => ∅ := by
  have hnone : openKeys plan (fun _ => {}) = [] := List.filterMap_eq_nil_iff.2 fun _ _ => rfl
  refine ⟨.init plan, hserves, ⟨hserves, hvalid, hunarmed, ?_, ?_⟩, Nat.le_refl _, ?_, ?_, fun _ _ => rfl,
    .refl _⟩ <;>
    · rw [hnone]
      exact fun _ hmem => absurd hmem List.not_mem_nil

theorem waits (h : Manned f plan start sys workers members writes) (seconds : Nat) :
    Manned f plan start { sys with clock := sys.clock + seconds } workers members writes :=
  { h with nested := h.nested.wait seconds }

theorem begins (h : Manned f plan start sys workers members writes) (hroot : f.root.transaction = none)
    (hworker : worker < plan.workers) (hactive : (workers worker).finished < plan.scopes)
    (hidle : (workers worker).progress = .idle) :
    let begun := sys.begin f.root .required {}
    let key := sys.transactions.length
    begun.1.context.transaction = some key ∧ begun.2.client f.client = sys.client f.client ∧
      (∀ other < plan.workers, other ≠ worker → (workers other).key? ≠ some key) ∧
      Manned f plan start begun.2
        (Function.update workers worker { workers worker with progress := .working begun.1 0 })
        (Function.update members key none) (Function.update writes key ∅) := by
  intro begun key
  let t : Transaction :=
    { options := f.root.config.transaction
      deadline := deadline sys.clock (f.root.config.effectiveTimeout none) }
  let w : Worker :=
    { workers worker with
      progress := .working { context := f.root.within key, option := .required, owns := true } 0 }
  have hbegun : begun =
      ({ context := f.root.within key, option := .required, owns := true }, (sys.addTransaction t).2) := by
    show sys.begin f.root .required {} = _
    unfold System.begin
    dsimp only
    rw [hroot]
    rfl
  have hlt (key' : TxKey) (hkey' : key' ∈ openKeys plan workers) : key' < key :=
    (h.nested.carries key' hkey').tx_lt
  have hothers (other : Nat) (hother : other < plan.workers) (_ : other ≠ worker) :
      (workers other).key? ≠ some key := fun hkey =>
    Nat.lt_irrefl _ (hlt key (mem_openKeys.2 ⟨other, hother, hkey⟩))
  have hkeys (key' : TxKey) :
      key' ∈ openKeys plan (Function.update workers worker w) ↔ key' = key ∨ key' ∈ openKeys plan workers := by
    rw [mem_openKeys_update hworker, mem_openKeys]
    constructor
    · rintro (hown | ⟨other, hother, -, hkey'⟩)
      · exact .inl (Option.some.inj hown).symm
      · exact .inr ⟨other, hother, hkey'⟩
    · rintro (rfl | ⟨other, hother, hkey'⟩)
      · exact .inl rfl
      · refine .inr ⟨other, hother, fun hsame => ?_, hkey'⟩
        rw [hsame, Worker.key?_of_idle hidle] at hkey'
        cases hkey'
  have hrow (key' : TxKey) (hkey' : key' ∈ openKeys plan workers) :
      (sys.addTransaction t).2.transaction key' = sys.transaction key' :=
    System.getD_append_of_lt (hlt key' hkey') [t] default
  have hnested := (h.nested.restrict (fun _ => id)
    (fun key' hkey' => Function.update_of_ne (Nat.ne_of_lt (hlt key' hkey')) ∅ writes)).start
    (t := t) rfl rfl (Function.update_self ..)
  rw [hbegun]
  have hcrew : Crew plan (Function.update workers worker w) := by
    refine h.crew.update ⟨Nat.le_of_lt hactive, fun _ _ => hactive, fun scope hscope => ?_⟩
      fun key' hkey' => ?_
    · obtain rfl := Option.some.inj hscope
      exact ⟨rfl, key, rfl⟩
    · obtain rfl : key = key' := Option.some.inj hkey'
      exact hothers
  refine ⟨rfl, rfl, hothers, hcrew, h.ground, hnested.restrict (fun key' hkey' => ?_) (fun _ _ => rfl), ?_,
    fun key' hkey' => ?_, fun key' hkey' => ?_, fun key' hkey' => ?_, h.starts.mono ?_⟩
  · exact List.mem_cons.2 ((hkeys key').1 hkey')
  · show start.transactions.length ≤ (sys.transactions ++ [t]).length
    rw [List.length_append]
    exact Nat.le_trans h.longer (Nat.le_add_right _ _)
  · rcases (hkeys key').1 hkey' with rfl | hkey'
    · exact h.longer
    · exact h.later key' hkey'
  · rcases (hkeys key').1 hkey' with rfl | hkey'
    · rw [show (sys.addTransaction t).2.transaction key = t from sys.transaction_addTransaction t]
    · rw [hrow key' hkey']
      exact h.undoomed key' hkey'
  · exact h.slots key' fun hmem => hkey' ((hkeys key').2 (.inr hmem))
  · rintro id ⟨key', hkey', m, hm, hid⟩
    refine ⟨key', (hkeys key').2 (.inr hkey'), m, ?_, hid⟩
    rw [Function.update_of_ne (Nat.ne_of_lt (hlt key' hkey')), hm]

/-- A worker makes an operation in its scope. Unless the transaction has expired, the operation replies as it does
over what the transaction has buffered, and what it changes is buffered then. -/
theorem calls (h : Manned f plan start sys workers members writes) (hworker : worker < plan.workers)
    (hscope : (workers worker).progress.scope? = some scope) (hkey : scope.context.transaction = some key)
    {handle : Handle} {op : DocumentOp} (hr : (Request.documents handle op).Ordered) {progress : Progress}
    (hprogress : progress.scope? = some scope) :
    let c := sys.client f.client
    let called := sys.requestThrough f.client f.binding scope.context (.documents handle op)
    (called.2.client f.client).catalog = c.catalog ∧
      (((sys.transaction key).isExpired sys.clock = true ∧ called.1.isOk = false) ∨
        called.1 = (c.replyOver (writes key) handle op).mapError .store) ∧
      ∃ members', Manned f plan start called.2
        (Function.update workers worker { workers worker with progress := progress }) members'
        (Function.update writes key
          (if called.1.isOk then (writes key).record handle.ns (c.changesOver (writes key) handle op)
          else writes key)) := by
  intro c called
  obtain ⟨hactive, key', hkey', -, hmem, hothers⟩ := h.exists_key hworker hscope
  obtain rfl : key = key' := Option.some.inj (hkey.symm.trans hkey')
  have hkeys : openKeys plan
      (Function.update workers worker { workers worker with progress := progress }) =
      openKeys plan workers := by
    refine openKeys_congr fun other => ?_
    by_cases hsame : other = worker
    · rw [hsame, Function.update_self, Worker.key?_eq hscope, Worker.key?_eq hprogress]
    · rw [Function.update_of_ne hsame]
  obtain ⟨hcatalog, hfates, members', hnested, hacts, hreply⟩ := h.nested.calls hmem hkey hr
  have hstarts : Client.Starts
      (fun id => ∃ key ∈ openKeys plan workers, ∃ m, members' key = some m ∧ m.session.id = id)
      (start.client f.client) (sys.client f.client) := by
    refine h.starts.mono ?_
    rintro id ⟨key', hkey', m, hm, hid⟩
    refine ⟨key', hkey', m, ?_, hid⟩
    by_cases hsame : key' = key
    · rw [hsame] at hm ⊢
      exact hacts.kept m hm
    · rw [hacts.others key' hsame, hm]
  have hcourse := h.crew.onCourse worker hworker
  have hcrew : Crew plan
      (Function.update workers worker { workers worker with progress := progress }) := by
    refine h.crew.update ⟨hcourse.finished, fun _ _ => hactive, fun scope' hscope' => ?_⟩ fun key' hkey' => ?_
    · obtain rfl := Option.some.inj (hprogress.symm.trans hscope')
      exact hcourse.owned scope hscope
    · obtain rfl : key = key' := Option.some.inj (hkey.symm.trans ((Worker.key?_eq hprogress).symm.trans hkey'))
      exact hothers
  refine ⟨hcatalog, hreply, members', hcrew, h.ground, ?_,
    Nat.le_trans h.longer (Nat.le_of_eq hfates.transactions.symm), ?_, fun key' hkey' => ?_,
    fun key' hkey' => ?_, ?_⟩
  · rw [hkeys]
    exact hnested
  · rw [hkeys]
    exact h.later
  · rw [hkeys] at hkey'
    exact (hfates.doomed key').trans (h.undoomed key' hkey')
  · rw [hkeys] at hkey'
    exact (hacts.slots key' fun hsame => hkey' (hsame ▸ hmem)).trans (h.slots key' hkey')
  · rw [hkeys]
    exact hstarts.trans (hacts.starts.mono fun id ⟨m, hm, hid⟩ => ⟨key, hmem, m, hm, hid⟩)

/-- A worker closes its scope. The catalog takes what was written in the scope if the body succeeded in time, and
else keeps what it has. -/
theorem closes (h : Manned f plan start sys workers members writes) (hworker : worker < plan.workers)
    {result : Except TxError Unit} (hreturned : (workers worker).progress = .returned scope result)
    (hkey : scope.context.transaction = some key) :
    let c := sys.client f.client
    let finished := sys.finish scope result
    let commits := result.isOk && !(sys.transaction key).isExpired sys.clock
    (finished.2.client f.client).catalog =
        (if commits then (c.catalog.commit c.autoCreate (writes key)).2 else c.catalog) ∧
      (finished.1.isOk = true ↔
        commits = true ∧ (c.catalog.commit c.autoCreate (writes key)).1 = .ok ()) ∧
      Manned f plan start finished.2
        (Function.update workers worker { finished := (workers worker).finished + 1 }) members writes := by
  intro c finished commits
  have hscope : (workers worker).progress.scope? = some scope := congrArg Progress.scope? hreturned
  obtain ⟨hactive, key', hkey', hown, hmem, hothers⟩ := h.exists_key hworker hscope
  obtain rfl : key = key' := Option.some.inj (hkey.symm.trans hkey')
  let done : Scope := { scope with completed := result.isOk }
  let left := openKeys plan (Function.update workers worker { finished := (workers worker).finished + 1 })
  have hkeys (key' : TxKey) : key' ∈ left ↔ key' ∈ openKeys plan workers ∧ key' ≠ key := by
    rw [mem_openKeys_update hworker, mem_openKeys]
    constructor
    · rintro (hnone | ⟨other, hother, hne, hkey'⟩)
      · cases hnone
      · exact ⟨⟨other, hother, hkey'⟩, fun hsame => hothers other hother hne (hsame ▸ hkey')⟩
    · rintro ⟨⟨other, hother, hkey'⟩, hne⟩
      refine .inr ⟨other, hother, fun hsame => hne ?_, hkey'⟩
      exact Option.some.inj (hkey'.symm.trans (hsame ▸ hown))
  have hnested : sys.Nested f.client f.registry (key :: left) members writes :=
    h.nested.restrict (fun key' hkey' => (List.mem_cons.1 hkey').elim (fun hsame => hsame ▸ hmem) fun hleft =>
      ((hkeys key').1 hleft).1) fun _ _ => rfl
  obtain ⟨hclosed, hretires, hlength, hdoomed, hcatalog, -, hsucceeds⟩ :=
    hnested.closes (fun hleft => ((hkeys key).1 hleft).2 rfl)
      (show done.context.transaction = some key from hkey)
      ((h.crew.onCourse worker hworker).owned scope hscope).1
  have hcommits : sys.commitsOn key done = commits := by
    rw [System.commitsOn, h.undoomed key hmem]
    exact Bool.and_true _
  rw [hcommits] at hcatalog hsucceeds
  have hcrew : Crew plan (Function.update workers worker { finished := (workers worker).finished + 1 }) :=
    h.crew.update (Worker.onCourse_of_idle hactive rfl) fun key' hnone => by cases hnone
  refine ⟨hcatalog, ?_, hcrew, h.ground, hclosed, ?_,
    fun key' hkey' => h.later key' ((hkeys key').1 hkey').1, fun key' hkey' => ?_, fun key' hkey' => ?_, ?_⟩
  · rw [System.isOk_finish]
    exact hsucceeds
  · exact Nat.le_trans h.longer (Nat.le_of_eq hlength.symm)
  · rw [show (finished.2.transaction key').doomed = _ from hdoomed key' hkey']
    exact h.undoomed key' ((hkeys key').1 hkey').1
  · by_cases hsame : key' = key
    · -- the transaction is younger than the start, where it had no slot
      have hnone : (start.registry f.registry).slots.find? key' = none := by
        cases hslot : (start.registry f.registry).slots.find? key' with
        | none => rfl
        | some slot =>
          have hlater := h.later key hmem
          rw [← hsame] at hlater
          exact absurd (h.ground.started key' slot hslot) (Nat.not_lt.2 hlater)
      rw [hnone, hsame]
      exact hretires.slot
    · exact (hretires.slots key' hsame).trans
        (h.slots key' fun hopen => hkey' ((hkeys key').2 ⟨hopen, hsame⟩))
  · refine ⟨hretires.starts.autoCreate.trans h.starts.autoCreate, fun id hid => ?_, fun hbalances =>
      hretires.starts.balances (h.starts.balances hbalances)⟩
    rcases hretires.starts.running id hid with hran | hnever
    · refine (h.starts.running id hran).imp_right ?_
      rintro ⟨key', hkey', m, hm, rfl⟩
      refine ⟨key', (hkeys key').2 ⟨hkey', fun hsame => ?_⟩, m, hm, rfl⟩
      have hended := hretires.ended m (hsame ▸ hm)
      cases hended.symm.trans hid
    · exact hnever.elim

end Manned

/-! ## The end -/

/-- No session runs and no slot is kept but those that were there from the start. -/
structure Leaves (f : Fixture) (start sys : System) : Prop where
  sessions : ∀ id, (sys.client f.client).ended? id = some false →
    (start.client f.client).ended? id = some false
  open_eq_zero : (start.client f.client).stats.openSessions = 0 →
    (sys.client f.client).stats.openSessions = 0
  slots : ∀ key, (sys.registry f.registry).slots.find? key = (start.registry f.registry).slots.find? key

theorem Manned.leaves (h : Manned f plan start sys workers members writes)
    (hfinished : ∀ worker < plan.workers, (workers worker).finished = plan.scopes)
    (hbalances : (start.client f.client).Balances) : Leaves f start sys := by
  have hnone : openKeys plan workers = [] := by
    refine List.filterMap_eq_nil_iff.2 fun worker hworker => ?_
    have hworker := List.mem_range.1 hworker
    cases hscope : (workers worker).progress.scope? with
    | none =>
      rw [Worker.key?, hscope]
      rfl
    | some scope =>
      have hactive := (h.crew.onCourse worker hworker).active scope hscope
      exact absurd (hfinished worker hworker) (Nat.ne_of_lt hactive)
  have hslots := h.slots
  have hstarts := h.starts
  rw [hnone] at hslots hstarts
  have hsessions (id : SessionId) (hid : (sys.client f.client).ended? id = some false) :
      (start.client f.client).ended? id = some false :=
    (hstarts.running id hid).resolve_right fun ⟨key, hkey, _⟩ => absurd hkey List.not_mem_nil
  refine ⟨hsessions, fun hzero => ?_, fun key => hslots key List.not_mem_nil⟩
  rw [hbalances.openSessions_eq_zero_iff] at hzero
  rw [(hstarts.balances hbalances).openSessions_eq_zero_iff]
  exact fun id hid => hzero id (hsessions id hid)

end Stress

end ScopedStore
