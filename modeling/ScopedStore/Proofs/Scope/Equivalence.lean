import ScopedStore.Proofs.Client.Simulation
import ScopedStore.Proofs.Scope.Completion

/-!
# Running inside a committed scope

The same operations go through a registry's facade twice, once in a context without a transaction and
once in the context of a new scope, which is then completed and closed. The scope's transaction gets
its lease at the first operation; from then on its session has buffered what the other run has applied
(`Tracks`). So the outcomes are the same, closing succeeds, and afterwards both runs show the same
documents everywhere (`proceedScoped_eq_proceed`).
-/

namespace ScopedStore

inductive Activity where
  | call (handle : Handle) (op : DocumentOp)
  | wait (seconds : Nat)

def Activity.Ordered : Activity → Prop
  | .call handle op => (Request.documents handle op).Ordered
  | .wait _ => True

namespace System

/-- Goes through activities in a context and gives the outcomes of the operations. -/
def proceed (client : ClientKey) (b : Binding) (cx : Context) :
    List Activity → System → List (Except TxError Reply) × System
  | [], sys => ([], sys)
  | .wait seconds :: rest, sys => proceed client b cx rest { sys with clock := sys.clock + seconds }
  | .call handle op :: rest, sys =>
    let (outcome, sys) := sys.requestThrough client b cx (.documents handle op)
    let (outcomes, sys) := proceed client b cx rest sys
    (outcome :: outcomes, sys)

/-- Goes through activities in the context of a new scope, completes the scope and closes it. Gives
the outcomes of the operations and of closing. -/
def proceedScoped (client : ClientKey) (b : Binding) (parent : Context) (request : ScopeRequest)
    (activities : List Activity) (sys : System) :
    List (Except TxError Reply) × Except TxError Unit × System :=
  let (scope, sys) := sys.begin parent .required request
  let (outcomes, sys) := proceed client b scope.context activities sys
  match scope.complete with
  | .error e => (outcomes, .error e, sys)
  | .ok scope =>
    let (closed, sys) := sys.close scope
    (outcomes, closed, sys)

variable {sys direct : System} {client : ClientKey} {registry : RegistryKey} {tx : TxKey}
  {deadline : Nat} {cx root : Context}

theorem proceed_wait (b : Binding) (seconds : Nat) (rest : List Activity) :
    sys.proceed client b cx (.wait seconds :: rest) =
      { sys with clock := sys.clock + seconds }.proceed client b cx rest := by
  rw [proceed]

theorem proceed_call {b : Binding} {handle : Handle} {op : DocumentOp}
    {outcome : Except TxError Reply} {sys' : System}
    (h : sys.requestThrough client b cx (.documents handle op) = (outcome, sys'))
    (rest : List Activity) :
    sys.proceed client b cx (.call handle op :: rest) =
      (outcome :: (sys'.proceed client b cx rest).1, (sys'.proceed client b cx rest).2) := by
  rw [proceed, h]

/-! ## With no transaction -/

def afterPlain (direct : System) (client : ClientKey) (r : Request) : System :=
  direct.setClient client ((direct.client client).perform .plain r).2

theorem requestThrough_of_none (hroot : root.transaction = none) (r : Request) :
    direct.requestThrough client (.byRegistry registry) root r =
      (((direct.client client).perform .plain r).1.mapError .store, direct.afterPlain client r) := by
  unfold requestThrough dispatch
  dsimp only
  rw [hroot]
  exact onClient_eq (Prod.eta _).symm

theorem client_afterPlain (hclient : client < direct.clients.length) (r : Request) :
    (direct.afterPlain client r).client client = ((direct.client client).perform .plain r).2 :=
  client_setClient_self hclient _

theorem clock_le_proceed (client : ClientKey) (registry : RegistryKey)
    (hroot : root.transaction = none) (activities : List Activity) (direct : System) :
    direct.clock ≤ (direct.proceed client (.byRegistry registry) root activities).2.clock := by
  induction activities generalizing direct with
  | nil => exact Nat.le_refl _
  | cons a rest ih =>
    cases a with
    | wait seconds =>
      rw [proceed_wait]
      exact Nat.le_trans (Nat.le_add_right _ _) (ih { direct with clock := direct.clock + seconds })
    | call handle op =>
      rw [proceed_call (requestThrough_of_none hroot _)]
      exact ih (direct.afterPlain client (.documents handle op))

theorem decodes_of_proceed (hroot : root.transaction = none) {activities : List Activity}
    (hclient : client < direct.clients.length) {ns : Namespace}
    (h : (((direct.proceed client (.byRegistry registry) root activities).2.client
      client).catalog.collection ns).Decodes) :
    ((direct.client client).catalog.collection ns).Decodes := by
  induction activities generalizing direct with
  | nil => exact h
  | cons a rest ih =>
    cases a with
    | wait seconds =>
      rw [proceed_wait] at h
      show (({ direct with clock := direct.clock + seconds }.client client).catalog.collection
        ns).Decodes
      exact ih hclient h
    | call handle op =>
      rw [proceed_call (requestThrough_of_none hroot _)] at h
      have hlater := ih (by rwa [afterPlain, setClient, List.length_set]) h
      rw [client_afterPlain hclient] at hlater
      exact Client.decodes_of_perform hlater

/-! ## In the context of the scope -/

theorem Leased.requestThrough {sys' : System} {id : SessionId} {lease : LeaseKey} {e : EnlistmentKey}
    (h : sys'.Leased client registry tx deadline id lease e) (hcx : cx.transaction = some tx)
    (hacquire : sys.acquire registry cx = (.ok lease, sys')) (r : Request) :
    sys.requestThrough client (.byRegistry registry) cx r =
      (((sys'.client client).perform (.session id) r).1.mapError .store,
        sys'.setClient client ((sys'.client client).perform (.session id) r).2) := by
  have hadmits : sys'.admits lease = true := by
    unfold admits
    rw [h.lease_eq]
    rfl
  have hcaller : callerOn client (some ⟨client, id⟩) = .session id := if_pos rfl
  unfold System.requestThrough dispatch
  dsimp only
  rw [hcx]
  dsimp only
  rw [hacquire]
  dsimp only
  rw [if_pos hadmits, h.lease_eq]
  unfold request
  rw [hcaller]
  exact onClient_eq (Prod.eta _).symm

/-- The first system has done in a scope's transaction what the second has done with none. -/
structure Tracks (sys direct : System) (client : ClientKey) (registry : RegistryKey) (tx : TxKey)
    (deadline : Nat) : Prop where
  clock : sys.clock = direct.clock
  client_lt : client < direct.clients.length
  valid : (sys.client client).Valid
  directValid : (direct.client client).Valid
  unique : (direct.client client).catalog.UniqueHeld
  unarmed : (sys.client client).faults.commits = 0
  progress :
    (sys.Unleased client registry tx deadline ∧ sys.client client = direct.client client ∧
        (sys.client client).faults.sessionStarts = 0 ∧
        (sys.client client).faults.transactionStarts = 0) ∨
      ∃ id lease e, sys.Leased client registry tx deadline id lease e ∧
        (sys.client client).Mirrors id (direct.client client)

theorem Tracks.exists_lease (h : sys.Tracks direct client registry tx deadline)
    (halive : sys.clock < deadline) (hcx : cx.transaction = some tx)
    (hstored : ∀ ns, ((direct.client client).catalog.collection ns).Decodes) :
    ∃ sys' id lease e, sys.acquire registry cx = (.ok lease, sys') ∧
      sys'.Leased client registry tx deadline id lease e ∧
      (sys'.client client).Mirrors id (direct.client client) ∧ (sys'.client client).Valid ∧
      (sys'.client client).faults.commits = 0 ∧ sys'.clock = sys.clock := by
  rcases h.progress with ⟨hunleased, heq, hsession, htransaction⟩ | ⟨id, lease, e, hleased, hmirrors⟩
  · obtain ⟨id, c₁, c₂, hstart, hopen, hvalid, hfaults, hmirrors⟩ :=
      Client.exists_mirrors h.valid (heq ▸ hstored) hsession htransaction cx.config.session
        (sys.transaction tx).options
    obtain ⟨sys', lease, e, hacquire, hleased, hclient, hclock⟩ :=
      hunleased.acquire halive hcx hstart hopen
    subst hclient
    rw [heq] at hmirrors
    exact ⟨sys', id, lease, e, hacquire, hleased, hmirrors, hvalid, hfaults ▸ h.unarmed, hclock⟩
  · exact ⟨sys, id, lease, e, hleased.acquire hcx, hleased, hmirrors, h.valid, h.unarmed, rfl⟩

theorem Tracks.call (h : sys.Tracks direct client registry tx deadline)
    (halive : sys.clock < deadline) (hcx : cx.transaction = some tx) {handle : Handle}
    {op : DocumentOp} (hordered : (Request.documents handle op).Ordered)
    (hstored : ∀ ns, ((direct.client client).catalog.collection ns).Decodes)
    (hdecodes : ∀ ns, (((direct.afterPlain client (.documents handle op)).client
      client).catalog.collection ns).Decodes) :
    ∃ sys', sys.requestThrough client (.byRegistry registry) cx (.documents handle op) =
        (((direct.client client).perform .plain (.documents handle op)).1.mapError .store, sys') ∧
      sys'.Tracks (direct.afterPlain client (.documents handle op)) client registry tx deadline := by
  obtain ⟨sys', id, lease, e, hacquire, hleased, hmirrors, hvalid, hunarmed, hclock⟩ :=
    h.exists_lease halive hcx hstored
  rw [client_afterPlain h.client_lt] at hdecodes
  obtain ⟨houtcome, hmirrors'⟩ := hmirrors.perform hvalid h.directValid hordered hstored hdecodes
  have hself := client_setClient_self hleased.client_lt
    ((sys'.client client).perform (.session id) (.documents handle op)).2
  refine ⟨_, by rw [hleased.requestThrough hcx hacquire, houtcome], ?_⟩
  refine ⟨hclock.trans h.clock, ?_, ?_, ?_, ?_, ?_, .inr ⟨id, lease, e, hleased.setClient _, ?_⟩⟩
  · rw [afterPlain, System.setClient, List.length_set]
    exact h.client_lt
  · rw [hself]
    exact hvalid.perform _ hordered
  · rw [client_afterPlain h.client_lt]
    exact h.directValid.perform _ hordered
  · rw [client_afterPlain h.client_lt]
    exact Client.uniqueHeld_runDocuments h.unique h.directValid .plain hordered.1 hordered.2
  · rw [hself]
    exact (Client.runDocuments_faults _ _ _ _).symm ▸ hunarmed
  · rw [hself, client_afterPlain h.client_lt]
    exact hmirrors'

theorem Tracks.wait (h : sys.Tracks direct client registry tx deadline) (seconds : Nat) :
    { sys with clock := sys.clock + seconds }.Tracks
      { direct with clock := direct.clock + seconds } client registry tx deadline where
  clock := congrArg (· + seconds) h.clock
  client_lt := h.client_lt
  valid := h.valid
  directValid := h.directValid
  unique := h.unique
  unarmed := h.unarmed
  progress := by
    rcases h.progress with ⟨⟨hserves, hunderway, hslot⟩, hrest⟩ | ⟨id, lease, e, hleased, hmirrors⟩
    · exact .inl ⟨⟨⟨hserves.client_lt, hserves.registry_lt, hserves.client_eq, hserves.closing,
        hserves.started⟩, hunderway.of_eq rfl, hslot⟩, hrest⟩
    · exact .inr ⟨id, lease, e, ⟨hleased.client_lt, hleased.underway.of_eq rfl, hleased.slot,
        hleased.lease_lt, hleased.lease_eq, hleased.enlistment_eq⟩, hmirrors⟩

theorem Tracks.proceed (h : sys.Tracks direct client registry tx deadline)
    (hcx : cx.transaction = some tx) (hroot : root.transaction = none) {activities : List Activity}
    (hordered : ∀ a ∈ activities, a.Ordered)
    (halive : (direct.proceed client (.byRegistry registry) root activities).2.clock < deadline)
    (hdecodes : ∀ ns, (((direct.proceed client (.byRegistry registry) root activities).2.client
      client).catalog.collection ns).Decodes) :
    (sys.proceed client (.byRegistry registry) cx activities).1 =
        (direct.proceed client (.byRegistry registry) root activities).1 ∧
      (sys.proceed client (.byRegistry registry) cx activities).2.Tracks
        (direct.proceed client (.byRegistry registry) root activities).2 client registry tx
          deadline := by
  induction activities generalizing sys direct with
  | nil => exact ⟨rfl, h⟩
  | cons a rest ih =>
    obtain ⟨hfirst, hrest⟩ := List.forall_mem_cons.1 hordered
    cases a with
    | wait seconds =>
      rw [proceed_wait] at halive hdecodes ⊢
      rw [proceed_wait]
      exact ih (h.wait seconds) hrest halive hdecodes
    | call handle op =>
      rw [proceed_call (requestThrough_of_none hroot _)] at halive hdecodes ⊢
      have hlater := clock_le_proceed client registry hroot rest
        (direct.afterPlain client (.documents handle op))
      have halive' : sys.clock < deadline := h.clock ▸ Nat.lt_of_le_of_lt hlater halive
      have hafter (ns : Namespace) := decodes_of_proceed hroot
        (by rw [afterPlain, System.setClient, List.length_set]; exact h.client_lt) (hdecodes ns)
      have hstored (ns : Namespace) : ((direct.client client).catalog.collection ns).Decodes := by
        have hdecodes' := hafter ns
        rw [client_afterPlain h.client_lt] at hdecodes'
        exact Client.decodes_of_perform hdecodes'
      obtain ⟨sys', hcall, htracks⟩ := h.call halive' hcx hfirst hstored hafter
      rw [proceed_call hcall]
      obtain ⟨houtcomes, htracks'⟩ := ih htracks hrest halive hdecodes
      exact ⟨congrArg (List.cons _) houtcomes, htracks'⟩

/-! ## The scope as a whole -/

/-- A scope that is begun at the root starts a transaction that has used no registry yet. -/
theorem begin_required (hserves : sys.Serves registry client) (hroot : root.transaction = none)
    (request : ScopeRequest) :
    ∃ scope sys', sys.begin root .required request = (scope, sys') ∧
      scope.context.transaction = some sys.transactions.length ∧ scope.owns = true ∧
      scope.completed = false ∧ sys'.clients = sys.clients ∧ sys'.clock = sys.clock ∧
      sys'.Unleased client registry sys.transactions.length
        (ScopedStore.deadline sys.clock (root.config.effectiveTimeout request.timeout)) := by
  let t : Transaction :=
    { options := request.transaction.getD root.config.transaction
      deadline := ScopedStore.deadline sys.clock (root.config.effectiveTimeout request.timeout) }
  have hself : (sys.addTransaction t).2.transaction sys.transactions.length = t :=
    sys.transaction_addTransaction t
  have hlt : sys.transactions.length < (sys.addTransaction t).2.transactions.length := by
    show _ < (sys.transactions ++ [t]).length
    rw [List.length_append]
    exact Nat.lt_succ_self _
  have hfresh : (sys.registry registry).slots.find? sys.transactions.length = none := by
    cases hslot : (sys.registry registry).slots.find? sys.transactions.length with
    | none => rfl
    | some slot => exact absurd (hserves.started _ slot hslot) (Nat.lt_irrefl _)
  refine ⟨{ context := root.within sys.transactions.length, option := .required, owns := true },
    (sys.addTransaction t).2, ?_, rfl, rfl, rfl, rfl, rfl, ?_, ?_, hfresh⟩
  · unfold System.begin
    dsimp only
    rw [hroot]
    rfl
  · exact ⟨hserves.client_lt, hserves.registry_lt, hserves.client_eq, hserves.closing,
      fun tx slot hslot => Nat.lt_trans (hserves.started tx slot hslot) hlt⟩
  · refine ⟨hlt, ?_, ?_, ?_, ?_⟩ <;> rw [hself]
    rfl

theorem Tracks.close (h : sys.Tracks direct client registry tx deadline)
    (halive : sys.clock < deadline) {scope : Scope} (hscope : scope.Commits tx)
    (hstored : ∀ ns, ((direct.client client).catalog.collection ns).Decodes) :
    (sys.close scope).1 = .ok () ∧ ∀ ns, ∃ v, (direct.client client).viewOf .plain ns = .ok v ∧
      ((sys.close scope).2.client client).viewOf .plain ns = .ok v := by
  rcases h.progress with ⟨hunleased, heq, -, -⟩ | ⟨id, lease, e, hleased, hmirrors⟩
  · obtain ⟨hok, hclient⟩ := hunleased.close halive hscope
    refine ⟨hok, fun ns => ?_⟩
    obtain ⟨v, hload⟩ : ∃ v, (direct.client client).viewOf .plain ns = .ok v :=
      View.load_isOk_iff.2 ⟨hstored ns, Writes.decode_empty⟩
    exact ⟨v, hload, by rw [hclient, heq, hload]⟩
  · obtain ⟨hok, hviews⟩ := hmirrors.commit h.valid h.directValid hstored h.unique h.unarmed
    have hcommit : (sys.client client).commitTransaction id =
        (.ok (), ((sys.client client).commitTransaction id).2) := Prod.ext hok rfl
    obtain ⟨hclosed, hclient⟩ := hleased.close halive hscope hcommit
    rw [hclient]
    exact ⟨hclosed, hviews⟩

/-- Operations that are run inside a scope, which is then completed and closed, give the outcomes that
they give with no scope; closing succeeds, and afterwards everyone reads the same in every namespace.
The unique indexes hold at the start, no call is armed to fail, the deadline is not reached, and what
the run with no scope leaves stored can be read. -/
theorem proceedScoped_eq_proceed (hserves : sys.Serves registry client)
    (hroot : root.transaction = none) (hreachable : (sys.client client).Reachable)
    (hunique : (sys.client client).catalog.UniqueHeld)
    (hunarmed : ∀ kind, (sys.client client).faults.armed kind = 0) (request : ScopeRequest)
    {activities : List Activity} (hordered : ∀ a ∈ activities, a.Ordered)
    (halive : (sys.proceed client (.byRegistry registry) root activities).2.clock <
      ScopedStore.deadline sys.clock (root.config.effectiveTimeout request.timeout))
    (hdecodes : ∀ ns, (((sys.proceed client (.byRegistry registry) root activities).2.client
      client).catalog.collection ns).Decodes) :
    let direct := sys.proceed client (.byRegistry registry) root activities
    let inScope := sys.proceedScoped client (.byRegistry registry) root request activities
    inScope.1 = direct.1 ∧ inScope.2.1 = .ok () ∧
      ∀ ns, ∃ v, (direct.2.client client).viewOf .plain ns = .ok v ∧
        (inScope.2.2.client client).viewOf .plain ns = .ok v := by
  intro direct inScope
  obtain ⟨scope, sys₁, hbegin, hcontext, howns, hcompleted, hclients, hclock, hunleased⟩ :=
    begin_required hserves hroot request
  have hclient : sys₁.client client = sys.client client := by
    unfold System.client
    rw [hclients]
  have hstart : sys₁.Tracks sys client registry sys.transactions.length
      (ScopedStore.deadline sys.clock (root.config.effectiveTimeout request.timeout)) := by
    refine ⟨hclock, hserves.client_lt, ?_, hreachable.valid, hunique, ?_,
      .inl ⟨hunleased, hclient, ?_, ?_⟩⟩ <;> rw [hclient]
    · exact hreachable.valid
    · exact hunarmed .commit
    · exact hunarmed .sessionStart
    · exact hunarmed .transactionStart
  obtain ⟨houtcomes, hend⟩ := hstart.proceed hcontext hroot hordered halive hdecodes
  let done : Scope := { scope with completed := true }
  have hdone : done.Commits sys.transactions.length := ⟨hcontext, howns, rfl⟩
  obtain ⟨hclosed, hviews⟩ := hend.close (hend.clock ▸ halive) hdone hdecodes
  have hinScope : inScope = ((sys₁.proceed client (.byRegistry registry) scope.context activities).1,
      (sys₁.proceed client (.byRegistry registry) scope.context activities).2.close done) := by
    show sys.proceedScoped client (.byRegistry registry) root request activities = _
    unfold proceedScoped
    rw [hbegin]
    dsimp only
    rw [Scope.complete, hcompleted]
    rfl
  rw [hinScope]
  exact ⟨houtcomes, hclosed, hviews⟩

def ledgerSystem : System := ((({} : System).addClient true).2.addRegistry 0 none).2

/-- Entries are inserted, replaced and deleted; the second insertion of an identifier that is taken
fails, and a deleted identifier is taken again. -/
def ledgerActivities : List Activity :=
  [.call { ns := Client.ledger } (.insertMany [Client.entry 1 10, Client.entry 2 20]),
    .wait 20,
    .call { ns := Client.ledger } (.insertOne (Client.entry 2 5)),
    .call { ns := Client.ledger } (Client.replaceEntry 1 11),
    .call { ns := Client.ledger } (.deleteOne (.id (.integer 2))),
    .wait 30,
    .call { ns := Client.ledger } (.insertOne (Client.entry 2 7)),
    .call { ns := ⟨"app", "log"⟩ } (.insertOne (Client.entry 1 0))]

theorem ordered_ledgerActivities : ∀ a ∈ ledgerActivities, a.Ordered := by
  intro a ha
  simp only [ledgerActivities, List.mem_cons, List.not_mem_nil, or_false] at ha
  rcases ha with rfl | rfl | rfl | rfl | rfl | rfl | rfl | rfl
  · refine ⟨trivial, fun d hd => ?_⟩
    rcases List.mem_cons.1 hd with rfl | hd
    · exact Client.ordered_entry 1 10
    · rw [List.mem_singleton.1 hd]
      exact Client.ordered_entry 2 20
  · trivial
  · exact ⟨trivial, Client.ordered_entry 2 5⟩
  · exact ⟨trivial, trivial, Client.ordered_entry 1 11⟩
  · exact ⟨trivial, trivial⟩
  · trivial
  · exact ⟨trivial, Client.ordered_entry 2 7⟩
  · exact ⟨trivial, Client.ordered_entry 1 0⟩

theorem proceedScoped_eq_proceed_ledger :
    let direct := ledgerSystem.proceed 0 (.byRegistry 0) {} ledgerActivities
    let inScope := ledgerSystem.proceedScoped 0 (.byRegistry 0) {} {} ledgerActivities
    (∀ a ∈ ledgerActivities, a.Ordered) ∧ inScope.1 = direct.1 ∧ inScope.2.1 = .ok () ∧
      ∀ ns, ∃ v, (direct.2.client 0).viewOf .plain ns = .ok v ∧
        (inScope.2.2.client 0).viewOf .plain ns = .ok v := by
  have hserves : ledgerSystem.Serves 0 0 :=
    ⟨by decide, by decide, rfl, rfl, fun tx slot hslot => by cases hslot⟩
  have hreachable : (ledgerSystem.client 0).Reachable :=
    ⟨true, _, [], fun e he => absurd he List.not_mem_nil, rfl⟩
  have hunique : (ledgerSystem.client 0).catalog.UniqueHeld := fun ns c hc => by cases hc
  have hdecodes (ns : Namespace) :
      (((ledgerSystem.proceed 0 (.byRegistry 0) {} ledgerActivities).2.client 0).catalog.collection
        ns).Decodes :=
    Catalog.decodes_collection (by decide +kernel) ns
  exact ⟨ordered_ledgerActivities, proceedScoped_eq_proceed hserves rfl hreachable hunique
    (fun kind => by cases kind <;> rfl) {} ordered_ledgerActivities (by decide +kernel) hdecodes⟩

end System

end ScopedStore
