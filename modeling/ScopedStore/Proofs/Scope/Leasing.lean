import ScopedStore.Proofs.Scope.Telling

/-!
# Acquiring a lease keeps the books

The first use of a registry in a transaction makes a lease, or fails and leaves nothing behind: no slot, no
running session and no participant, whichever step fails and whatever scope is closed on the way
(`System.Disciplined.acquire`).
-/

namespace ScopedStore

namespace System

variable {sys sys' : System} {registry : RegistryKey} {tx : TxKey} {cx : Context} {close : CloseScope}

/-! ## Making a lease -/

/-- Enlists a new lease of a session; a lease that is refused is settled and disposed of. -/
def enlistLease (sys : System) (registry : RegistryKey) (cx : Context) (tx : TxKey)
    (session : SessionRef) : Except TxError LeaseKey × System :=
  let (lease, sys) := sys.addLease { tx := tx, session := session }
  let (enlistment, sys) := sys.addEnlistment lease (.detach registry tx)
  match sys.enlist cx (.enlisted enlistment) with
  | (.ok (), sys) => (.ok lease, sys)
  | (.error e, sys) => (.error e, (sys.abortLease lease).2.disposeLease lease)

/-- A lease is made with a session that is opened after the scope is closed that the registry holds. -/
theorem createLease_of_openSession
    (hcheck : (sys.transaction tx).checkAccepting (sys.txId tx) sys.clock = .ok ())
    (hheld : sys.closeHeldScope close registry = sys') {client : ClientKey}
    (hregistry : (sys'.registry registry).client = client) (hclient : client < sys'.clients.length)
    {outcome : Except StoreError SessionId} {c : Client}
    (hopened : (sys'.client client).openSession cx.config.session (sys'.transaction tx).options =
      (outcome, c)) :
    sys.createLease close registry cx tx =
      match outcome with
      | .error e => (.error (.store e), sys'.setClient client c)
      | .ok id => (sys'.setClient client c).enlistLease registry cx tx ⟨client, id⟩ := by
  have hstart {started : Except StoreError SessionId} {c : Client}
      (h : (sys'.client client).startSession cx.config.session = (started, c)) :
      sys'.onClient client (fun c => c.startSession cx.config.session) =
        (started.mapError .store, sys'.setClient client c) := onClient_eq h
  have hopen (c : Client) (id : SessionId) :
      (sys'.setClient client c).onClient client
          (fun c => c.startTransaction id (sys'.transaction tx).options) =
        ((c.startTransaction id (sys'.transaction tx).options).1.mapError .store,
          sys'.setClient client (c.startTransaction id (sys'.transaction tx).options).2) :=
    onClient_setClient hclient c _
  have hended (c : Client) (id : SessionId) : (sys'.setClient client c).endSession ⟨client, id⟩ =
      sys'.setClient client (c.endSession id) := by
    unfold System.endSession
    rw [client_setClient_self hclient, setClient_setClient]
  unfold createLease startRegistrySession
  rw [hcheck]
  dsimp only
  rw [hheld, hregistry]
  unfold Client.openSession at hopened
  cases hstarted : (sys'.client client).startSession cx.config.session with
  | mk started c₁ =>
    rw [hstart hstarted]
    rw [hstarted] at hopened
    cases started with
    | error e =>
      cases hopened
      rfl
    | ok id =>
      have hopens := hopen c₁ id
      have htransaction : (sys'.setClient client c₁).transaction tx = sys'.transaction tx := rfl
      dsimp only [Except.mapError] at hopened ⊢
      rw [htransaction, hopens]
      generalize c₁.startTransaction id (sys'.transaction tx).options = opened at *
      obtain ⟨begun, c₂⟩ := opened
      cases begun with
      | error e =>
        cases hopened
        dsimp only [Except.mapError]
        rw [hended]
      | ok u =>
        cases hopened
        rfl

/-! ## Rows that are added -/

structure Opens (sys : System) (session : SessionRef) (c : Client) : Prop where
  lt : session.client < sys.clients.length
  new : sys.ended? session = none
  once : c.EndsOnce
  ended : ∀ ref, (sys.setClient session.client c).ended? ref =
    if ref = session then some false else sys.ended? ref

/-- The lease of a session that was opened is added with its enlistment. -/
def leased (sys : System) (registry : RegistryKey) (tx : TxKey) (session : SessionRef) (c : Client) :
    System :=
  { sys with
    clients := sys.clients.set session.client c
    leases := sys.leases ++ [{ tx := tx, session := session }]
    enlistments :=
      sys.enlistments ++ [{ lease := sys.leases.length, onCompletion := .detach registry tx }] }

/-- A lease and its enlistment are added. The lease is done with, or the enlistment takes part in the
lease's transaction, and then a slot may be filled with the lease. -/
theorem Registered.append (h : sys.Registered []) {row : Lease}
    (hlength : sys'.leases.length = sys.leases.length + 1)
    (hold : ∀ l < sys.leases.length, sys'.lease l = sys.lease l)
    (hrow : sys'.lease sys.leases.length = row)
    (henlistments : sys'.enlistments =
      sys.enlistments ++ [{ lease := sys.leases.length, onCompletion := .detach registry row.tx }])
    (hisOpen : ∀ tx, (sys'.transaction tx).isOpen = (sys.transaction tx).isOpen)
    (hparticipants : ∀ tx, (sys'.transaction tx).participants = (sys.transaction tx).participants ∨
      tx = row.tx ∧ (sys.transaction tx).isOpen = true ∧ (sys'.transaction tx).participants =
        (sys.transaction tx).participants ++ [.enlisted sys.enlistments.length])
    (haccounted : (row.completed = true ∧ row.disposed = true) ∨
      .enlisted sys.enlistments.length ∈ (sys'.transaction row.tx).participants)
    (hlookup : ∀ registry' tx l, sys'.lookup registry' tx = some l →
      sys.lookup registry' tx = some l ∨
        registry' = registry ∧ tx = row.tx ∧ l = sys.leases.length ∧
          .enlisted sys.enlistments.length ∈ (sys'.transaction tx).participants ∧
          row.completed = false ∧ row.disposed = false) : sys'.Registered [] := by
  have henlistment (e : EnlistmentKey) (he : e < sys.enlistments.length) :
      sys'.enlistment e = sys.enlistment e := by
    unfold System.enlistment
    rw [henlistments]
    exact getD_append_of_lt he _ default
  have hnew : sys'.enlistment sys.enlistments.length =
      { lease := sys.leases.length, onCompletion := .detach registry row.tx } := by
    unfold System.enlistment
    rw [henlistments]
    exact getD_length_append _ _ default
  have hlt_iff (e : EnlistmentKey) : e < sys'.enlistments.length ↔
      e < sys.enlistments.length ∨ e = sys.enlistments.length := by
    rw [henlistments, List.length_append, List.length_singleton]
    exact Nat.lt_succ_iff_lt_or_eq
  have hmem {tx : TxKey} {p : Participant} (hp : p ∈ (sys.transaction tx).participants) :
      p ∈ (sys'.transaction tx).participants := by
    rcases hparticipants tx with hsame | ⟨-, -, hmore⟩
    · rwa [hsame]
    · rw [hmore]
      exact List.mem_append_left _ hp
  have hlease_tx (e : EnlistmentKey) (he : e < sys.enlistments.length) :
      (sys'.lease (sys'.enlistment e).lease).tx = (sys.lease (sys.enlistment e).lease).tx := by
    rw [henlistment e he, hold _ (h.enlistment e he).1]
  have howed {tx : TxKey} {e : EnlistmentKey} (howed : sys.Owed [] tx e) :
      sys'.Owed [] tx e ∧ sys'.enlistment e = sys.enlistment e := by
    have hp := howed.resolve_right List.not_mem_nil
    obtain ⟨e', he', hsame, -⟩ := h.participant tx _ hp
    cases hsame
    exact ⟨.inl (hmem hp), henlistment e he'⟩
  refine ⟨fun e he => ?_, fun e he e' he' hsame => ?_, fun tx p hp => ?_,
    fun e he => absurd he List.not_mem_nil, fun tx hclosed => ?_, fun registry' tx l hl => ?_,
    fun l hl => ?_⟩
  · rcases (hlt_iff e).1 he with he | rfl
    · obtain ⟨hlt, registry', hcompletion⟩ := h.enlistment e he
      refine ⟨by rw [henlistment e he, hlength]; exact Nat.lt_succ_of_lt hlt, registry', ?_⟩
      rw [hlease_tx e he, henlistment e he, hcompletion]
    · rw [hnew, hrow, hlength]
      exact ⟨Nat.lt_succ_self _, registry, rfl⟩
  · have hfresh (e : EnlistmentKey) (he : e < sys.enlistments.length) :
        (sys'.enlistment e).lease ≠ sys.leases.length := by
      rw [henlistment e he]
      exact Nat.ne_of_lt (h.enlistment e he).1
    rcases (hlt_iff e).1 he with he | rfl <;> rcases (hlt_iff e').1 he' with he' | rfl
    · rw [henlistment e he, henlistment e' he'] at hsame
      exact h.apart e he e' he' hsame
    · rw [hnew] at hsame
      exact absurd hsame.symm (hfresh e he)
    · rw [hnew] at hsame
      exact absurd hsame (hfresh e' he')
    · rfl
  · have hbefore (hp : p ∈ (sys.transaction tx).participants) : ∃ e < sys'.enlistments.length,
        p = .enlisted e ∧ (sys'.lease (sys'.enlistment e).lease).tx = tx := by
      obtain ⟨e, he, hsame, htx⟩ := h.participant tx p hp
      exact ⟨e, (hlt_iff e).2 (.inl he), hsame, by rw [hlease_tx e he, htx]⟩
    rcases hparticipants tx with hsame | ⟨rfl, -, hmore⟩
    · exact hbefore (by rwa [← hsame])
    · rw [hmore] at hp
      rcases List.mem_append.1 hp with hp | hp
      · exact hbefore hp
      · refine ⟨sys.enlistments.length, (hlt_iff _).2 (.inr rfl), List.mem_singleton.1 hp, ?_⟩
        rw [hnew, hrow]
  · rw [hisOpen] at hclosed
    rcases hparticipants tx with hsame | ⟨-, hopen, -⟩
    · rw [hsame, h.closed tx hclosed]
    · rw [hclosed] at hopen
      cases hopen
  · rcases hlookup registry' tx l hl with hl | ⟨rfl, rfl, rfl, hp, hcompleted, hdisposed⟩
    · obtain ⟨hlt, htx, ⟨e, howed', hpristine⟩, hactive⟩ := h.slot registry' tx l hl
      obtain ⟨howed', hsame⟩ := howed howed'
      rw [hold l hlt, hisOpen, hlength]
      exact ⟨Nat.lt_succ_of_lt hlt, htx, ⟨e, howed', by rw [hsame, hpristine]⟩, hactive⟩
    · rw [hrow, hlength]
      exact ⟨Nat.lt_succ_self _, rfl, ⟨_, .inl hp, hnew⟩, fun _ => ⟨hcompleted, hdisposed⟩⟩
  · rcases Nat.lt_succ_iff_lt_or_eq.1 (hlength ▸ hl) with hlt | rfl
    · rw [hold l hlt]
      refine (h.accounted l hlt).imp_right fun ⟨e, howed', hsame⟩ => ?_
      obtain ⟨howed', hrow'⟩ := howed howed'
      exact ⟨e, howed', by rw [hrow', hsame]⟩
    · rw [hrow]
      exact haccounted.imp_right fun hp => ⟨_, .inl hp, by rw [hnew]⟩

section Enlisting

variable {session : SessionRef} {c : Client}

theorem lease_leased (sys : System) (registry : RegistryKey) (tx : TxKey) (session : SessionRef)
    (c : Client) :
    (∀ l < sys.leases.length, (sys.leased registry tx session c).lease l = sys.lease l) ∧
      (sys.leased registry tx session c).lease sys.leases.length = { tx := tx, session := session } :=
  ⟨fun _ hl => getD_append_of_lt hl _ default, getD_length_append _ _ default⟩

theorem Booked.leased (h : sys.Booked) (hopens : sys.Opens session c) (registry : RegistryKey)
    (tx : TxKey) : (sys.leased registry tx session c).Booked := by
  obtain ⟨hold, hnew⟩ := sys.lease_leased registry tx session c
  have hlength : (sys.leased registry tx session c).leases.length = sys.leases.length + 1 :=
    List.length_append ..
  have hended (ref : SessionRef) : (sys.leased registry tx session c).ended? ref =
      if ref = session then some false else sys.ended? ref := hopens.ended ref
  exact h.append hended hopens.new (once_setClient h.once hopens.once session.client) hlength hold hnew

theorem Disciplined.refused (h : sys.Disciplined []) (hopens : sys.Opens session c)
    (registry : RegistryKey) (tx : TxKey) :
    let final := ((sys.leased registry tx session c).abortLease sys.leases.length).2.disposeLease
      sys.leases.length
    final.Disciplined [] ∧ sys.Narrows final := by
  intro final
  let sys₁ := sys.leased registry tx session c
  obtain ⟨hold, hnew⟩ := sys.lease_leased registry tx session c
  have hlength₁ : sys₁.leases.length = sys.leases.length + 1 := List.length_append ..
  have hlt₁ : sys.leases.length < sys₁.leases.length := Nat.lt_of_lt_of_eq (Nat.lt_succ_self _) hlength₁.symm
  obtain ⟨hbooked₃, htouches, hlength₃, hlease₃⟩ := (h.booked.leased hopens registry tx).finish hlt₁
    fun c id s hs => Client.lasts_abortTransaction hs
  replace hlength₃ : final.leases.length = sys.leases.length + 1 := hlength₃.trans hlength₁
  have hold₃ (l : LeaseKey) (hl : l < sys.leases.length) : final.lease l = sys.lease l :=
    (hlease₃ l).trans ((if_neg (Nat.ne_of_lt hl)).trans (hold l hl))
  have hrow₃ : final.lease sys.leases.length =
      { tx := tx, session := session, completed := true, disposed := true } :=
    (hlease₃ _).trans ((if_pos rfl).trans (by rw [hnew]))
  have hrow (tx' : TxKey) : final.transaction tx' = sys.transaction tx' :=
    transaction_of_eq htouches.transactions tx'
  have hlookup (registry' : RegistryKey) (tx' : TxKey) :
      final.lookup registry' tx' = sys.lookup registry' tx' :=
    lookup_of_eq htouches.registries registry' tx'
  have hregistry (registry' : RegistryKey) : final.registry registry' = sys.registry registry' :=
    registry_of_eq htouches.registries registry'
  have hregistries : final.registries = sys.registries := htouches.registries
  have hclients : final.clients.length = sys.clients.length :=
    htouches.clients.trans (List.length_set ..)
  refine ⟨⟨hbooked₃, h.registered.append hlength₃ hold₃ hrow₃ htouches.enlistments (fun tx => ?_)
    (fun tx => .inl ?_) (.inl ⟨rfl, rfl⟩) fun registry' tx l hl => .inl ?_, fun l hl hopen hlive => ?_,
    fun registry' hlt => ?_⟩, ⟨?_, hclients, fun registry' => ?_, fun registry' tx slot hslot => ?_,
    fun registry' tx _ => ?_, fun tx hopen => ?_, fun tx => ?_, fun l hl => ?_, fun ref hrunning => ?_⟩⟩
  · exact congrArg Transaction.isOpen (hrow tx)
  · exact congrArg Transaction.participants (hrow tx)
  · exact (hlookup registry' tx).symm.trans hl
  · rcases Nat.lt_succ_iff_lt_or_eq.1 (hlength₃ ▸ hl) with hlt | rfl
    · rw [hold₃ l hlt] at hopen hlive ⊢
      obtain ⟨registry', hheld⟩ := h.held l hlt (by rwa [hrow] at hopen) hlive
      exact ⟨registry', (hlookup registry' _).trans hheld⟩
    · rw [hrow₃] at hlive
      cases hlive
  · rw [hregistry, hclients]
    rw [hregistries] at hlt
    exact h.client_lt registry' hlt
  · rw [hregistries]
  · exact congrArg Registry.client (hregistry registry')
  · rwa [hregistry] at hslot
  · rw [hregistry]
  · rwa [hrow] at hopen
  · simp only [hrow, List.prefix_rfl]
  · exact ⟨by rw [hlength₃]; exact Nat.lt_succ_of_lt hl, by rw [hold₃ l hl]⟩
  · have hrunning₁ := (hopens.ended ref).symm.trans (htouches.running ref hrunning)
    split at hrunning₁
    · rename_i hsession
      have hlt₃ : sys.leases.length < final.leases.length := by
        rw [hlength₃]
        exact Nat.lt_succ_self _
      have hdead : final.ended? (final.lease sys.leases.length).session =
          some (final.lease sys.leases.length).disposed := hbooked₃.lease _ hlt₃
      rw [hrow₃, ← hsession, hrunning] at hdead
      cases hdead
    · exact hrunning₁

theorem enlistLease_eq (hcx : cx.transaction = some tx) (sys : System) (registry : RegistryKey)
    (session : SessionRef) (c : Client) :
    (sys.setClient session.client c).enlistLease registry cx tx session =
      match (sys.transaction tx).checkAccepting (sys.txId tx) sys.clock with
      | .ok () => (.ok sys.leases.length, sys.enlisted registry tx session c)
      | .error e => (.error e, ((sys.leased registry tx session c).abortLease
          sys.leases.length).2.disposeLease sys.leases.length) := by
  let sys₁ := sys.leased registry tx session c
  have hcheck : (sys₁.transaction tx).checkAccepting (sys₁.txId tx) sys₁.clock =
      (sys.transaction tx).checkAccepting (sys.txId tx) sys.clock := rfl
  have henlist : sys₁.enlist cx (.enlisted sys.enlistments.length) =
      match (sys.transaction tx).checkAccepting (sys.txId tx) sys.clock with
      | .ok () => (.ok (), sys.enlisted registry tx session c)
      | .error e => (.error e, sys₁) := by
    unfold System.enlist
    rw [hcx]
    dsimp only
    rw [hcheck]
    cases (sys.transaction tx).checkAccepting (sys.txId tx) sys.clock <;> rfl
  unfold enlistLease
  dsimp only [sys₁, leased] at henlist
  dsimp only [setClient, addLease, addEnlistment]
  rw [henlist]
  cases (sys.transaction tx).checkAccepting (sys.txId tx) sys.clock <;> rfl

end Enlisting

/-! ## Making the lease of a transaction -/

theorem of_checkAccepting
    (h : (sys.transaction tx).checkAccepting (sys.txId tx) sys.clock = .ok ()) :
    tx < sys.transactions.length ∧ (sys.transaction tx).isOpen = true := by
  constructor
  · by_contra hge
    rw [System.transaction, List.getD_eq_getElem?_getD,
      List.getElem?_eq_none (Nat.le_of_not_lt hge)] at h
    -- the default row has expired at any time
    have hexpired : (default : Transaction).isExpired sys.clock = true :=
      decide_eq_true (Nat.zero_le _)
    unfold Transaction.checkAccepting at h
    rw [Option.getD_none, hexpired] at h
    cases h
  · unfold Transaction.checkAccepting at h
    cases hopen : (sys.transaction tx).isOpen with
    | true => rfl
    | false =>
      rw [hopen] at h
      cases h

theorem Disciplined.closeHeldScope (h : sys.Disciplined []) (n : Nat) (registry : RegistryKey) :
    (sys.closeHeldScope (System.closeWithin n) registry).Disciplined [] ∧
      sys.Narrows (sys.closeHeldScope (System.closeWithin n) registry) := by
  unfold System.closeHeldScope
  dsimp only
  split
  · exact ⟨h, .refl sys⟩
  · rename_i scope _
    let sys₁ := sys.setRegistry registry { sys.registry registry with closing := none }
    have hclient (registry' : RegistryKey) :
        (sys₁.registry registry').client = (sys.registry registry').client := by
      refine client_setRegistry ?_ registry'
      rfl
    have hslots (registry' : RegistryKey) :
        (sys₁.registry registry').slots = (sys.registry registry').slots := by
      refine slots_setRegistry_of_eq ?_ registry'
      rfl
    have halike : sys.Alike sys₁ := alike_setRegistry rfl fun registry' tx => by
      unfold lookup
      rw [hslots]
    have hnarrows : sys.Narrows sys₁ := halike.narrows (List.length_set ..)
      (fun registry' => ⟨hclient registry', hslots registry'⟩) rfl
    obtain ⟨hclosed, hcloses⟩ := (halike.disciplined h).closeWithin n scope
    have hreported (outcome : Except TxError Unit) : (System.closeWithin n sys₁ scope).2.Alike
        ((System.closeWithin n sys₁ scope).2.report (.closed outcome)) := .of_eq rfl rfl rfl rfl rfl
    exact ⟨(hreported _).disciplined hclosed,
      (hnarrows.trans hcloses).trans (narrows_of_eq rfl rfl rfl rfl rfl)⟩

/-- Making a lease fails and leaves nothing behind, or the lease of a session that was opened is
enlisted. -/
theorem Disciplined.createLease (h : sys.Disciplined []) (hlt : registry < sys.registries.length)
    (hcx : cx.transaction = some tx) (n : Nat) :
    let made := sys.createLease (System.closeWithin n) registry cx tx
    (∃ e, made.1 = .error e ∧ made.2.Disciplined [] ∧ sys.Narrows made.2) ∨
      ∃ sys₁ session c, sys₁.Disciplined [] ∧ sys.Narrows sys₁ ∧ sys₁.Opens session c ∧
        tx < sys₁.transactions.length ∧ (sys₁.transaction tx).isOpen = true ∧
        made = (.ok sys₁.leases.length, sys₁.enlisted registry tx session c) := by
  intro made
  cases hcheck : (sys.transaction tx).checkAccepting (sys.txId tx) sys.clock with
  | error e =>
    have hmade : made = (.error e, sys) := by
      show sys.createLease (System.closeWithin n) registry cx tx = _
      unfold System.createLease
      rw [hcheck]
    rw [hmade]
    exact .inl ⟨e, rfl, h, .refl sys⟩
  | ok u =>
    obtain ⟨hclosed, hcloses⟩ := h.closeHeldScope n registry
    generalize hheld : sys.closeHeldScope (System.closeWithin n) registry = sys₁ at *
    let client := (sys₁.registry registry).client
    have hclient : client < sys₁.clients.length :=
      hclosed.client_lt registry (by rwa [hcloses.registries])
    obtain ⟨honce, hopens⟩ := (sys₁.client client).openSession_opens cx.config.session
      (sys₁.transaction tx).options
    cases hopened : (sys₁.client client).openSession cx.config.session
      (sys₁.transaction tx).options with
    | mk outcome c =>
    rw [hopened] at honce hopens
    have hmade : made = _ := createLease_of_openSession hcheck hheld rfl hclient hopened
    rcases hopens with ⟨e, rfl, hsame⟩ | ⟨id, rfl, hnew, hsame⟩
    · have halike : sys₁.Alike (sys₁.setClient client c) := by
        refine ⟨fun _ => rfl, fun _ => rfl, fun _ _ => rfl, rfl, rfl, fun ref => ?_,
          fun hall => once_setClient hall (honce (hall client)) client, Nat.le_refl _, ?_⟩
        · rw [ended?_setClient hclient]
          split
          · rename_i hsession
            rw [System.ended?, hsession]
            exact hsame ref.id
          · exact .inl rfl
        · intro hlts registry' hlt'
          show (sys₁.registry registry').client < (sys₁.clients.set client c).length
          rw [List.length_set]
          exact hlts registry' hlt'
      rw [hmade]
      exact .inl ⟨_, rfl, halike.disciplined hclosed,
        hcloses.trans (halike.narrows rfl (fun _ => ⟨rfl, rfl⟩) (List.length_set ..))⟩
    · have hopens : sys₁.Opens ⟨client, id⟩ c :=
        ⟨hclient, hnew, honce (hclosed.booked.once client), ended?_setClient_of_id hclient hsame⟩
      have henlists := enlistLease_eq hcx sys₁ registry ⟨client, id⟩ c
      cases hrecheck : (sys₁.transaction tx).checkAccepting (sys₁.txId tx) sys₁.clock with
      | ok u =>
        obtain ⟨htx, hopen⟩ := of_checkAccepting hrecheck
        rw [hrecheck] at henlists
        exact .inr ⟨sys₁, ⟨client, id⟩, c, hclosed, hcloses, hopens, htx, hopen,
          hmade.trans henlists⟩
      | error e =>
        rw [hrecheck] at henlists
        obtain ⟨hrefused, hrefuses⟩ := hclosed.refused hopens registry tx
        rw [hmade.trans henlists]
        exact .inl ⟨e, rfl, hrefused, hcloses.trans hrefuses⟩

/-! ## The lease of a transaction -/

theorem Disciplined.isOpen_of_lookup (h : sys.Disciplined []) {l : LeaseKey}
    (hl : sys.lookup registry tx = some l) : (sys.transaction tx).isOpen = true := by
  obtain ⟨-, -, ⟨e, howed, -⟩, -⟩ := h.registered.slot registry tx l hl
  have hp := howed.resolve_right List.not_mem_nil
  cases hopen : (sys.transaction tx).isOpen with
  | true => rfl
  | false =>
    rw [h.registered.closed tx hopen] at hp
    cases hp

theorem Disciplined.acquire_of_lookup (h : sys.Disciplined []) {l : LeaseKey}
    (hl : sys.lookup registry tx = some l) (hcx : cx.transaction = some tx) :
    sys.acquire registry cx = (.ok l, sys) := by
  obtain ⟨-, -, -, hactive⟩ := h.registered.slot registry tx l hl
  rw [System.acquire_of_lookup hcx hl, checkLease_of_active (hactive (h.isOpen_of_lookup hl)).1]

def granted (sys : System) (registry : RegistryKey) (tx : TxKey) (session : SessionRef) (c : Client)
    (serial : Nat) : System :=
  let r := sys.registry registry
  let slot : Slot := { serial := serial, lease := some sys.leases.length }
  (sys.enlisted registry tx session c).setRegistry registry { r with slots := r.slots.insert tx slot }

section Granting

variable {session : SessionRef} {c : Client}

theorem find?_granted (hlt : registry < sys.registries.length) (tx : TxKey) (session : SessionRef) (c : Client)
    (serial : Nat) (registry' : RegistryKey) (tx' : TxKey) :
    ((sys.granted registry tx session c serial).registry registry').slots.find? tx' =
      if registry' = registry ∧ tx' = tx then
        some { serial := serial, lease := some sys.leases.length }
      else (sys.registry registry').slots.find? tx' := by
  have hlt' : registry < (sys.enlisted registry tx session c).registries.length := hlt
  exact find?_setRegistry_insert hlt' rfl registry' tx'

theorem lookup_granted (hlt : registry < sys.registries.length) (tx : TxKey) (session : SessionRef) (c : Client)
    (serial : Nat) (registry' : RegistryKey) (tx' : TxKey) :
    (sys.granted registry tx session c serial).lookup registry' tx' =
      if registry' = registry ∧ tx' = tx then some sys.leases.length
      else sys.lookup registry' tx' := by
  unfold lookup
  rw [find?_granted hlt]
  split <;> rfl

theorem transaction_granted (htx : tx < sys.transactions.length) (registry : RegistryKey)
    (session : SessionRef) (c : Client) (serial : Nat) :
    (sys.granted registry tx session c serial).transaction tx =
        { sys.transaction tx with
          participants := (sys.transaction tx).participants ++ [.enlisted sys.enlistments.length] } ∧
      ∀ tx', tx' ≠ tx →
        (sys.granted registry tx session c serial).transaction tx' = sys.transaction tx' :=
  ⟨transaction_setTransaction_self htx _, fun _ hne => transaction_setTransaction_of_ne hne.symm sys _⟩

theorem Disciplined.granted (h : sys.Disciplined []) (hlt : registry < sys.registries.length)
    (hopens : sys.Opens session c) (htx : tx < sys.transactions.length)
    (hopen : (sys.transaction tx).isOpen = true) (hnone : sys.lookup registry tx = none)
    (serial : Nat) :
    (sys.granted registry tx session c serial).Disciplined [] ∧
      sys.Lasting (sys.granted registry tx session c serial) := by
  obtain ⟨hold, hnew⟩ := sys.lease_leased registry tx session c
  obtain ⟨hself, hother⟩ := sys.transaction_granted htx registry session c serial
  have hlookup := lookup_granted hlt tx session c serial
  let final := sys.granted registry tx session c serial
  have hlease : final.lease = (sys.leased registry tx session c).lease := rfl
  have hlength : final.leases.length = sys.leases.length + 1 := List.length_append ..
  have hisOpen (tx' : TxKey) : (final.transaction tx').isOpen = (sys.transaction tx').isOpen := by
    by_cases hsame : tx' = tx
    · rw [hsame, hself]
      rfl
    · rw [hother tx' hsame]
  have hmem : Participant.enlisted sys.enlistments.length ∈ (final.transaction tx).participants := by
    rw [hself]
    exact List.mem_append_right _ (List.mem_singleton_self _)
  have hbooked : final.Booked := (h.booked.leased hopens registry tx).of_eq rfl rfl
  have hregistered : final.Registered [] := by
    refine h.registered.append hlength hold hnew rfl hisOpen (fun tx' => ?_) (.inr hmem)
      fun registry' tx' l hl => ?_
    · by_cases hsame : tx' = tx
      · refine .inr ⟨hsame, by rw [hsame, hopen], ?_⟩
        rw [hsame, hself]
      · exact .inl (by rw [hother tx' hsame])
    · rw [hlookup] at hl
      split at hl
      · rename_i hsame
        obtain ⟨rfl, rfl⟩ := hsame
        cases hl
        exact .inr ⟨rfl, rfl, rfl, hmem, rfl, rfl⟩
      · exact .inl hl
  refine ⟨⟨hbooked, hregistered, fun l hl hopen' hlive => ?_, fun registry' hlt' => ?_⟩,
    ⟨Nat.le_of_eq (List.length_set ..).symm, fun l hl => ⟨?_, ?_⟩, fun tx' hopen' => ?_,
      fun registry' tx' l hl _ => ?_⟩⟩
  · change l < final.leases.length at hl
    rw [hlength] at hl
    change (final.transaction (final.lease l).tx).isOpen = true at hopen'
    change (final.lease l).disposed = false at hlive
    change ∃ registry', final.lookup registry' (final.lease l).tx = some l
    rw [hisOpen] at hopen'
    rcases Nat.lt_succ_iff_lt_or_eq.1 hl with hl | rfl
    · rw [hlease, hold l hl] at hopen' hlive ⊢
      obtain ⟨registry', hheld⟩ := h.held l hl hopen' hlive
      refine ⟨registry', ?_⟩
      rw [hlookup, if_neg, hheld]
      rintro ⟨rfl, hsame⟩
      rw [hsame, hnone] at hheld
      cases hheld
    · rw [hlease, hnew]
      exact ⟨registry, by rw [hlookup, if_pos ⟨rfl, rfl⟩]⟩
  · have hlt'' : registry' < sys.registries.length := by
      rwa [System.granted, setRegistry, List.length_set] at hlt'
    have hclient : (final.registry registry').client = (sys.registry registry').client := by
      refine client_setRegistry ?_ registry'
      rfl
    show (final.registry registry').client < (sys.clients.set session.client c).length
    rw [hclient, List.length_set]
    exact h.client_lt registry' hlt''
  · show l < final.leases.length
    rw [hlength]
    exact Nat.lt_succ_of_lt hl
  · exact congrArg Lease.tx (hold l hl)
  · rwa [← hisOpen]
  · rw [hlookup, if_neg, hl]
    rintro ⟨rfl, rfl⟩
    rw [hnone] at hl
    cases hl

end Granting

theorem acquire_of_none (hcx : cx.transaction = some tx)
    (hnone : (sys.registry registry).slots.find? tx = none) :
    let slot : Slot := { serial := (sys.registry registry).nextSerial }
    sys.acquire registry cx =
      match (sys.setRegistry registry (withSlot (sys.registry registry) tx)).createLease
        (System.closeWithin sys.heldScopes) registry cx tx with
      | (.ok l, sys') =>
        ((sys'.fillSlot registry tx slot l).checkLease tx l, sys'.fillSlot registry tx slot l)
      | (.error e, sys') => (.error e, sys'.releaseSlot registry tx slot) := by
  unfold acquire acquireWith
  rw [hcx]
  dsimp only
  generalize hopened : sys.openSlot registry tx = opened
  obtain rfl := (openSlot_of_none hnone).symm.trans hopened
  rfl

theorem find?_withSlot (hlt : registry < sys.registries.length) (tx tx' : TxKey)
    (registry' : RegistryKey) :
    ((sys.setRegistry registry (withSlot (sys.registry registry) tx)).registry registry').slots.find?
        tx' =
      if registry' = registry ∧ tx' = tx then some { serial := (sys.registry registry).nextSerial }
      else (sys.registry registry').slots.find? tx' :=
  find?_setRegistry_insert hlt rfl registry' tx'

theorem releaseSlot_spec {slot : Slot} (hslot : slot.lease = none)
    (honly : ∀ slot', (sys.registry registry).slots.find? tx = some slot' → slot' = slot) :
    sys.Alike (sys.releaseSlot registry tx slot) ∧
      (sys.releaseSlot registry tx slot).registries.length = sys.registries.length ∧
      (sys.releaseSlot registry tx slot).clients = sys.clients ∧
      ∀ registry', ((sys.releaseSlot registry tx slot).registry registry').client =
          (sys.registry registry').client ∧
        ∀ tx', ((sys.releaseSlot registry tx slot).registry registry').slots.find? tx' =
          if registry' = registry ∧ tx' = tx then none
          else (sys.registry registry').slots.find? tx' := by
  by_cases hfind : (sys.registry registry).slots.find? tx = some slot
  · have hreleases : sys.releaseSlot registry tx slot = sys.detach registry tx := if_pos hfind
    rw [hreleases]
    refine ⟨alike_setRegistry rfl fun registry' tx' => ?_, List.length_set .., rfl, fun registry' =>
      ⟨sys.client_detach registry registry' tx, fun tx' => sys.find?_detach registry registry' tx tx'⟩⟩
    show (sys.detach registry tx).lookup registry' tx' = _
    unfold lookup
    rw [find?_detach]
    split
    · rename_i hsame
      rw [hsame.1, hsame.2, hfind, Option.bind_some, hslot]
      rfl
    · rfl
  · have hreleases : sys.releaseSlot registry tx slot = sys := if_neg hfind
    have hnone : (sys.registry registry).slots.find? tx = none := by
      cases hother : (sys.registry registry).slots.find? tx with
      | none => rfl
      | some slot' =>
        rw [hother, honly slot' hother] at hfind
        exact absurd rfl hfind
    rw [hreleases]
    refine ⟨.of_eq rfl rfl rfl rfl rfl, rfl, rfl, fun registry' => ⟨rfl, fun tx' => ?_⟩⟩
    split
    · rename_i hsame
      rw [hsame.1, hsame.2, hnone]
    · rfl

section OpeningSlot

variable (hlt : registry < sys.registries.length)
  (hnone : (sys.registry registry).slots.find? tx = none)

include hlt hnone

theorem alike_withSlot :
    sys.Alike (sys.setRegistry registry (withSlot (sys.registry registry) tx)) :=
  alike_setRegistry rfl fun registry' tx' => by
    unfold lookup
    rw [find?_withSlot hlt]
    split
    · rename_i hsame
      rw [hsame.1, hsame.2, hnone]
      rfl
    · rfl

/-- A slot that is opened and released again leaves nothing behind. -/
theorem releaseSlot_opened (h : sys'.Disciplined [])
    (hnarrows : (sys.setRegistry registry (withSlot (sys.registry registry) tx)).Narrows sys') :
    let final := sys'.releaseSlot registry tx { serial := (sys.registry registry).nextSerial }
    final.Disciplined [] ∧ sys.Narrows final ∧
      (final.registry registry).slots.find? tx = none := by
  intro final
  have hfind₁ := fun tx' registry' => find?_withSlot hlt tx tx' registry'
  have hfree : ({ serial := (sys.registry registry).nextSerial } : Slot).lease = none := rfl
  have honly (slot : Slot) (hslot : (sys'.registry registry).slots.find? tx = some slot) :
      slot = { serial := (sys.registry registry).nextSerial } := by
    have hbefore := hnarrows.slot registry tx slot hslot
    rw [hfind₁, if_pos ⟨rfl, rfl⟩] at hbefore
    exact (Option.some.inj hbefore).symm
  obtain ⟨halike, hregistries, hclients, hrows⟩ := releaseSlot_spec hfree honly
  refine ⟨halike.disciplined h, ⟨?_, ?_, fun registry' => ?_, fun registry' tx' slot hslot => ?_,
    fun registry' tx' hopen => ?_, fun tx' hopen => ?_, fun tx' => ?_, fun l hl => ?_,
    fun ref hrunning => hnarrows.running ref (halike.running hrunning)⟩, ?_⟩
  · rw [hregistries, hnarrows.registries]
    exact List.length_set ..
  · rw [hclients]
    exact hnarrows.clients
  · rw [(hrows registry').1, hnarrows.client]
    refine client_setRegistry ?_ registry'
    rfl
  · rw [(hrows registry').2] at hslot
    split at hslot
    · cases hslot
    · rename_i hother
      have hbefore := hnarrows.slot registry' tx' slot hslot
      rwa [hfind₁, if_neg hother] at hbefore
  · rw [halike.isOpen] at hopen
    rw [(hrows registry').2]
    split
    · rename_i hsame
      rw [hsame.1, hsame.2, hnone]
    · rename_i hother
      rw [hnarrows.kept registry' tx' hopen, hfind₁, if_neg hother]
  · rw [halike.isOpen] at hopen
    exact hnarrows.isOpen tx' hopen
  · rw [halike.participants]
    exact hnarrows.participants tx'
  · rw [halike.leases, lease_of_eq halike.leases]
    exact hnarrows.lease l hl
  · rw [(hrows registry).2, if_pos ⟨rfl, rfl⟩]

theorem fillSlot_opened (hfilled : sys.Filled) (h : sys'.Disciplined [])
    (hnarrows : (sys.setRegistry registry (withSlot (sys.registry registry) tx)).Narrows sys')
    {session : SessionRef} {c : Client} (hopens : sys'.Opens session c)
    (htx : tx < sys'.transactions.length) (hopen : (sys'.transaction tx).isOpen = true) :
    let l := sys'.leases.length
    let final := (sys'.enlisted registry tx session c).fillSlot registry tx
      { serial := (sys.registry registry).nextSerial } l
    final.checkLease tx l = .ok l ∧ final.Disciplined [] ∧ final.Filled ∧
      final.lookup registry tx = some l ∧ sys.Lasting final := by
  intro l final
  let serial := (sys.registry registry).nextSerial
  have hlt' : registry < sys'.registries.length := by
    rw [hnarrows.registries, setRegistry, List.length_set]
    exact hlt
  have hfind₁ := fun tx' registry' => find?_withSlot hlt tx tx' registry'
  have hfind : (sys'.registry registry).slots.find? tx = some { serial := serial } := by
    rw [hnarrows.kept registry tx hopen, hfind₁, if_pos ⟨rfl, rfl⟩]
  have hlookup : sys'.lookup registry tx = none := by
    unfold lookup
    rw [hfind]
    rfl
  have hfinal : final = sys'.granted registry tx session c serial := if_pos hfind
  have hlease : final.lease l = { tx := tx, session := session } := by
    rw [hfinal]
    exact (sys'.lease_leased registry tx session c).2
  have hchecks : final.checkLease tx l = .ok l :=
    checkLease_of_active (congrArg Lease.completed hlease)
  obtain ⟨hgranted, hgrants⟩ := h.granted hlt' hopens htx hopen hlookup serial
  have hrows := find?_granted hlt' tx session c serial
  rw [hfinal] at hchecks ⊢
  refine ⟨hchecks, hgranted, fun registry' tx' slot hslot => ?_, ?_,
    ((alike_withSlot hlt hnone).lasting.trans hnarrows.lasting).trans hgrants⟩
  · rw [hrows] at hslot
    split at hslot
    · cases hslot
      rfl
    · rename_i hother
      have hbefore := hnarrows.slot registry' tx' slot hslot
      rw [hfind₁, if_neg hother] at hbefore
      exact hfilled registry' tx' slot hbefore
  · rw [lookup_granted hlt', if_pos ⟨rfl, rfl⟩]

end OpeningSlot

/-- Acquiring a lease keeps the books. If it fails, the transaction has no slot in the registry and
nothing is added; otherwise the slot of the transaction has the lease. -/
theorem Disciplined.acquire (h : sys.Disciplined []) (hfilled : sys.Filled)
    (hlt : registry < sys.registries.length) (hcx : cx.transaction = some tx) :
    let acquired := sys.acquire registry cx
    acquired.2.Disciplined [] ∧ acquired.2.Filled ∧
      ((∃ e, acquired.1 = .error e ∧ (acquired.2.registry registry).slots.find? tx = none ∧
          sys.Narrows acquired.2) ∨
        ∃ l, acquired.1 = .ok l ∧ acquired.2.lookup registry tx = some l ∧
          sys.Lasting acquired.2) := by
  intro acquired
  cases hfind : (sys.registry registry).slots.find? tx with
  | some slot =>
    obtain ⟨l, hl⟩ := Option.isSome_iff_exists.1 (hfilled registry tx slot hfind)
    have hlookup : sys.lookup registry tx = some l := by
      unfold lookup
      rw [hfind, Option.bind_some, hl]
    have hacquired : acquired = (.ok l, sys) := h.acquire_of_lookup hlookup hcx
    rw [hacquired]
    exact ⟨h, hfilled, .inr ⟨l, rfl, hlookup, .refl sys⟩⟩
  | none =>
    have hlt₁ : registry <
        (sys.setRegistry registry (withSlot (sys.registry registry) tx)).registries.length := by
      rwa [setRegistry, List.length_set]
    have hacquires := acquire_of_none hcx hfind
    rcases ((alike_withSlot hlt hfind).disciplined h).createLease hlt₁ hcx sys.heldScopes with
      ⟨e, hfailed, h', hnarrows⟩ | ⟨sys', session, c, h', hnarrows, hopens, htx, hopen, hmade⟩
    · cases hmade : (sys.setRegistry registry (withSlot (sys.registry registry) tx)).createLease
        (System.closeWithin sys.heldScopes) registry cx tx with
      | mk outcome sys' =>
      rw [hmade] at hfailed h' hnarrows
      obtain rfl : outcome = .error e := hfailed
      obtain ⟨hreleased, hreleases, hnone⟩ := releaseSlot_opened hlt hfind h' hnarrows
      have hacquired : acquired = (.error e, sys'.releaseSlot registry tx
          { serial := (sys.registry registry).nextSerial }) := by
        refine hacquires.trans ?_
        rw [hmade]
      rw [hacquired]
      exact ⟨hreleased, hfilled.narrows hreleases, .inl ⟨e, rfl, hnone, hreleases⟩⟩
    · obtain ⟨hchecks, hgranted, hfilled', hlookup, hgrants⟩ :=
        fillSlot_opened hlt hfind hfilled h' hnarrows hopens htx hopen
      have hacquired : acquired = (.ok sys'.leases.length,
          (sys'.enlisted registry tx session c).fillSlot registry tx
            { serial := (sys.registry registry).nextSerial } sys'.leases.length) := by
        refine hacquires.trans ?_
        rw [hmade]
        dsimp only
        rw [hchecks]
      rw [hacquired]
      exact ⟨hgranted, hfilled', .inr ⟨_, rfl, hlookup, hgrants⟩⟩

end System

end ScopedStore
