import ScopedStore.Proofs.Scope.Deeds

/-!
# Which session a call gets

A pinned facade calls with its session. Any other calls plainly where the context has no transaction, and
with the transaction's registered session where it has one, which is made at the first use. No session is made
for a transaction that has expired or ended. A call is refused and changes nothing where the registered
session is settled, be it because its transaction has ended or, before, through an enlistment that no registry
made (`System.calls_dispatched`). Databases, collections and narrowed collections that a facade gives call as
the facade itself does (`Facade.Leads`).
-/

namespace ScopedStore

/-! ## Facades that a facade gives -/

/-- The facade gives the other one, directly or through others. -/
inductive Facade.Leads (f : Facade) : Facade → Prop where
  | refl : Leads f f
  | follow {g : Facade} (h : Leads f g) (step : g.reach.Step) : Leads f (g.follow step)

theorem Facade.Leads.same {f g : Facade} (h : f.Leads g) :
    g.client = f.client ∧ g.binding = f.binding := by
  induction h with
  | refl => exact ⟨rfl, rfl⟩
  | follow _ _ ih => exact ih

def System.Has (sys : System) (registry : RegistryKey) : Prop :=
  registry < sys.registries.length ∧ (sys.registry registry).client < sys.clients.length

instance (sys : System) (registry : RegistryKey) : Decidable (sys.Has registry) :=
  inferInstanceAs (Decidable (_ ∧ _))

namespace System

variable {sys sys' : System} {client : ClientKey} {registry : RegistryKey} {tx : TxKey} {cx : Context}
  {l : LeaseKey} {r : Request}

/-! ## What calls are answered -/

/-- The registry gives another number to its next slot, which only tells the slot apart from earlier ones;
everything else is the same. -/
def renumbered (sys : System) (registry : RegistryKey) (number : Nat) : System :=
  sys.setRegistry registry { sys.registry registry with nextSerial := number }

/-- A participant of some transaction asks the registry for the transaction's lease when it looks around. -/
def Asked (sys : System) (registry : RegistryKey) (tx : TxKey) : Prop :=
  ∃ p tx', .probe p ∈ (sys.transaction tx').participants ∧ p.Asks registry tx

/-- While the lease is made, it may be asked for once more: the registry closes a scope before its first
session starts, and a participant that is told then asks for the lease that is being made. Nothing is said of
the slot then, since a registry that makes each lease once has no answer to give (`acquireWith`). -/
def Reenters (sys : System) (registry : RegistryKey) (tx : TxKey) : Prop :=
  (sys.registry registry).closing.isSome ∧ sys.Asked registry tx

/-- How a request is answered in a transaction. -/
structure AnsweredIn (sys : System) (client : ClientKey) (registry : RegistryKey) (cx : Context)
    (tx : TxKey) (r : Request) (answer : Except TxError Reply × System) : Prop where
  /-- The registered session is used. -/
  leased : (sys.transaction tx).status = .active → ∀ l, sys.lookup registry tx = some l →
    (sys.lease l).completed = false → answer = sys.request client (some (sys.lease l).session) r
  /-- The registered session is settled already. -/
  settled : (sys.transaction tx).status = .active → ∀ l, sys.lookup registry tx = some l →
    (sys.lease l).completed = true →
      sys.Shared l ∧ answer = (.error (.notActive (sys.txId tx) .active), sys)
  /-- It is too late for a session. -/
  expired : (sys.transaction tx).status = .active → sys.lookup registry tx = none →
    (sys.transaction tx).isExpired sys.clock = true →
      ∃ number, answer = (.error (.timeout (sys.txId tx)), sys.renumbered registry number)
  /-- A session is made, registered and used. -/
  created : (sys.transaction tx).status = .active → sys.lookup registry tx = none →
    (sys.transaction tx).isExpired sys.clock = false → ∀ l sys',
      sys.acquire registry cx = (.ok l, sys') →
      sys.leases.length ≤ l ∧ sys'.Ongoing tx l ∧
      (sys'.lookup registry tx = some l ∨ sys.Reenters registry tx) ∧
      answer = sys'.request client (some (sys'.lease l).session) r
  /-- No session can be made, and none is registered. It takes a fault of the client, or a scope that the
  registry closes before. -/
  failed : (sys.transaction tx).status = .active → sys.lookup registry tx = none →
    (sys.transaction tx).isExpired sys.clock = false → ∀ e sys',
      sys.acquire registry cx = (.error e, sys') →
      (sys'.lookup registry tx = none ∨ sys.Reenters registry tx) ∧
      ((sys.registry registry).closing = none →
        ∃ fault, e = .store fault ∧ (sys.client (sys.registry registry).client).Denies fault) ∧
      answer = (.error e, sys')
  /-- The transaction has ended. -/
  ended : (sys.transaction tx).status ≠ .active → ∃ number, answer =
    (.error (.notActive (sys.txId tx) (sys.transaction tx).status), sys.renumbered registry number)

structure Answered (sys : System) (client : ClientKey) (b : Binding) (cx : Context) (r : Request)
    (answer : Except TxError Reply × System) : Prop where
  /-- The pinned session is used, whatever the context. -/
  pinned : ∀ s, b = .pinned s → answer = sys.request client (some s) r
  /-- Without a transaction, no session is used and no registry is touched. -/
  plain : ∀ registry, b = .byRegistry registry → cx.transaction = none →
    answer = sys.request client none r ∧ answer.2.registries = sys.registries
  within : ∀ registry tx, b = .byRegistry registry → cx.transaction = some tx →
    sys.AnsweredIn client registry cx tx r answer

/-! ## Refusing a lease -/

theorem renumbered_self (sys : System) (registry : RegistryKey) :
    sys.renumbered registry (sys.registry registry).nextSerial = sys := by
  have hset : sys.registries.set registry (sys.registry registry) = sys.registries :=
    set_getD sys.registries registry default
  unfold renumbered setRegistry
  rw [hset]

theorem acquire_of_refused (hlt : registry < sys.registries.length) (hcx : cx.transaction = some tx)
    (hnone : (sys.registry registry).slots.find? tx = none) {e : TxError}
    (hcheck : (sys.transaction tx).checkAccepting (sys.txId tx) sys.clock = .error e) :
    ∃ number, sys.acquire registry cx = (.error e, sys.renumbered registry number) := by
  let sys₁ := sys.setRegistry registry (withSlot (sys.registry registry) tx)
  have hcreate : sys₁.createLease (closeWithin sys.heldScopes) registry cx tx = (.error e, sys₁) := by
    have hcheck₁ : (sys₁.transaction tx).checkAccepting (sys₁.txId tx) sys₁.clock = .error e := hcheck
    unfold createLease
    rw [hcheck₁]
  -- the slot that is erased is the one that was inserted, so only the next number differs
  have hreleased : sys₁.releaseSlot registry tx { serial := (sys.registry registry).nextSerial } =
      sys.renumbered registry ((sys.registry registry).nextSerial + 1) := by
    have hrow : sys₁.registry registry = withSlot (sys.registry registry) tx :=
      registry_setRegistry_self hlt _
    have hslot : (withSlot (sys.registry registry) tx).slots.find? tx =
        some { serial := (sys.registry registry).nextSerial } := SortedMap.find?_insert_self _ _ _
    have hslots : (withSlot (sys.registry registry) tx).slots.erase tx = (sys.registry registry).slots :=
      SortedMap.erase_insert hnone _
    unfold releaseSlot
    dsimp only
    rw [hrow, if_pos hslot, hslots]
    exact setRegistry_setRegistry sys registry _ _
  rw [acquire_of_none hcx hnone, hcreate]
  exact ⟨_, congrArg _ hreleased⟩

/-! ## Making a lease -/

theorem Ongoing.of_eq (hl : sys.Ongoing tx l) (hleases : sys'.leases = sys.leases)
    (henlistments : sys'.enlistments = sys.enlistments)
    (htransactions : sys'.transactions = sys.transactions) : sys'.Ongoing tx l := by
  obtain ⟨e, hsame, he⟩ := hl.participant
  refine ⟨by rw [hleases]; exact hl.lt, ?_, ?_, ?_, e, ?_, ?_⟩
  · rw [lease_of_eq hleases, hl.lease_tx]
  · rw [lease_of_eq hleases, hl.completed]
  · rw [transaction_of_eq htransactions, hl.isOpen]
  · rw [enlistment_of_eq henlistments, hsame]
  · rwa [transaction_of_eq htransactions]

theorem Steady.asked (h : sys.Steady) : sys.Attended sys.Asked [] where
  enlistment := h.attended.enlistment
  participant := h.attended.participant
  told := h.attended.told
  probe p hp registry tx hasks := by
    obtain ⟨tx', hp⟩ := hp.resolve_left List.not_mem_nil
    exact ⟨p, tx', hp, hasks⟩
  closed := h.attended.closed
  slot := h.attended.slot

section Creating

variable (hlt : registry < sys.registries.length)
  (hnone : (sys.registry registry).slots.find? tx = none)

include hlt hnone

/-- A slot that a registry opens while it holds back no scope, or for a lease that nobody asks for, belongs to
the lease that is made for it. -/
theorem Steady.createLease_spec (h : sys.Steady) (hcx : cx.transaction = some tx) :
    let slot : Slot := { serial := (sys.registry registry).nextSerial }
    let made := (sys.setRegistry registry (withSlot (sys.registry registry) tx)).createLease
      (closeWithin sys.heldScopes) registry cx tx
    (∀ l, made.1 = .ok l → sys.leases.length ≤ l ∧ made.2.Ongoing tx l) ∧
      (sys.Reenters registry tx ∨
        ((made.2.transaction tx).isOpen = true →
          (made.2.registry registry).slots.find? tx = some slot) ∧
        ∀ slot', (made.2.registry registry).slots.find? tx = some slot' → slot' = slot) := by
  intro slot made
  let sys₁ := sys.setRegistry registry (withSlot (sys.registry registry) tx)
  have hopened : Opened registry tx slot sys sys₁ := by
    have hopens := sys.opened_openSlot registry tx
    rw [openSlot_of_none hnone] at hopens
    exact hopens rfl
  have hslot : (sys₁.registry registry).slots.find? tx = some slot := by
    rw [find?_withSlot hlt, if_pos ⟨rfl, rfl⟩]
  obtain ⟨hregistries, -, hadvances, hongoing⟩ := (hopened.attended h.asked).createLease
    ((attentive_closeWithin sys.Asked sys.heldScopes).closeHeldScope [] sys₁ registry) hcx
  refine ⟨hongoing, ?_⟩
  by_cases hasked : sys.Asked registry tx
  · cases hclosing : (sys.registry registry).closing with
    | some scope => exact .inl ⟨by rw [hclosing]; rfl, hasked⟩
    | none =>
      have hclosing₁ : (sys₁.registry registry).closing = none := by
        rw [registry_setRegistry_self hlt]
        exact hclosing
      rw [closeHeldScope_of_none hclosing₁, or_self] at hregistries
      rw [registry_of_eq hregistries registry]
      exact .inr ⟨fun _ => hslot, hopened.only⟩
  · refine .inr ⟨fun hopen => ?_, fun slot' hslot' => ?_⟩
    · exact (hadvances.kept registry tx slot hslot hopen).resolve_right fun hcalled => hasked hcalled.2
    · exact hopened.only slot'
        ((hadvances.slot registry tx slot' hslot').resolve_right fun hcalled => hasked hcalled.2)

theorem Steady.acquire_eq (h : sys.Steady) (hcx : cx.transaction = some tx) :
    let slot : Slot := { serial := (sys.registry registry).nextSerial }
    let made := (sys.setRegistry registry (withSlot (sys.registry registry) tx)).createLease
      (closeWithin sys.heldScopes) registry cx tx
    sys.acquire registry cx = (made.1,
      match made.1 with
      | .ok l => made.2.fillSlot registry tx slot l
      | .error _ => made.2.releaseSlot registry tx slot) := by
  intro slot
  obtain ⟨hongoing, -⟩ := h.createLease_spec hlt hnone hcx
  have hacquire := acquire_of_none hcx hnone
  dsimp only at hongoing hacquire ⊢
  generalize (sys.setRegistry registry (withSlot (sys.registry registry) tx)).createLease
    (closeWithin sys.heldScopes) registry cx tx = made at *
  obtain ⟨outcome, sys₁⟩ := made
  cases outcome with
  | error e => exact hacquire
  | ok l =>
    obtain ⟨-, hl⟩ := hongoing l rfl
    obtain ⟨hleases, -, -⟩ := sys₁.fillSlot_rows registry tx slot l
    have hactive : ((sys₁.fillSlot registry tx slot l).lease l).completed = false := by
      rw [lease_of_eq hleases]
      exact hl.completed
    dsimp only at hacquire
    rw [checkLease_of_active hactive] at hacquire
    exact hacquire

theorem Steady.acquire_ok (h : sys.Steady) (hcx : cx.transaction = some tx)
    (hacquire : sys.acquire registry cx = (.ok l, sys')) :
    sys.leases.length ≤ l ∧ sys'.Ongoing tx l ∧
      (sys'.lookup registry tx = some l ∨ sys.Reenters registry tx) := by
  obtain ⟨hongoing, halone⟩ := h.createLease_spec hlt hnone hcx
  have hmade := (h.acquire_eq hlt hnone hcx).symm.trans hacquire
  generalize (sys.setRegistry registry (withSlot (sys.registry registry) tx)).createLease
    (closeWithin sys.heldScopes) registry cx tx = made at *
  obtain ⟨outcome, sys₁⟩ := made
  cases outcome with
  | error e => cases hmade
  | ok l =>
    cases hmade
    obtain ⟨hnew, hl⟩ := hongoing l rfl
    obtain ⟨hleases, henlistments, htransactions⟩ := sys₁.fillSlot_rows registry tx _ l
    refine ⟨hnew, hl.of_eq hleases henlistments htransactions,
      halone.symm.imp_left fun ⟨hkept, _⟩ => ?_⟩
    unfold lookup
    rw [find?_fillSlot, if_pos ⟨⟨rfl, rfl⟩, hkept hl.isOpen⟩]
    rfl

theorem Steady.acquire_error (h : sys.Steady) (hcx : cx.transaction = some tx) {e : TxError}
    (hacquire : sys.acquire registry cx = (.error e, sys')) :
    sys'.lookup registry tx = none ∨ sys.Reenters registry tx := by
  obtain ⟨-, halone⟩ := h.createLease_spec hlt hnone hcx
  have hmade := (h.acquire_eq hlt hnone hcx).symm.trans hacquire
  generalize (sys.setRegistry registry (withSlot (sys.registry registry) tx)).createLease
    (closeWithin sys.heldScopes) registry cx tx = made at *
  obtain ⟨outcome, sys₁⟩ := made
  cases outcome with
  | ok l => cases hmade
  | error e =>
    cases hmade
    refine halone.symm.imp_left fun ⟨_, honly⟩ => ?_
    unfold lookup
    rw [find?_releaseSlot]
    split
    · rfl
    · rename_i hnot
      cases hfind : (sys₁.registry registry).slots.find? tx with
      | none => rfl
      | some slot => exact absurd ⟨⟨rfl, rfl⟩, by rw [hfind, honly slot hfind]⟩ hnot

theorem Steady.acquire_denied (h : sys.Steady) (hcx : cx.transaction = some tx)
    (hclosing : (sys.registry registry).closing = none)
    (hclient : (sys.registry registry).client < sys.clients.length)
    (hcheck : (sys.transaction tx).checkAccepting (sys.txId tx) sys.clock = .ok ()) {e : TxError}
    (hacquire : sys.acquire registry cx = (.error e, sys')) :
    ∃ fault, e = .store fault ∧ (sys.client (sys.registry registry).client).Denies fault := by
  let sys₁ := sys.setRegistry registry (withSlot (sys.registry registry) tx)
  have hrow : sys₁.registry registry = withSlot (sys.registry registry) tx :=
    registry_setRegistry_self hlt _
  have hregistry : (sys₁.registry registry).client = (sys.registry registry).client := by
    rw [hrow]
    rfl
  have hclosing₁ : (sys₁.registry registry).closing = none := by
    rw [hrow]
    exact hclosing
  have hcheck₁ : (sys₁.transaction tx).checkAccepting (sys₁.txId tx) sys₁.clock = .ok () := hcheck
  have hmade := (h.acquire_eq hlt hnone hcx).symm.trans hacquire
  exact createLease_denied hregistry hclosing₁ hcheck₁ _ hclient hcx (congrArg Prod.fst hmade)

end Creating

/-! ## Answering a call -/

theorem requestThrough_of_refused (hcx : cx.transaction = some tx) {e : TxError}
    (hacquire : sys.acquire registry cx = (.error e, sys')) :
    sys.requestThrough client (.byRegistry registry) cx r = (.error e, sys') := by
  unfold requestThrough dispatch
  dsimp only
  rw [hcx]
  dsimp only
  rw [hacquire]

theorem requestThrough_of_acquired (hcx : cx.transaction = some tx)
    (hacquire : sys.acquire registry cx = (.ok l, sys')) (hactive : (sys'.lease l).completed = false) :
    sys.requestThrough client (.byRegistry registry) cx r =
      sys'.request client (some (sys'.lease l).session) r := by
  have hadmits : sys'.admits l = true := by
    unfold admits
    rw [hactive]
    rfl
  unfold requestThrough dispatch
  dsimp only
  rw [hcx]
  dsimp only
  rw [hacquire]
  dsimp only
  rw [if_pos hadmits]

namespace Steady

theorem find?_eq_none (h : sys.Steady) (hnone : sys.lookup registry tx = none) :
    (sys.registry registry).slots.find? tx = none := by
  cases hfind : (sys.registry registry).slots.find? tx with
  | none => rfl
  | some slot =>
    have hfilled := h.filled registry tx slot hfind
    unfold lookup at hnone
    rw [hfind] at hnone
    have hempty : slot.lease = none := hnone
    rw [hempty] at hfilled
    cases hfilled

theorem answeredIn (h : sys.Steady) (client : ClientKey) (hregistry : sys.Has registry)
    (hcx : cx.transaction = some tx) (r : Request) :
    sys.AnsweredIn client registry cx tx r (sys.requestThrough client (.byRegistry registry) cx r) where
  leased _ l hl hactive := by
    have hacquire := acquire_of_lookup hcx hl
    rw [checkLease_of_active hactive] at hacquire
    exact requestThrough_of_acquired hcx hacquire hactive
  settled hstatus l hl hsettled := by
    obtain ⟨-, -, -, hshared⟩ := h.attended.slot registry tx l hl
    refine ⟨hshared ((h.isOpen_iff tx).2 hstatus) hsettled, ?_⟩
    have hacquire := acquire_of_lookup hcx hl
    rw [checkLease_of_completed hsettled, hstatus] at hacquire
    exact requestThrough_of_refused hcx hacquire
  expired hstatus hnone hexpired := by
    have hcheck : (sys.transaction tx).checkAccepting (sys.txId tx) sys.clock =
        .error (.timeout (sys.txId tx)) := by
      unfold Transaction.checkAccepting
      rw [(h.isOpen_iff tx).2 hstatus, hexpired]
      rfl
    obtain ⟨number, hacquire⟩ := acquire_of_refused hregistry.1 hcx (h.find?_eq_none hnone) hcheck
    exact ⟨number, requestThrough_of_refused hcx hacquire⟩
  created _ hnone _ l sys' hacquire := by
    obtain ⟨hnew, hl, hregistered⟩ := h.acquire_ok hregistry.1 (h.find?_eq_none hnone) hcx hacquire
    exact ⟨hnew, hl, hregistered, requestThrough_of_acquired hcx hacquire hl.completed⟩
  failed hstatus hnone hcurrent e sys' hacquire := by
    have hslot := h.find?_eq_none hnone
    have hcheck : (sys.transaction tx).checkAccepting (sys.txId tx) sys.clock = .ok () := by
      unfold Transaction.checkAccepting
      rw [(h.isOpen_iff tx).2 hstatus, hcurrent]
      rfl
    exact ⟨h.acquire_error hregistry.1 hslot hcx hacquire,
      fun hclosing => h.acquire_denied hregistry.1 hslot hcx hclosing hregistry.2 hcheck hacquire,
      requestThrough_of_refused hcx hacquire⟩
  ended hstatus := by
    have hclosed : (sys.transaction tx).isOpen = false :=
      Bool.eq_false_iff.2 fun hopen => hstatus ((h.isOpen_iff tx).1 hopen)
    cases hlookup : sys.lookup registry tx with
    | some l =>
      -- nobody who is still to be told an outcome takes part in the transaction
      have hsettled : (sys.lease l).completed = true := by
        obtain ⟨-, -, hdue, -⟩ := h.attended.slot registry tx l hlookup
        refine hdue.resolve_right fun ⟨e, _, he⟩ => ?_
        rw [h.attended.closed tx hclosed] at he
        exact he.elim List.not_mem_nil List.not_mem_nil
      have hacquire := acquire_of_lookup hcx hlookup
      rw [checkLease_of_completed hsettled] at hacquire
      refine ⟨(sys.registry registry).nextSerial, ?_⟩
      rw [renumbered_self]
      exact requestThrough_of_refused hcx hacquire
    | none =>
      have hcheck : (sys.transaction tx).checkAccepting (sys.txId tx) sys.clock =
          .error (.notActive (sys.txId tx) (sys.transaction tx).status) := by
        unfold Transaction.checkAccepting
        rw [hclosed]
        rfl
      obtain ⟨number, hacquire⟩ := acquire_of_refused hregistry.1 hcx (h.find?_eq_none hlookup) hcheck
      exact ⟨number, requestThrough_of_refused hcx hacquire⟩

theorem answered (h : sys.Steady) (client : ClientKey) {b : Binding}
    (hb : ∀ registry, b = .byRegistry registry → sys.Has registry) (cx : Context) (r : Request) :
    sys.Answered client b cx r (sys.requestThrough client b cx r) where
  pinned s hpinned := by
    rw [hpinned]
    rfl
  plain registry hregistry hcx := by
    have hplain : sys.requestThrough client b cx r = sys.request client none r := by
      unfold requestThrough dispatch
      rw [hregistry, hcx]
    rw [hplain]
    exact ⟨rfl, registries_onClient sys client _⟩
  within registry tx hregistry hcx := by
    rw [hregistry]
    exact h.answeredIn client (hb registry hregistry) hcx r

end Steady

/-- Whatever has been done to a system, every call of a facade, and of the databases and collections that it
gives, gets exactly the session that the binding and the context determine. -/
theorem calls_dispatched (seed clock : Nat) {ds : List Deed}
    (hfits : System.FitDeeds { seed := seed, clock := clock } ds) {f g : Facade} (hfg : f.Leads g)
    (hhas : ∀ registry, f.binding = .byRegistry registry →
      (System.deeds { seed := seed, clock := clock } ds).Has registry)
    (cx : Context) (c : Call g.reach) :
    let sys := System.deeds { seed := seed, clock := clock } ds
    sys.Answered f.client f.binding cx c.request (sys.callThrough g cx c) := by
  intro sys
  obtain ⟨hclient, hbinding⟩ := hfg.same
  unfold callThrough
  rw [hclient, hbinding]
  exact ((Steady.start seed clock).deeds hfits).answered f.client hhas cx c.request

def tills : Facade := { client := 0, binding := .byRegistry 0 }

def entries : Facade := (tills.follow (.database "app")).follow (.collection "ledger")

def tens : Facade := entries.follow (.withFilter (.eq "amount" (.integer 10)))

/-- One transaction has inserted entries and gets an enlistment that its registry has not made; another one
has used the registry and is committed. -/
def daysWork : List Deed :=
  [.addClient true, .addRegistry 0 none, .begin {} .required {},
    .call entries { transaction := some 0 }
      (.documents (.insertMany [Client.entry 1 10, Client.entry 2 20])),
    .attach 0, .begin {} .requiresNew {}, .acquire 0 { transaction := some 1 },
    .close { context := { transaction := some 1 }, option := .requiresNew, owns := true
             completed := true }]

/-- The facade of a narrowed collection that a facade gives reads with its transaction's session, plainly
outside, and not at all in the transaction that has ended. -/
theorem calls_dispatched_daysWork :
    let sys := System.deeds {} daysWork
    let find : Call tens.reach := .documents (.find .all {})
    System.FitDeeds {} daysWork ∧ tills.Leads tens ∧ sys.Has 0 ∧
      sys.callThrough tens { transaction := some 0 } find =
        sys.request 0 (some (sys.lease 0).session) find.request ∧
      (sys.callThrough tens { transaction := some 0 } find).1 =
        .ok (.documents [Client.entry 1 10]) ∧
      sys.callThrough tens {} find = sys.request 0 none find.request ∧
      (sys.callThrough tens {} find).1 = .ok (.documents []) ∧
      (sys.callThrough tens { transaction := some 1 } find).1 =
        .error (.notActive (sys.txId 1) .committed) := by
  intro sys find
  have hfits : System.FitDeeds {} daysWork := by decide +kernel
  have hleads : tills.Leads tens := .follow (.follow (.follow .refl _) _) _
  have hhas : sys.Has 0 := by decide +kernel
  have hanswered (cx : Context) : sys.Answered 0 (.byRegistry 0) cx find.request
      (sys.callThrough tens cx find) := calls_dispatched 0 86400 hfits hleads
    (fun registry hregistry => by cases hregistry; exact hhas) cx find
  have hleased : sys.callThrough tens { transaction := some 0 } find =
      sys.request 0 (some (sys.lease 0).session) find.request :=
    ((hanswered _).within 0 0 rfl rfl).leased (by decide +kernel) 0 (by decide +kernel) (by decide +kernel)
  obtain ⟨hplain, -⟩ := (hanswered {}).plain 0 rfl rfl
  have hcommitted : (sys.transaction 1).status = .committed := by decide +kernel
  obtain ⟨number, hended⟩ := ((hanswered { transaction := some 1 }).within 0 1 rfl rfl).ended
    (by rw [hcommitted]; decide)
  refine ⟨hfits, hleads, hhas, hleased, ?_, hplain, ?_, ?_⟩
  · rw [hleased]
    decide +kernel
  · rw [hplain]
    decide +kernel
  · rw [hended, hcommitted]

/-- A lease is settled by an enlistment that its registry has not made, while its transaction is active. -/
def settledByHand : List Deed :=
  [.addClient true, .addRegistry 0 none, .begin {} .required {}, .acquire 0 { transaction := some 0 },
    .attach 0, .tell 1 .commit]

/-- The call is refused although the transaction is active. On the registered session, which is still the
same, it would have another outcome: that session has ended. -/
theorem refused_while_active :
    let sys := System.deeds {} settledByHand
    let cx : Context := { transaction := some 0 }
    let find : Call entries.reach := .documents (.find .all {})
    System.FitDeeds {} settledByHand ∧ (sys.transaction 0).status = .active ∧
      sys.lookup 0 0 = some 0 ∧
      (sys.callThrough entries cx find).1 = .error (.notActive (sys.txId 0) .active) ∧
      (sys.request 0 (some (sys.lease 0).session) find.request).1 =
        .error (.store (.sessionEnded ⟨1⟩)) ∧
      sys.callThrough entries cx find ≠ sys.request 0 (some (sys.lease 0).session) find.request := by
  intro sys cx find
  have hrefused : (sys.callThrough entries cx find).1 = .error (.notActive (sys.txId 0) .active) := by
    decide +kernel
  have hended : (sys.request 0 (some (sys.lease 0).session) find.request).1 =
      .error (.store (.sessionEnded ⟨1⟩)) := by decide +kernel
  refine ⟨by decide +kernel, by decide +kernel, by decide +kernel, hrefused, hended, fun hsame => ?_⟩
  rw [hsame, hended] at hrefused
  cases hrefused

end System

end ScopedStore
