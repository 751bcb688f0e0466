import ScopedStore.Proofs.Scope.Leasing

/-!
# Registries keep discipline

Scopes begin and close, registries are asked for leases, used through facades and told to remove leases,
and faults are armed, in any order (`Move`). Every move keeps the books in order (`System.Tidy.move`), so a
transaction has one lease in a registry while it is open, and nothing is left when it ends
(`System.registry_discipline`).
-/

namespace ScopedStore

/-- Something that is done to a system while no one but registries starts sessions and enlists. Closing a
scope value stands for completing a transaction in any way and for abandoning a joined scope. -/
inductive Move where
  | addClient (autoCreate : Bool)
  | addRegistry (client : ClientKey) (closing : Option Scope)
  | begin (parent : Context) (option : ScopeOption) (request : ScopeRequest)
  | close (scope : Scope)
  | acquire (registry : RegistryKey) (cx : Context)
  | request (client : ClientKey) (b : Binding) (cx : Context) (r : Request)
  | remove (registry : RegistryKey) (tx : TxKey)
  | exchangeHold (old new : Option RegistryKey)
  | arm (client : ClientKey) (kind : FaultKind) (n : Nat)
  | wait (seconds : Nat)

/-- The client or the registry that the move relies on is there. -/
def Move.Fits (sys : System) : Move → Prop
  | .addRegistry client _ => client < sys.clients.length
  | .acquire registry _ | .request _ (.byRegistry registry) _ _ => registry < sys.registries.length
  | _ => True

instance Move.decidableFits (sys : System) : (m : Move) → Decidable (m.Fits sys)
  | .addRegistry client _ => inferInstanceAs (Decidable (client < sys.clients.length))
  | .acquire registry _ | .request _ (.byRegistry registry) _ _ =>
    inferInstanceAs (Decidable (registry < sys.registries.length))
  | .request _ (.pinned _) _ _ | .addClient _ | .begin _ _ _ | .close _ | .remove _ _
  | .exchangeHold _ _ | .arm _ _ _ | .wait _ => inferInstanceAs (Decidable True)

namespace System

def move (sys : System) : Move → System
  | .addClient autoCreate => (sys.addClient autoCreate).2
  | .addRegistry client closing => (sys.addRegistry client closing).2
  | .begin parent option request => (sys.begin parent option request).2
  | .close scope => (sys.close scope).2
  | .acquire registry cx => (sys.acquire registry cx).2
  | .request client b cx r => (sys.requestThrough client b cx r).2
  | .remove registry tx => (sys.removeLease registry tx).2
  | .exchangeHold old new => sys.exchangeHold old new
  | .arm client kind n => sys.setClient client ((sys.client client).after (.arm kind n))
  | .wait seconds => { sys with clock := sys.clock + seconds }

def moveAll (sys : System) (moves : List Move) : System := moves.foldl move sys

def FitAll : System → List Move → Prop
  | _, [] => True
  | sys, m :: rest => m.Fits sys ∧ FitAll (sys.move m) rest

instance decidableFitAll : (sys : System) → (moves : List Move) → Decidable (sys.FitAll moves)
  | _, [] => inferInstanceAs (Decidable True)
  | sys, m :: rest =>
    have := decidableFitAll (sys.move m) rest
    inferInstanceAs (Decidable (m.Fits sys ∧ FitAll (sys.move m) rest))

structure Tidy (sys : System) : Prop where
  disciplined : sys.Disciplined []
  filled : sys.Filled

/-- Leases stay what they are and, while their transactions are open and they are not removed, where they
are; a transaction that is not open stays closed. -/
structure Outlasts (moves : List Move) (sys sys' : System) : Prop where
  lease : ∀ l < sys.leases.length, l < sys'.leases.length ∧ (sys'.lease l).tx = (sys.lease l).tx
  isOpen : ∀ tx, (sys'.transaction tx).isOpen = true → (sys.transaction tx).isOpen = true
  lookup : ∀ registry tx l, .remove registry tx ∉ moves → sys.lookup registry tx = some l →
    (sys'.transaction tx).isOpen = true → sys'.lookup registry tx = some l

variable {sys sys' sys'' : System} {registry : RegistryKey} {tx : TxKey} {cx : Context} {l : LeaseKey}

namespace Outlasts

theorem refl (sys : System) : sys.Outlasts [] sys :=
  ⟨fun _ hl => ⟨hl, rfl⟩, fun _ h => h, fun _ _ _ _ h _ => h⟩

theorem of_lasting (h : sys.Lasting sys') (moves : List Move) : sys.Outlasts moves sys' :=
  ⟨h.lease, h.isOpen, fun registry tx l _ => h.lookup registry tx l⟩

theorem cons {m : Move} {rest : List Move} (h : sys.Outlasts [m] sys') (h' : sys'.Outlasts rest sys'') :
    sys.Outlasts (m :: rest) sys'' where
  lease l hl := by
    obtain ⟨hl', htx⟩ := h.lease l hl
    obtain ⟨hl'', htx'⟩ := h'.lease l hl'
    exact ⟨hl'', htx'.trans htx⟩
  isOpen tx hopen := h.isOpen tx (h'.isOpen tx hopen)
  lookup registry tx l hkept hl hopen := by
    rw [List.mem_cons, not_or] at hkept
    have hhere := h.lookup registry tx l (by rw [List.mem_singleton]; exact hkept.1) hl
      (h'.isOpen tx hopen)
    exact h'.lookup registry tx l hkept.2 hhere hopen

end Outlasts

/-! ## Removing a lease -/

theorem Disciplined.eq_of_lookup (h : sys.Disciplined []) (hl : sys.lookup registry tx = some l)
    {registry' : RegistryKey} {tx' : TxKey} (hl' : sys.lookup registry' tx' = some l) :
    registry' = registry ∧ tx' = tx := by
  have hr := h.registered
  have hplace {tx : TxKey} {e : EnlistmentKey} (howed : sys.Owed [] tx e) :
      e < sys.enlistments.length := by
    obtain ⟨e', he', hsame, -⟩ := hr.participant tx _ (howed.resolve_right List.not_mem_nil)
    cases hsame
    exact he'
  obtain ⟨-, -, ⟨e, howed, hrow⟩, -⟩ := hr.slot registry tx l hl
  obtain ⟨-, -, ⟨e', howed', hrow'⟩, -⟩ := hr.slot registry' tx' l hl'
  have hsame : e' = e := hr.apart e (hplace howed) e' (hplace howed') (by rw [hrow, hrow'])
  rw [hsame, hrow] at hrow'
  cases hrow'
  exact ⟨rfl, rfl⟩

/-- The slot of a lease is taken out and the lease is disposed of. Its enlistment stays, and will end no
session again. -/
theorem Disciplined.removed (h : sys.Disciplined []) (hl : sys.lookup registry tx = some l) :
    let final := (sys.detach registry tx).disposeLease l
    final.Disciplined [] ∧ final.transactions = sys.transactions ∧
      (∀ registry' tx', (final.registry registry').slots.find? tx' =
        if registry' = registry ∧ tx' = tx then none
        else (sys.registry registry').slots.find? tx') ∧
      ∀ l' < sys.leases.length, l' < final.leases.length ∧ (final.lease l').tx = (sys.lease l').tx := by
  intro final
  have hr := h.registered
  obtain ⟨hlt, -, -, -⟩ := hr.slot registry tx l hl
  have hdetached : (sys.detach registry tx).Booked := h.booked.of_eq rfl rfl
  obtain ⟨hbooked, htouches, hleases⟩ := hdetached.disposeLease hlt
  have hrow : final.transaction = sys.transaction :=
    funext fun tx => transaction_of_eq htouches.transactions tx
  have henlistments : final.enlistments = sys.enlistments := htouches.enlistments
  have henlistment : final.enlistment = sys.enlistment := funext (enlistment_of_eq henlistments)
  have hlength : final.leases.length = sys.leases.length := by
    rw [hleases]
    exact List.length_set ..
  have hlease (l' : LeaseKey) : final.lease l' =
      if l' = l then { sys.lease l with disposed := true } else sys.lease l' :=
    lease_of_set hlt hleases l'
  have htx (l' : LeaseKey) : (final.lease l').tx = (sys.lease l').tx := by
    rw [hlease]
    split
    · rename_i hsame
      rw [hsame]
    · rfl
  have hfind (registry' : RegistryKey) (tx' : TxKey) : (final.registry registry').slots.find? tx' =
      if registry' = registry ∧ tx' = tx then none
      else (sys.registry registry').slots.find? tx' := by
    rw [registry_of_eq htouches.registries, find?_detach]
  have hlookup (registry' : RegistryKey) (tx' : TxKey) : final.lookup registry' tx' =
      if registry' = registry ∧ tx' = tx then none else sys.lookup registry' tx' := by
    unfold lookup
    rw [hfind]
    split <;> rfl
  have howed : final.Owed = sys.Owed := by
    funext telling tx e
    unfold Owed
    rw [hrow]
  refine ⟨⟨hbooked, ⟨fun e he => ?_, ?_, ?_, fun e he => absurd he List.not_mem_nil, ?_,
    fun registry' tx' l' hl' => ?_, fun l' hl' => ?_⟩, fun l' hl' hopen hlive => ?_,
    fun registry' hlt' => ?_⟩, htouches.transactions, hfind, fun l' hl' => ⟨by rwa [hlength], htx l'⟩⟩
  · rw [henlistments] at he
    rw [hlength, henlistment, htx]
    exact hr.enlistment e he
  · simpa only [henlistments, henlistment] using hr.apart
  · simpa only [henlistments, henlistment, htx, hrow] using hr.participant
  · simpa only [hrow] using hr.closed
  · rw [hlookup] at hl'
    split at hl'
    · cases hl'
    · rename_i hother
      have hne : l' ≠ l := fun hsame => hother (h.eq_of_lookup hl (hsame ▸ hl'))
      rw [hlength, hlease, if_neg hne, howed, henlistment, hrow]
      exact hr.slot registry' tx' l' hl'
  · rw [hlength] at hl'
    rw [htx, howed]
    refine (hr.accounted l' hl').imp (fun ⟨hcompleted, hdisposed⟩ => ?_) fun ⟨e, hdue, hsame⟩ =>
      ⟨e, hdue, by rw [henlistment, hsame]⟩
    rw [hlease]
    split
    · rename_i hsame
      exact ⟨by rw [← hcompleted, hsame], rfl⟩
    · exact ⟨hcompleted, hdisposed⟩
  · rw [hlength] at hl'
    rw [htx, hrow] at hopen
    rw [hlease] at hlive
    split at hlive
    · cases hlive
    · rename_i hne
      obtain ⟨registry', hheld⟩ := h.held l' hl' hopen hlive
      refine ⟨registry', ?_⟩
      rw [htx, hlookup, if_neg, hheld]
      rintro ⟨rfl, hsame⟩
      rw [hsame, hl] at hheld
      cases hheld
      exact hne rfl
  · rw [htouches.registries] at hlt'
    have hlt'' : registry' < sys.registries.length := by rwa [detach, setRegistry, List.length_set] at hlt'
    rw [registry_of_eq htouches.registries, client_detach, htouches.clients]
    exact h.client_lt registry' hlt''

/-! ## What a move keeps -/

namespace Tidy

theorem start (seed clock : Nat) : Tidy { seed := seed, clock := clock } := by
  let sys : System := { seed := seed, clock := clock }
  have hclient (client : ClientKey) : sys.client client = default := rfl
  have hregistry (registry : RegistryKey) : sys.registry registry = default := rfl
  have hended (ref : SessionRef) : sys.ended? ref = none := by
    unfold System.ended? Client.ended? Client.session?
    rw [hclient]
    split <;> rfl
  have hlookup (registry : RegistryKey) (tx : TxKey) : sys.lookup registry tx = none := rfl
  have hrow (tx : TxKey) : sys.transaction tx = default := rfl
  have honce : (default : Client).EndsOnce := Client.endsOnce_of_sessions_nil rfl rfl
  refine ⟨⟨⟨fun l hl => absurd hl (Nat.not_lt_zero l), fun l hl => absurd hl (Nat.not_lt_zero l),
    fun ref hrunning => ?_, fun client => ?_⟩, ⟨fun e he => absurd he (Nat.not_lt_zero e),
    fun e he => absurd he (Nat.not_lt_zero e), fun tx p hp => ?_,
    fun e he => absurd he List.not_mem_nil, fun tx hclosed => ?_, fun registry tx l hl => ?_,
    fun l hl => absurd hl (Nat.not_lt_zero l)⟩, fun l hl => absurd hl (Nat.not_lt_zero l),
    fun registry hlt => absurd hlt (Nat.not_lt_zero registry)⟩, fun registry tx slot hslot => ?_⟩
  · rw [hended] at hrunning
    cases hrunning
  · rwa [hclient]
  · rw [hrow] at hp
    cases hp
  · rw [hrow]
    rfl
  · rw [hlookup] at hl
    cases hl
  · rw [hregistry] at hslot
    cases hslot

theorem narrows (h : sys.Tidy) (hdisciplined : sys'.Disciplined []) (hnarrows : sys.Narrows sys') :
    sys'.Tidy ∧ sys.Lasting sys' :=
  ⟨⟨hdisciplined, h.filled.narrows hnarrows⟩, hnarrows.lasting⟩

theorem alike (h : sys.Tidy) (halike : sys.Alike sys')
    (hslots : ∀ registry, (sys'.registry registry).slots = (sys.registry registry).slots) :
    sys'.Tidy ∧ sys.Lasting sys' := by
  refine ⟨⟨halike.disciplined h.disciplined, fun registry tx slot hslot => ?_⟩, halike.lasting⟩
  rw [hslots] at hslot
  exact h.filled registry tx slot hslot

theorem setClient (h : sys.Tidy) {client : ClientKey} {c : Client}
    (hlasts : Client.Lasts (sys.client client) c) :
    (sys.setClient client c).Tidy ∧ sys.Lasting (sys.setClient client c) := by
  refine h.alike ⟨fun _ => rfl, fun _ => rfl, fun _ _ => rfl, rfl, rfl,
    fun ref => .inl (ended?_of_lasts hlasts ref),
    fun hall => once_setClient hall (hlasts.once (hall client)) client, Nat.le_refl _,
    fun hlts registry hlt => ?_⟩ fun _ => rfl
  show (sys.registry registry).client < (sys.clients.set client c).length
  rw [List.length_set]
  exact hlts registry hlt

theorem addClient (h : sys.Tidy) (autoCreate : Bool) :
    (sys.addClient autoCreate).2.Tidy ∧ sys.Lasting (sys.addClient autoCreate).2 := by
  let c : Client := .fresh autoCreate (sys.seed + (sys.clients.length + 1) <<< 62)
  let sys' := (sys.addClient autoCreate).2
  have hnone : c.sessions = (default : Client).sessions := rfl
  have hidle : c.stats = (default : Client).stats := rfl
  have hsessions (client : ClientKey) : (sys'.client client).sessions = (sys.client client).sessions :=
    getD_append_congr Client.sessions hnone sys.clients client
  have hcalls (client : ClientKey) : (sys'.client client).stats = (sys.client client).stats :=
    getD_append_congr Client.stats hidle sys.clients client
  refine h.alike ⟨fun _ => rfl, fun _ => rfl, fun _ _ => rfl, rfl, rfl,
    fun ref => .inl (Client.ended?_of_eq (hsessions ref.client) ref.id),
    fun hall client => ?_, Nat.le_refl _, fun hlts registry hlt => ?_⟩ fun _ => rfl
  · have hlasts : Client.Lasts (sys.client client) (sys'.client client) :=
      .of_eq (hsessions client) (by rw [hcalls])
    exact hlasts.once (hall client)
  · show (sys.registry registry).client < (sys.clients ++ [c]).length
    rw [List.length_append]
    exact Nat.lt_of_lt_of_le (hlts registry hlt) (Nat.le_add_right _ _)

theorem addRegistry (h : sys.Tidy) {client : ClientKey} (hclient : client < sys.clients.length)
    (closing : Option Scope) : (sys.addRegistry client closing).2.Tidy ∧
      sys.Lasting (sys.addRegistry client closing).2 := by
  let r : Registry := { client := client, closing := closing }
  let sys' := (sys.addRegistry client closing).2
  have hempty : r.slots = (default : Registry).slots := rfl
  have hslots (registry : RegistryKey) :
      (sys'.registry registry).slots = (sys.registry registry).slots :=
    getD_append_congr Registry.slots hempty sys.registries registry
  have hlength : sys'.registries.length = sys.registries.length + 1 := List.length_append ..
  refine h.alike ⟨fun _ => rfl, fun _ => rfl, fun registry tx => ?_, rfl, rfl, fun _ => .inl rfl,
    fun hall => hall, ?_, fun hlts registry hlt => ?_⟩ hslots
  · show (((sys'.registry registry).slots.find? tx).bind Slot.lease) = _
    rw [hslots]
    rfl
  · show sys.registries.length ≤ sys'.registries.length
    omega
  · rcases Nat.lt_succ_iff_lt_or_eq.1 (hlength ▸ hlt) with hlt | rfl
    · have hrow : sys'.registry registry = sys.registry registry := getD_append_of_lt hlt _ _
      show (sys'.registry registry).client < _
      rw [hrow]
      exact hlts registry hlt
    · have hrow : sys'.registry sys.registries.length = r := getD_length_append _ _ _
      show (sys'.registry sys.registries.length).client < _
      rw [hrow]
      exact hclient

theorem begin (h : sys.Tidy) (parent : Context) (option : ScopeOption) (request : ScopeRequest) :
    (sys.begin parent option request).2.Tidy ∧ sys.Lasting (sys.begin parent option request).2 := by
  have howning (option : ScopeOption) : (sys.beginOwning parent option request).2.Tidy ∧
      sys.Lasting (sys.beginOwning parent option request).2 := by
    let t : Transaction :=
      { options := request.transaction.getD parent.config.transaction
        deadline := deadline sys.clock (parent.config.effectiveTimeout request.timeout) }
    refine h.alike ⟨fun tx => ?_, fun tx => ?_, fun _ _ => rfl, rfl, rfl, fun _ => .inl rfl,
      fun hall => hall, Nat.le_refl _, fun hlts => hlts⟩ fun _ => rfl
    · have hopen : t.isOpen = (default : Transaction).isOpen := rfl
      exact getD_append_congr Transaction.isOpen hopen sys.transactions tx
    · have hnobody : t.participants = (default : Transaction).participants := rfl
      exact getD_append_congr Transaction.participants hnobody sys.transactions tx
  cases option with
  | suppress => exact ⟨h, .refl sys⟩
  | requiresNew => exact howning .requiresNew
  | required =>
    unfold System.begin
    dsimp only
    split
    · exact ⟨h, .refl sys⟩
    · exact howning .required

theorem closeWithin (h : sys.Tidy) (n : Nat) (scope : Scope) :
    (System.closeWithin n sys scope).2.Tidy ∧ sys.Lasting (System.closeWithin n sys scope).2 := by
  obtain ⟨hclosed, hnarrows⟩ := h.disciplined.closeWithin n scope
  exact h.narrows hclosed hnarrows

theorem acquire (h : sys.Tidy) (hlt : registry < sys.registries.length) (cx : Context) :
    (sys.acquire registry cx).2.Tidy ∧ sys.Lasting (sys.acquire registry cx).2 := by
  cases hcx : cx.transaction with
  | none =>
    have hnone : sys.acquire registry cx = (.error .noTransaction, sys) := by
      unfold System.acquire acquireWith
      rw [hcx]
    rw [hnone]
    exact ⟨h, .refl sys⟩
  | some tx =>
    obtain ⟨hdisciplined, hfilled, houtcome⟩ := h.disciplined.acquire h.filled hlt hcx
    refine ⟨⟨hdisciplined, hfilled⟩, ?_⟩
    rcases houtcome with ⟨e, -, -, hnarrows⟩ | ⟨l, -, -, hlasting⟩
    · exact hnarrows.lasting
    · exact hlasting

theorem request (h : sys.Tidy) (client : ClientKey) (session : Option SessionRef) (r : Request) :
    (sys.request client session r).2.Tidy ∧ sys.Lasting (sys.request client session r).2 := by
  have hperforms : (sys.request client session r).2 =
      sys.setClient client ((sys.client client).perform (callerOn client session) r).2 :=
    congrArg Prod.snd (onClient_eq (Prod.eta _).symm)
  rw [hperforms]
  exact h.setClient (Client.lasts_perform ..)

theorem requestThrough (h : sys.Tidy) (client : ClientKey) (b : Binding) (cx : Context) (r : Request)
    (hfits : (Move.request client b cx r).Fits sys) :
    (sys.requestThrough client b cx r).2.Tidy ∧ sys.Lasting (sys.requestThrough client b cx r).2 := by
  unfold System.requestThrough dispatch
  cases b with
  | pinned s => exact h.request client (some s) r
  | byRegistry registry =>
    cases cx.transaction with
    | none => exact h.request client none r
    | some tx =>
      dsimp only
      obtain ⟨hacquired, hlasting⟩ := h.acquire hfits cx
      generalize sys.acquire registry cx = acquired at *
      obtain ⟨outcome, sys'⟩ := acquired
      cases outcome with
      | error e => exact ⟨hacquired, hlasting⟩
      | ok l =>
        dsimp only
        split
        · obtain ⟨hrequested, hlasts⟩ := hacquired.request client (some (sys'.lease l).session) r
          exact ⟨hrequested, hlasting.trans hlasts⟩
        · exact ⟨hacquired, hlasting⟩

theorem setRegistry (h : sys.Tidy) {r : Registry}
    (hclient : r.client = (sys.registry registry).client)
    (hslots : r.slots = (sys.registry registry).slots) :
    (sys.setRegistry registry r).Tidy ∧ sys.Lasting (sys.setRegistry registry r) := by
  have hkept := fun registry' => slots_setRegistry_of_eq hslots registry'
  refine h.alike (alike_setRegistry hclient fun registry' tx => ?_) hkept
  unfold lookup
  rw [hkept]

theorem letGoWith (h : sys.Tidy) (n : Nat) (registry : RegistryKey) :
    (System.letGoWith (System.closeWithin n) sys registry).Tidy ∧
      sys.Lasting (System.letGoWith (System.closeWithin n) sys registry) := by
  unfold System.letGoWith
  dsimp only
  split
  · rename_i scope _ _
    let r := { sys.registry registry with
      holders := (sys.registry registry).holders - 1, closing := none }
    have hclient : r.client = (sys.registry registry).client := rfl
    obtain ⟨hset, hlasting⟩ := h.setRegistry hclient rfl
    obtain ⟨hclosed, hlasts⟩ := hset.closeWithin n scope
    exact ⟨hclosed, hlasting.trans hlasts⟩
  · exact h.setRegistry rfl rfl

theorem exchangeHold (h : sys.Tidy) (old new : Option RegistryKey) :
    (sys.exchangeHold old new).Tidy ∧ sys.Lasting (sys.exchangeHold old new) := by
  have hheld : (new.elim sys sys.hold).Tidy ∧ sys.Lasting (new.elim sys sys.hold) := by
    cases new with
    | none => exact ⟨h, .refl sys⟩
    | some registry => exact h.setRegistry rfl rfl
  unfold System.exchangeHold
  dsimp only
  generalize new.elim sys sys.hold = held at *
  cases old with
  | none => exact hheld
  | some registry =>
    obtain ⟨hreleased, hlasting⟩ := hheld.1.letGoWith held.heldScopes registry
    exact ⟨hreleased, hheld.2.trans hlasting⟩

theorem removeLease (h : sys.Tidy) (registry : RegistryKey) (tx : TxKey) :
    (sys.removeLease registry tx).2.Tidy ∧
      sys.Outlasts [.remove registry tx] (sys.removeLease registry tx).2 := by
  unfold System.removeLease
  cases hl : sys.lookup registry tx with
  | none =>
    have hlookup (registry' : RegistryKey) (tx' : TxKey) :
        (sys.detach registry tx).lookup registry' tx' = sys.lookup registry' tx' := by
      unfold lookup at hl ⊢
      rw [find?_detach]
      split
      · rename_i hsame
        rw [hsame.1, hsame.2, hl]
        rfl
      · rfl
    have halike : sys.Alike (sys.detach registry tx) := alike_setRegistry rfl hlookup
    refine ⟨⟨halike.disciplined h.disciplined, fun registry' tx' slot hslot => ?_⟩,
      .of_lasting halike.lasting _⟩
    rw [find?_detach] at hslot
    split at hslot
    · cases hslot
    · exact h.filled registry' tx' slot hslot
  | some l =>
    obtain ⟨hdisciplined, htransactions, hfind, hlease⟩ := h.disciplined.removed hl
    refine ⟨⟨hdisciplined, fun registry' tx' slot hslot => ?_⟩, ⟨hlease, fun tx' hopen => ?_,
      fun registry' tx' l' hkept hl' _ => ?_⟩⟩
    · rw [hfind] at hslot
      split at hslot
      · cases hslot
      · exact h.filled registry' tx' slot hslot
    · rwa [transaction_of_eq htransactions] at hopen
    · unfold lookup at hl' ⊢
      rw [hfind, if_neg, hl']
      rintro ⟨rfl, rfl⟩
      exact hkept (List.mem_singleton_self _)

/-- Every move that fits keeps the books, and leases where they are. -/
theorem move (h : sys.Tidy) (m : Move) (hfits : m.Fits sys) :
    (sys.move m).Tidy ∧ sys.Outlasts [m] (sys.move m) := by
  have hlasting {sys' : System} (hmoved : sys'.Tidy ∧ sys.Lasting sys') :
      sys'.Tidy ∧ sys.Outlasts [m] sys' := ⟨hmoved.1, .of_lasting hmoved.2 [m]⟩
  cases m with
  | addClient autoCreate => exact hlasting (h.addClient autoCreate)
  | addRegistry client closing => exact hlasting (h.addRegistry hfits closing)
  | begin parent option request => exact hlasting (h.begin parent option request)
  | close scope => exact hlasting (h.closeWithin sys.heldScopes scope)
  | acquire registry cx => exact hlasting (h.acquire hfits cx)
  | request client b cx r => exact hlasting (h.requestThrough client b cx r hfits)
  | remove registry tx => exact h.removeLease registry tx
  | exchangeHold old new => exact hlasting (h.exchangeHold old new)
  | arm client kind n => exact hlasting (h.setClient (.of_eq rfl rfl))
  | wait seconds =>
    have halike : sys.Alike { sys with clock := sys.clock + seconds } := .of_eq rfl rfl rfl rfl rfl
    exact hlasting (h.alike halike fun _ => rfl)

theorem moveAll (h : sys.Tidy) (moves : List Move) (hfits : sys.FitAll moves) :
    (sys.moveAll moves).Tidy ∧ sys.Outlasts moves (sys.moveAll moves) := by
  induction moves generalizing sys with
  | nil => exact ⟨h, .refl sys⟩
  | cons m rest ih =>
    obtain ⟨hfirst, hrest⟩ := hfits
    obtain ⟨hmoved, houtlasts⟩ := h.move m hfirst
    obtain ⟨htidy, hlasts⟩ := ih hmoved hrest
    exact ⟨htidy, houtlasts.cons hlasts⟩

end Tidy

/-! ## Discipline -/

theorem Tidy.session_ended (h : sys.Tidy) (hlt : l < sys.leases.length)
    (hdisposed : (sys.lease l).disposed = true) :
    ∃ s, sys.session? (sys.lease l).session = some s ∧ s.ended = true ∧ s.transaction = none := by
  have hbooked := h.disciplined.booked
  obtain ⟨s, hs, hended⟩ := Option.map_eq_some_iff.1 (hbooked.lease l hlt)
  rw [hdisposed] at hended
  exact ⟨s, hs, hended, (hbooked.once _).closed _ s hs hended⟩

theorem Tidy.of_closed (h : sys.Tidy) (hclosed : (sys.transaction tx).isOpen = false) :
    (∀ registry, (sys.registry registry).slots.find? tx = none) ∧
      ∀ l < sys.leases.length, (sys.lease l).tx = tx → (sys.lease l).disposed = true := by
  refine ⟨fun registry => ?_, fun l hlt htx => ?_⟩
  · cases hfind : (sys.registry registry).slots.find? tx with
    | none => rfl
    | some slot =>
      obtain ⟨l, hl⟩ := Option.isSome_iff_exists.1 (h.filled registry tx slot hfind)
      have hlookup : sys.lookup registry tx = some l := by
        unfold lookup
        rw [hfind, Option.bind_some, hl]
      rw [h.disciplined.isOpen_of_lookup hlookup] at hclosed
      cases hclosed
  · rcases h.disciplined.registered.accounted l hlt with ⟨-, hdisposed⟩ | ⟨e, howed, -⟩
    · exact hdisposed
    · have hp := howed.resolve_right List.not_mem_nil
      rw [htx, h.disciplined.registered.closed tx hclosed] at hp
      cases hp

theorem Tidy.of_running (h : sys.Tidy) {ref : SessionRef} (hrunning : sys.ended? ref = some false) :
    ∃ registry tx l, sys.lookup registry tx = some l ∧ (sys.transaction tx).isOpen = true ∧
      (sys.lease l).session = ref := by
  obtain ⟨l, hlt, hsession⟩ := h.disciplined.booked.session ref hrunning
  have hlive : (sys.lease l).disposed = false := by
    have hended := h.disciplined.booked.lease l hlt
    rw [hsession, hrunning] at hended
    exact (Option.some.inj hended).symm
  cases hopen : (sys.transaction (sys.lease l).tx).isOpen with
  | true =>
    obtain ⟨registry, hl⟩ := h.disciplined.held l hlt hopen hlive
    exact ⟨registry, _, l, hl, hopen, hsession⟩
  | false =>
    rw [(h.of_closed hopen).2 l hlt rfl] at hlive
    cases hlive

/-- The discipline of registries after any moves. A lease that is registered is given again, and nothing
changes by that, until it is removed or its transaction is no longer open. A lease that is acquired is
registered; acquiring one that fails leaves the transaction without a slot and adds no slot, no participant
and no running session. No lease is ever registered for two transactions. A transaction that is no longer
open has no slot, and the sessions of its leases have ended without a store transaction; no session runs but
those of the leases that are registered for open transactions, and each that has ended was ended once. -/
theorem registry_discipline (seed clock : Nat) {moves : List Move}
    (hfits : FitAll { seed := seed, clock := clock } moves) :
    let sys := moveAll { seed := seed, clock := clock } moves
    (∀ registry tx l, sys.lookup registry tx = some l → ∀ later, sys.FitAll later →
      .remove registry tx ∉ later → ((sys.moveAll later).transaction tx).isOpen = true →
        ∀ cx : Context, cx.transaction = some tx →
          (sys.moveAll later).acquire registry cx = (.ok l, sys.moveAll later)) ∧
    (∀ registry < sys.registries.length, ∀ cx : Context,
      let sys' := (sys.acquire registry cx).2
      (∀ l, (sys.acquire registry cx).1 = .ok l →
        ∃ tx, cx.transaction = some tx ∧ sys'.lookup registry tx = some l) ∧
      ∀ e, (sys.acquire registry cx).1 = .error e →
        (∀ tx, cx.transaction = some tx → (sys'.registry registry).slots.find? tx = none) ∧
        (∀ registry' tx slot, (sys'.registry registry').slots.find? tx = some slot →
          (sys.registry registry').slots.find? tx = some slot) ∧
        (∀ tx, (sys'.transaction tx).participants <+: (sys.transaction tx).participants) ∧
        ∀ ref, sys'.ended? ref = some false → sys.ended? ref = some false) ∧
    (∀ registry tx l, sys.lookup registry tx = some l → ∀ later, sys.FitAll later →
      ∀ registry' tx', (sys.moveAll later).lookup registry' tx' = some l → tx' = tx) ∧
    (∀ tx, (sys.transaction tx).isOpen = false →
      (∀ registry, (sys.registry registry).slots.find? tx = none) ∧
      ∀ l < sys.leases.length, (sys.lease l).tx = tx →
        ∃ s, sys.session? (sys.lease l).session = some s ∧ s.ended = true ∧ s.transaction = none) ∧
    (∀ ref s, sys.session? ref = some s → (s.ended = true ∧ s.transaction = none) ∨
      ∃ registry tx l, sys.lookup registry tx = some l ∧ (sys.transaction tx).isOpen = true ∧
        (sys.lease l).session = ref) ∧
    ∀ client, (sys.client client).stats.endCalls =
      (sys.client client).sessions.countP Session.ended := by
  intro sys
  obtain ⟨htidy, -⟩ := (Tidy.start seed clock).moveAll moves hfits
  have hslot := htidy.disciplined.registered.slot
  refine ⟨fun registry tx l hl later hlater hkept hopen cx hcx => ?_, fun registry hlt cx => ?_,
    fun registry tx l hl later hlater registry' tx' hl' => ?_, fun tx hclosed => ?_,
    fun ref s hs => ?_, fun client => (htidy.disciplined.booked.once client).counted⟩
  · obtain ⟨htidy', houtlasts⟩ := htidy.moveAll later hlater
    exact htidy'.disciplined.acquire_of_lookup (houtlasts.lookup registry tx l hkept hl hopen) hcx
  · cases hcx : cx.transaction with
    | none =>
      have hnone : sys.acquire registry cx = (.error .noTransaction, sys) := by
        unfold System.acquire acquireWith
        rw [hcx]
      rw [hnone]
      refine ⟨fun l hok => ?_, fun e _ => ⟨fun tx htx => ?_, fun _ _ _ h => h,
        fun _ => List.prefix_refl _, fun _ h => h⟩⟩
      · cases hok
      · cases htx
    | some tx =>
      obtain ⟨-, -, houtcome⟩ := htidy.disciplined.acquire htidy.filled hlt hcx
      rcases houtcome with ⟨e, hfailed, hnone, hnarrows⟩ | ⟨l, hgiven, hlookup, -⟩
      · refine ⟨fun l hok => ?_, fun e' _ => ⟨fun tx' htx' => ?_, hnarrows.slot,
          hnarrows.participants, hnarrows.running⟩⟩
        · rw [hfailed] at hok
          cases hok
        · cases htx'
          exact hnone
      · refine ⟨fun l' hok => ⟨tx, rfl, ?_⟩, fun e herror => ?_⟩
        · rw [hgiven] at hok
          cases hok
          exact hlookup
        · rw [hgiven] at herror
          cases herror
  · obtain ⟨htidy', houtlasts⟩ := htidy.moveAll later hlater
    obtain ⟨hlt, htx, -⟩ := hslot registry tx l hl
    obtain ⟨-, htx', -⟩ := htidy'.disciplined.registered.slot registry' tx' l hl'
    rw [← htx', (houtlasts.lease l hlt).2, htx]
  · obtain ⟨hslots, hleases⟩ := htidy.of_closed hclosed
    exact ⟨hslots, fun l hlt htx => htidy.session_ended hlt (hleases l hlt htx)⟩
  · have hended : sys.ended? ref = some s.ended := congrArg (Option.map Session.ended) hs
    cases hs' : s.ended with
    | true => exact .inl ⟨rfl, (htidy.disciplined.booked.once _).closed _ s hs hs'⟩
    | false => exact .inr (htidy.of_running (hended.trans (congrArg some hs')))

/-- No session starts at first, then no transaction, and the lease that is made then is removed. Another
is made for the same transaction, and a third for one that is committed. -/
def troubledStart : List Move :=
  [.addClient true, .addRegistry 0 none, .begin {} .required {}, .arm 0 .sessionStart 1,
    .acquire 0 { transaction := some 0 }, .arm 0 .transactionStart 1,
    .acquire 0 { transaction := some 0 }, .acquire 0 { transaction := some 0 }, .remove 0 0,
    .acquire 0 { transaction := some 0 }, .begin {} .requiresNew {},
    .acquire 0 { transaction := some 1 },
    .close { context := { transaction := some 1 }, option := .requiresNew, owns := true
             completed := true }]

theorem registry_discipline_troubledStart :
    let sys := moveAll {} troubledStart
    let later : List Move := [.arm 0 .sessionStart 1, .wait 5]
    FitAll {} troubledStart ∧ (sys.lease 0).tx = 0 ∧ sys.lookup 0 0 = some 1 ∧
      sys.lookup 0 1 = none ∧
      (sys.moveAll later).acquire 0 { transaction := some 0 } = (.ok 1, sys.moveAll later) ∧
      (sys.client 0).sessions.map Session.ended = [true, true, false, true] ∧
      (sys.client 0).stats.endCalls = 3 := by
  intro sys later
  have hfits : FitAll {} troubledStart := by decide +kernel
  have hlookup : sys.lookup 0 0 = some 1 := by decide +kernel
  have hlater : sys.FitAll later := by decide +kernel
  obtain ⟨hgiven, -, -, -, -, hcounted⟩ := registry_discipline 0 86400 hfits
  refine ⟨hfits, by decide +kernel, hlookup, by decide +kernel,
    hgiven 0 0 1 hlookup later hlater ?_ ?_ _ rfl, by decide +kernel, ?_⟩
  · simp only [later, List.mem_cons, reduceCtorEq, List.not_mem_nil, or_self, not_false_eq_true]
  · decide +kernel
  · exact (hcounted 0).trans (by decide +kernel)

end System

end ScopedStore
