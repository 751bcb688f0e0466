import ScopedStore.Proofs.Scope.Closing

/-!
# Systems that anyone may use

Programs begin and close scopes, call through facades, enlist participants of their own, make enlistments of
leases and tell them outcomes themselves, and use clients directly, in any order (`Deed`). Every deed keeps
registered leases attended to (`System.Steady.deed`).
-/

namespace ScopedStore

/-- Something that is done to a system. Closing a scope value stands for closing and for dropping a scope,
replacing a client for anything that is done with the client itself. -/
inductive Deed where
  | addClient (autoCreate : Bool)
  | addRegistry (client : ClientKey) (closing : Option Scope)
  | begin (parent : Context) (option : ScopeOption) (request : ScopeRequest)
  | enlist (cx : Context) (p : Participant)
  | doom (key : TxKey) (reason : String)
  | close (scope : Scope)
  | acquire (registry : RegistryKey) (cx : Context)
  | call (f : Facade) (cx : Context) (c : Call f.reach)
  | remove (registry : RegistryKey) (tx : TxKey)
  /-- Makes an enlistment of a lease. -/
  | attach (l : LeaseKey)
  /-- Tells an enlistment an outcome, or asks it to prepare. -/
  | tell (e : EnlistmentKey) (phase : Phase)
  | exchangeHold (old new : Option RegistryKey)
  | useClient (client : ClientKey) (c : Client)
  | wait (seconds : Nat)

namespace System

/-- The enlistment is there, and no registry made it. -/
def Handmade (sys : System) (e : EnlistmentKey) : Prop :=
  e < sys.enlistments.length ∧ (sys.enlistment e).onCompletion = .count

instance (sys : System) (e : EnlistmentKey) : Decidable (sys.Handmade e) :=
  inferInstanceAs (Decidable (_ ∧ _))

end System

/-- What the deed names is there. A registry keeps its own enlistments to itself. -/
def Deed.Fits (sys : System) : Deed → Prop
  | .enlist _ (.enlisted e) | .tell e _ => sys.Handmade e
  | .attach l => l < sys.leases.length
  | _ => True

instance Deed.decidableFits (sys : System) : (d : Deed) → Decidable (d.Fits sys)
  | .enlist _ (.enlisted e) | .tell e _ => inferInstanceAs (Decidable (sys.Handmade e))
  | .attach l => inferInstanceAs (Decidable (l < sys.leases.length))
  | .enlist _ (.probe _) | .enlist _ .idle | .addClient _ | .addRegistry _ _ | .begin _ _ _ | .doom _ _
  | .close _ | .acquire _ _ | .call _ _ _ | .remove _ _ | .exchangeHold _ _ | .useClient _ _ | .wait _ =>
    inferInstanceAs (Decidable True)

namespace System

def deed (sys : System) : Deed → System
  | .addClient autoCreate => (sys.addClient autoCreate).2
  | .addRegistry client closing => (sys.addRegistry client closing).2
  | .begin parent option request => (sys.begin parent option request).2
  | .enlist cx p => (sys.enlist cx p).2
  | .doom key reason => sys.doom key reason
  | .close scope => (sys.close scope).2
  | .acquire registry cx => (sys.acquire registry cx).2
  | .call f cx c => (sys.callThrough f cx c).2
  | .remove registry tx => (sys.removeLease registry tx).2
  | .attach l => (sys.addEnlistment l .count).2
  | .tell e phase => (sys.notifyEnlistment e phase).2
  | .exchangeHold old new => sys.exchangeHold old new
  | .useClient client c => sys.setClient client c
  | .wait seconds => { sys with clock := sys.clock + seconds }

def deeds (sys : System) (ds : List Deed) : System := ds.foldl deed sys

/-- Each deed fits when it is done. -/
def FitDeeds : System → List Deed → Prop
  | _, [] => True
  | sys, d :: rest => d.Fits sys ∧ FitDeeds (sys.deed d) rest

instance decidableFitDeeds : (sys : System) → (ds : List Deed) → Decidable (sys.FitDeeds ds)
  | _, [] => inferInstanceAs (Decidable True)
  | sys, d :: rest =>
    have := decidableFitDeeds (sys.deed d) rest
    inferInstanceAs (Decidable (d.Fits sys ∧ FitDeeds (sys.deed d) rest))

def anyLease : RegistryKey → TxKey → Prop := fun _ _ => True

/-- The invariant between deeds: registered leases are attended to, no transaction is about to be settled,
and no slot stands without a lease. -/
structure Steady (sys : System) : Prop where
  attended : sys.Attended anyLease []
  settled : ∀ tx, (sys.transaction tx).completing = false
  filled : sys.Filled

variable {sys sys' : System} {registry : RegistryKey} {tx : TxKey} {cx : Context} {l : LeaseKey}
  {e : EnlistmentKey}

namespace Steady

theorem isOpen_iff (h : sys.Steady) (tx : TxKey) :
    (sys.transaction tx).isOpen = true ↔ (sys.transaction tx).status = .active := by
  unfold Transaction.isOpen
  rw [h.settled tx]
  simp

theorem start (seed clock : Nat) : Steady { seed := seed, clock := clock } := by
  let sys : System := { seed := seed, clock := clock }
  have hrow (tx : TxKey) : sys.transaction tx = default := rfl
  have hlookup (registry : RegistryKey) (tx : TxKey) : sys.lookup registry tx = none := rfl
  have hnobody (tx : TxKey) {p : Participant} : p ∉ (sys.transaction tx).participants := by
    rw [hrow]
    exact List.not_mem_nil
  refine ⟨⟨fun e he => absurd he (Nat.not_lt_zero e), fun tx e he => absurd he (hnobody tx),
    fun e he => absurd he List.not_mem_nil, fun _ _ _ _ _ => trivial, fun tx _ => ?_,
    fun registry tx l hl => ?_⟩, fun tx => ?_, fun registry tx slot hslot => ?_⟩
  · rw [hrow]
    rfl
  · rw [hlookup] at hl
    cases hl
  · rfl
  · have hnone : (sys.registry registry).slots.find? tx = none := rfl
    rw [hnone] at hslot
    cases hslot

theorem attends (h : sys.Steady) (hattends : sys.Attends anyLease [] sys') : sys'.Steady := by
  obtain ⟨hattended, hadvances⟩ := hattends h.attended
  refine ⟨hattended, fun tx => ?_, fun registry tx slot hslot => ?_⟩
  · cases hcompleting : (sys'.transaction tx).completing with
    | false => rfl
    | true => rw [← h.settled tx, hadvances.completing tx hcompleting]
  · rcases hadvances.slot registry tx slot hslot with hslot | ⟨hfilled, -⟩
    · exact h.filled registry tx slot hslot
    · exact hfilled

theorem addRegistry (h : sys.Steady) (client : ClientKey) (closing : Option Scope) :
    (sys.addRegistry client closing).2.Steady := by
  let r : Registry := { client := client, closing := closing }
  have hempty : r.slots = (default : Registry).slots := rfl
  exact h.attends (attends_of_eq rfl rfl rfl fun registry =>
    getD_append_congr Registry.slots hempty sys.registries registry)

theorem begin (h : sys.Steady) (parent : Context) (option : ScopeOption) (request : ScopeRequest) :
    (sys.begin parent option request).2.Steady := by
  have howning (option : ScopeOption) : (sys.beginOwning parent option request).2.Steady := by
    let t : Transaction :=
      { options := request.transaction.getD parent.config.transaction
        deadline := deadline sys.clock (parent.config.effectiveTimeout request.timeout) }
    have hopen : t.isOpen = (default : Transaction).isOpen := rfl
    have hnobody : t.participants = (default : Transaction).participants := rfl
    have hidle : t.completing = (default : Transaction).completing := rfl
    have hrows : sys.SameRows (sys.beginOwning parent option request).2 :=
      ⟨rfl, fun _ => ⟨rfl, id⟩, rfl, fun _ => ⟨rfl, rfl⟩,
        getD_append_congr Transaction.isOpen hopen sys.transactions,
        getD_append_congr Transaction.participants hnobody sys.transactions⟩
    refine ⟨hrows.attended (fun _ _ _ hl => hl) (fun _ _ _ _ _ hsettled => .inl hsettled) h.attended,
      fun tx => ?_, h.filled⟩
    exact (getD_append_congr Transaction.completing hidle sys.transactions tx).trans (h.settled tx)
  cases option with
  | suppress => exact h
  | requiresNew => exact howning .requiresNew
  | required =>
    unfold System.begin
    dsimp only
    cases parent.transaction with
    | some tx => exact h
    | none => exact howning .required

theorem enlist (h : sys.Steady) (cx : Context) (p : Participant) (hfits : (Deed.enlist cx p).Fits sys) :
    (sys.enlist cx p).2.Steady := by
  refine h.attends (attends_enlist ?_)
  cases p with
  | enlisted e => exact ⟨hfits.1, .inl hfits.2⟩
  | probe p => exact fun _ _ _ => trivial
  | idle => trivial

theorem acquire (h : sys.Steady) (registry : RegistryKey) (cx : Context) :
    (sys.acquire registry cx).2.Steady :=
  h.attends ((attentive_closeWithin anyLease _).acquireWith [] sys registry cx fun _ _ => trivial)

theorem request (h : sys.Steady) (client : ClientKey) (session : Option SessionRef) (r : Request) :
    (sys.request client session r).2.Steady := h.attends (attends_onClient _ _ _)

theorem callThrough (h : sys.Steady) (f : Facade) (cx : Context) (c : Call f.reach) :
    (sys.callThrough f cx c).2.Steady := by
  unfold System.callThrough requestThrough dispatch
  cases f.binding with
  | pinned s => exact h.request f.client (some s) c.request
  | byRegistry registry =>
    cases cx.transaction with
    | none => exact h.request f.client none c.request
    | some tx =>
      have hacquired := h.acquire registry cx
      dsimp only
      split
      · rename_i heq
        rw [heq] at hacquired
        exact hacquired
      · rename_i heq
        rw [heq] at hacquired
        split
        · exact hacquired.request f.client _ c.request
        · exact hacquired

theorem detach (h : sys.Steady) (registry : RegistryKey) (tx : TxKey) :
    (sys.detach registry tx).Steady := by
  have hslot {registry' : RegistryKey} {tx' : TxKey} {slot : Slot}
      (hslot : ((sys.detach registry tx).registry registry').slots.find? tx' = some slot) :
      (sys.registry registry').slots.find? tx' = some slot := by
    rw [find?_detach] at hslot
    split at hslot
    · cases hslot
    · exact hslot
  have hrows : sys.SameRows (sys.detach registry tx) := .of_eq rfl rfl rfl
  refine ⟨hrows.attended (fun registry' tx' l hl => ?_) (fun _ _ _ _ _ hsettled => .inl hsettled) h.attended,
    h.settled, fun registry' tx' slot hfind => h.filled registry' tx' slot (hslot hfind)⟩
  obtain ⟨slot, hfind, hl⟩ := Option.bind_eq_some_iff.1 hl
  exact Option.bind_eq_some_iff.2 ⟨slot, hslot hfind, hl⟩

theorem removeLease (h : sys.Steady) (registry : RegistryKey) (tx : TxKey) :
    (sys.removeLease registry tx).2.Steady := by
  unfold System.removeLease
  split
  · exact (h.detach registry tx).attends (attends_disposeLease _ _)
  · exact h.detach registry tx

theorem notifyEnlistment (h : sys.Steady) (he : sys.Handmade e) (phase : Phase) :
    (sys.notifyEnlistment e phase).2.Steady := by
  have hsys := h.attended
  by_cases hphase : phase = .prepare
  · rw [hphase]
    exact h
  · have htold : sys.Attended anyLease [.enlisted e] := by
      refine ⟨hsys.enlistment, hsys.participant, fun e' he' => ?_, fun _ _ _ _ _ => trivial, hsys.closed,
        fun registry tx l hl => ?_⟩
      · cases List.mem_singleton.1 he'
        exact ⟨he.1, .inl he.2⟩
      · obtain ⟨hlt, htx, hdue, hshared⟩ := hsys.slot registry tx l hl
        refine ⟨hlt, htx, hdue.imp_right fun ⟨e', hsame, he'⟩ => ⟨e', hsame, ?_⟩, hshared⟩
        exact .inl (he'.resolve_right List.not_mem_nil)
    obtain ⟨hattended, hadvances, hsettled⟩ := htold.notifyEnlistment (List.mem_singleton_self _) phase
    refine h.attends fun _ => ⟨hattended.drop fun e' he' => ?_, hadvances⟩
    cases he'
    exact hsettled hphase

theorem exchangeHold (h : sys.Steady) (old new : Option RegistryKey) :
    (sys.exchangeHold old new).Steady := by
  have hheld : (new.elim sys sys.hold).Steady := by
    cases new with
    | none => exact h
    | some registry => exact h.attends (attends_setRegistry rfl)
  unfold System.exchangeHold
  cases old with
  | none => exact hheld
  | some registry => exact hheld.attends ((attentive_closeWithin anyLease _).letGoWith [] _ registry)

theorem deed (h : sys.Steady) (d : Deed) (hfits : d.Fits sys) : (sys.deed d).Steady := by
  cases d with
  | addClient autoCreate => exact h.attends (attends_of_eq rfl rfl rfl fun _ => rfl)
  | addRegistry client closing => exact h.addRegistry client closing
  | begin parent option request => exact h.begin parent option request
  | enlist cx p => exact h.enlist cx p hfits
  | doom key reason => exact h.attends (attends_setTransaction fun _ => ⟨rfl, rfl, id⟩)
  | close scope => exact h.attends (attentive_closeWithin anyLease _ [] sys scope)
  | acquire registry cx => exact h.acquire registry cx
  | call f cx c => exact h.callThrough f cx c
  | remove registry tx => exact h.removeLease registry tx
  | attach l => exact h.attends (attends_addEnlistment hfits fun _ _ hsame => by cases hsame)
  | tell e phase => exact h.notifyEnlistment hfits phase
  | exchangeHold old new => exact h.exchangeHold old new
  | useClient client c => exact h.attends (attends_of_eq rfl rfl rfl fun _ => rfl)
  | wait seconds => exact h.attends (attends_of_eq rfl rfl rfl fun _ => rfl)

theorem deeds (h : sys.Steady) {ds : List Deed} (hfits : sys.FitDeeds ds) : (sys.deeds ds).Steady := by
  induction ds generalizing sys with
  | nil => exact h
  | cons d rest ih =>
    obtain ⟨hfirst, hrest⟩ := hfits
    exact ih (h.deed d hfirst) hrest

end Steady

end System

end ScopedStore
