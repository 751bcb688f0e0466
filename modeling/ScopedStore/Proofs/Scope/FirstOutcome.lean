import ScopedStore.Proofs.Scope.Deeds
import ScopedStore.Proofs.Scope.Wiring

/-!
# The first outcome wins

An enlistment and its lease may be used in any order: told outcomes, asked to prepare, disposed of, entered,
while commits and aborts are made to fail. What they do to a system is what an enlistment does that is wired to
the system's own callback and session (`System.wiring`): the calls that it makes once are the system's own steps
(`once_unregister`, `once_commit`, `once_abort`, `once_endSession`), so what is written down of the wiring is
what the system does (`notify_wiring`). This wiring is lawful as long as the enlistment is bound to its lease and
the session to the client (`System.Bound`). So the first outcome decides (`System.first_outcome_wins`): it is the
only one that reaches the session, and the session ends once.
-/

namespace ScopedStore

namespace System

/-! ## An enlistment and what it is wired to -/

def settleSession (act : Client → SessionId → Except StoreError Unit × Client) (l : LeaseKey) (sys : System) :
    Except TxError Unit × System :=
  let row := sys.lease l
  (sys.setLease l { row with completed := true }).onClient row.session.client fun c => act c row.session.id

/-- Sets how many of the next calls of a kind fail on the client of a lease. -/
def armFaults (sys : System) (l : LeaseKey) (kind : FaultKind) (n : Nat) : System :=
  let client := (sys.lease l).session.client
  let c := sys.client client
  sys.setClient client { c with faults := c.faults.arm kind n }

/-- What an enlistment of a lease is wired to in a system. -/
def wiring (e : EnlistmentKey) (l : LeaseKey) : Wiring System where
  flags sys := ⟨(sys.enlistment e).unregistered, (sys.lease l).completed, (sys.lease l).disposed⟩
  call
    | .unregister, sys =>
      let row := sys.enlistment e
      let sys :=
        sys.setEnlistment e { row with unregistered := true, unregisterCalls := row.unregisterCalls + 1 }
      (.ok (), match row.onCompletion with
        | .detach registry tx => sys.detach registry tx
        | .count => sys)
    | .commit, sys => settleSession Client.commitTransaction l sys
    | .abort, sys => settleSession Client.abortTransaction l sys
    | .endSession, sys =>
      let row := sys.lease l
      let sys := sys.setLease l { row with disposed := true }
      (.ok (), sys.setClient row.session.client ((sys.client row.session.client).endSession row.session.id))
  arm kind n sys := sys.armFaults l kind n

def useEnlistment (sys : System) (e : EnlistmentKey) : Use → System
  | .tell phase => (sys.notifyEnlistment e phase).2
  | .dispose => sys.disposeLease (sys.enlistment e).lease
  | .enter => sys
  | .arm kind n => sys.armFaults (sys.enlistment e).lease kind n

def useAll (sys : System) (e : EnlistmentKey) (uses : List Use) : System :=
  uses.foldl (fun sys u => sys.useEnlistment e u) sys

variable {sys : System} {e : EnlistmentKey} {l : LeaseKey} {ref : SessionRef} {calls ends : Nat}

theorem once_unregister (e : EnlistmentKey) (l : LeaseKey) (sys : System) :
    (wiring e l).once .unregister sys = (.ok (), sys.unregister e) := by
  rw [Wiring.once, unregister]
  split <;> rename_i hunregistered
  · exact Prod.ext rfl (if_pos hunregistered).symm
  · exact Prod.ext rfl (if_neg hunregistered).symm

theorem once_commit (e : EnlistmentKey) (l : LeaseKey) (sys : System) :
    (wiring e l).once .commit sys = sys.commitLease l := rfl

theorem once_abort (e : EnlistmentKey) (l : LeaseKey) (sys : System) :
    (wiring e l).once .abort sys = sys.abortLease l := rfl

theorem once_endSession (e : EnlistmentKey) (l : LeaseKey) (sys : System) :
    (wiring e l).once .endSession sys = (.ok (), sys.disposeLease l) := by
  rw [Wiring.once, disposeLease]
  split <;> rename_i hdisposed
  · exact Prod.ext rfl (if_pos hdisposed).symm
  · exact Prod.ext rfl (if_neg hdisposed).symm

theorem client_lt_of_inTransaction (h : sys.inTransaction ref = true) :
    ref.client < sys.clients.length := by
  cases hs : (sys.client ref.client).session? ref.id with
  | none =>
    rw [inTransaction, Client.inTransaction_of_session?_eq_none hs] at h
    cases h
  | some s =>
    refine client_lt_of_ended? (b := s.ended) ?_
    rw [System.ended?, Client.ended?, hs]
    rfl

/-- An enlistment does what it is wired to do. -/
theorem notify_wiring (h : (sys.enlistment e).lease = l) (phase : Phase) :
    (wiring e l).notify phase sys = sys.notifyEnlistment e phase := by
  cases phase <;>
    simp only [Wiring.notify, Wiring.conclude, notifyEnlistment, once_unregister, once_commit, once_abort,
      once_endSession, h]

theorem use_wiring (h : (sys.enlistment e).lease = l) (u : Use) :
    (wiring e l).use sys u = sys.useEnlistment e u := by
  cases u with
  | tell phase => rw [Wiring.use, notify_wiring h, useEnlistment]
  | dispose => rw [Wiring.use, once_endSession, useEnlistment, h]
  | enter => rfl
  | arm kind n =>
    rw [useEnlistment, h]
    rfl

/-! ## The wiring is lawful -/

/-- The enlistment is bound to the lease and the lease to the session. The enlistment has unregistered and the
session has been ended once more than at first, or not, as their marks tell; a lease that is disposed of has no
open transaction. -/
structure Bound (sys : System) (e : EnlistmentKey) (l : LeaseKey) (ref : SessionRef) (calls ends : Nat) :
    Prop where
  enlistment_lt : e < sys.enlistments.length
  lease_lt : l < sys.leases.length
  client_lt : ref.client < sys.clients.length
  lease : (sys.enlistment e).lease = l
  session : (sys.lease l).session = ref
  unregisterCalls :
    (sys.enlistment e).unregisterCalls = calls + (sys.enlistment e).unregistered.toNat
  endCalls : (sys.client ref.client).stats.endCalls = ends + (sys.lease l).disposed.toNat
  closed : (sys.lease l).disposed = true → sys.inTransaction ref = false

namespace Bound

theorem set (h : sys.Bound e l ref calls ends) {row : Lease} {c : Client} (hsession : row.session = ref)
    (hends : c.stats.endCalls = ends + row.disposed.toNat)
    (hclosed : row.disposed = true → c.inTransaction ref.id = false) :
    ((sys.setLease l row).setClient ref.client c).Bound e l ref calls ends ∧
      (wiring e l).flags ((sys.setLease l row).setClient ref.client c) =
        ⟨(sys.enlistment e).unregistered, row.completed, row.disposed⟩ := by
  let sys' := (sys.setLease l row).setClient ref.client c
  have hrow : sys'.lease l = row := lease_setLease_self h.lease_lt row
  have hclient : sys'.client ref.client = c := getD_set_self h.client_lt c default
  refine ⟨⟨h.enlistment_lt, ?_, ?_, h.lease, ?_, h.unregisterCalls, ?_, fun hdisposed => ?_⟩, ?_⟩
  · show l < (sys.leases.set l row).length
    rw [List.length_set]
    exact h.lease_lt
  · show ref.client < (sys.clients.set ref.client c).length
    rw [List.length_set]
    exact h.client_lt
  · rw [hrow, hsession]
  · rw [hclient, hrow, hends]
  · rw [hrow] at hdisposed
    rw [inTransaction, hclient]
    exact hclosed hdisposed
  · show (⟨_, (sys'.lease l).completed, (sys'.lease l).disposed⟩ : OnceFlags) = _
    rw [hrow]
    rfl

theorem settleSession (h : sys.Bound e l ref calls ends)
    {act : Client → SessionId → Except StoreError Unit × Client}
    (hends : ∀ c id, (act c id).2.stats.endCalls = c.stats.endCalls)
    (hclosed : ∀ c id, Client.inTransaction c id = false → (act c id).2 = c) :
    (System.settleSession act l sys).2.Bound e l ref calls ends ∧
      (wiring e l).flags (System.settleSession act l sys).2 =
        { (wiring e l).flags sys with completed := true } := by
  obtain rfl : (sys.lease l).session = ref := h.session
  let ref := (sys.lease l).session
  let c := sys.client ref.client
  let row : Lease := { sys.lease l with completed := true }
  have hsettled : (System.settleSession act l sys).2 =
      (sys.setLease l row).setClient ref.client (act c ref.id).2 := by
    have hcalled : act ((sys.setLease l row).client ref.client) ref.id =
        ((act c ref.id).1, (act c ref.id).2) := rfl
    exact congrArg Prod.snd (onClient_eq hcalled)
  rw [hsettled]
  refine h.set h.session ((hends c ref.id).trans h.endCalls) fun hdisposed => ?_
  -- disposed of before the outcome: the session refuses the call, which moves nothing
  have hnone : c.inTransaction ref.id = false := h.closed hdisposed
  rwa [hclosed c ref.id hnone]

theorem unregister (h : sys.Bound e l ref calls ends)
    (hregistered : (sys.enlistment e).unregistered = false) :
    ((wiring e l).call .unregister sys).2.Bound e l ref calls ends ∧
      (wiring e l).flags ((wiring e l).call .unregister sys).2 =
        { (wiring e l).flags sys with unregistered := true } := by
  let row : Enlistment := { sys.enlistment e with
    unregistered := true, unregisterCalls := (sys.enlistment e).unregisterCalls + 1 }
  generalize hcalled : ((wiring e l).call .unregister sys).2 = sys'
  have hrows : sys'.clients = sys.clients ∧ sys'.leases = sys.leases ∧
      sys'.enlistments = sys.enlistments.set e row := by
    rw [← hcalled]
    dsimp only [wiring]
    split <;> exact ⟨rfl, rfl, rfl⟩
  obtain ⟨hclients, hleases, henlistments⟩ := hrows
  have hrow : sys'.enlistment e = row := by
    rw [System.enlistment, henlistments]
    exact getD_set_self h.enlistment_lt row default
  have hlease : sys'.lease l = sys.lease l := lease_of_eq hleases l
  have hclient : sys'.client ref.client = sys.client ref.client := client_of_eq hclients _
  refine ⟨⟨?_, ?_, ?_, ?_, ?_, ?_, ?_, ?_⟩, ?_⟩
  · rw [henlistments, List.length_set]
    exact h.enlistment_lt
  · rw [hleases]
    exact h.lease_lt
  · rw [hclients]
    exact h.client_lt
  · rw [hrow]
    exact h.lease
  · rw [hlease]
    exact h.session
  · rw [hrow]
    show (sys.enlistment e).unregisterCalls + 1 = calls + 1
    rw [h.unregisterCalls, hregistered]
    rfl
  · rw [hclient, hlease]
    exact h.endCalls
  · rw [hlease, inTransaction, hclient]
    exact h.closed
  · simp only [wiring, hrow, hlease]
    rfl

theorem endSession (h : sys.Bound e l ref calls ends) (hopen : (sys.lease l).disposed = false) :
    ((wiring e l).call .endSession sys).2.Bound e l ref calls ends ∧
      (wiring e l).flags ((wiring e l).call .endSession sys).2 =
        { (wiring e l).flags sys with disposed := true } := by
  obtain rfl : (sys.lease l).session = ref := h.session
  let ref := (sys.lease l).session
  let row : Lease := { sys.lease l with disposed := true }
  let c := sys.client ref.client
  have hended : ((wiring e l).call .endSession sys).2 =
      (sys.setLease l row).setClient ref.client (c.endSession ref.id) := rfl
  rw [hended]
  refine h.set h.session ?_ fun _ => c.inTransaction_endSession ref.id
  rw [Client.endSession_endCalls, h.endCalls, hopen]
  rfl

theorem armFaults (h : sys.Bound e l ref calls ends) (kind : FaultKind) (n : Nat) :
    (sys.armFaults l kind n).Bound e l ref calls ends ∧
      (wiring e l).flags (sys.armFaults l kind n) = (wiring e l).flags sys := by
  obtain rfl : (sys.lease l).session = ref := h.session
  let ref := (sys.lease l).session
  let c := sys.client ref.client
  have hsame : sys.setLease l (sys.lease l) = sys := by rw [setLease, set_lease]
  have harmed : sys.armFaults l kind n =
      (sys.setLease l (sys.lease l)).setClient ref.client { c with faults := c.faults.arm kind n } := by
    rw [hsame]
    rfl
  rw [harmed]
  exact h.set h.session h.endCalls h.closed

end Bound

theorem lawful_wiring (e : EnlistmentKey) (l : LeaseKey) (ref : SessionRef) (calls ends : Nat) :
    (wiring e l).Lawful fun sys => sys.Bound e l ref calls ends where
  call ask sys h hmade := by
    cases ask with
    | unregister => exact h.unregister hmade
    | commit =>
      refine h.settleSession Client.commitTransaction_endCalls fun c id hclosed => ?_
      rw [Client.commitTransaction_of_closed hclosed]
    | abort =>
      refine h.settleSession Client.abortTransaction_endCalls fun c id hclosed => ?_
      rw [Client.abortTransaction_of_closed hclosed]
    | endSession => exact h.endSession hmade
  arm kind n sys h := h.armFaults kind n

theorem Bound.run_wiring (h : sys.Bound e l ref calls ends) (uses : List Use) :
    (wiring e l).run sys uses = sys.useAll e uses := by
  induction uses generalizing sys with
  | nil => rfl
  | cons u rest ih =>
    have hnext := ((lawful_wiring e l ref calls ends).completed_use h u).1
    show (wiring e l).run ((wiring e l).use sys u) rest = (sys.useEnlistment e u).useAll e rest
    rw [ih hnext, use_wiring h.lease]

/-! ## The first outcome -/

/-- An enlistment that was told no outcome, of a lease whose session has an open transaction. -/
structure Unsettled (sys : System) (e : EnlistmentKey) : Prop where
  enlistment_lt : e < sys.enlistments.length
  lease_lt : (sys.enlistment e).lease < sys.leases.length
  registered : (sys.enlistment e).unregistered = false
  completed : (sys.lease (sys.enlistment e).lease).completed = false
  disposed : (sys.lease (sys.enlistment e).lease).disposed = false
  inTransaction : sys.inTransaction (sys.lease (sys.enlistment e).lease).session = true

/-- After some uses, the first outcome having come after some of them and asked the session for a commit or an
abort. -/
structure WonBy (sys : System) (e : EnlistmentKey) (before : List Use) (ask : Ask) (uses : List Use) :
    Prop where
  /-- Before the outcome nothing was called, unless the lease was disposed of. -/
  waited : (wiring e (sys.enlistment e).lease).logged.run (sys, []) before =
    (sys.useAll e before, if .dispose ∈ before then [.endSession] else [])
  /-- The enlistment has unregistered, then its session was asked; it was ended before, or else at last. -/
  called : (wiring e (sys.enlistment e).lease).logged.run (sys, []) uses =
    (sys.useAll e uses, if .dispose ∈ before then [.endSession, .unregister, ask]
      else [.unregister, ask, .endSession])
  unregisterCalls : ((sys.useAll e uses).enlistment e).unregisterCalls =
    (sys.enlistment e).unregisterCalls + 1
  endCalls :
    ((sys.useAll e uses).client (sys.lease (sys.enlistment e).lease).session.client).stats.endCalls =
      (sys.client (sys.lease (sys.enlistment e).lease).session.client).stats.endCalls + 1
  closed : (sys.useAll e uses).inTransaction (sys.lease (sys.enlistment e).lease).session = false
  /-- Nothing that the enlistment is told changes anything any more. -/
  notify : ∀ phase,
    (sys.useAll e uses).notifyEnlistment e phase = (.ok (), sys.useAll e uses)
  dispose : (sys.useAll e uses).disposeLease (sys.enlistment e).lease = sys.useAll e uses

theorem Unsettled.bound (h : sys.Unsettled e) :
    sys.Bound e (sys.enlistment e).lease (sys.lease (sys.enlistment e).lease).session
      (sys.enlistment e).unregisterCalls
      (sys.client (sys.lease (sys.enlistment e).lease).session.client).stats.endCalls where
  enlistment_lt := h.enlistment_lt
  lease_lt := h.lease_lt
  client_lt := client_lt_of_inTransaction h.inTransaction
  lease := rfl
  session := rfl
  unregisterCalls := by rw [h.registered]; rfl
  endCalls := by rw [h.disposed]; rfl
  closed hdisposed := by
    rw [h.disposed] at hdisposed
    cases hdisposed

theorem Unsettled.flags (h : sys.Unsettled e) :
    (wiring e (sys.enlistment e).lease).flags sys = {} := by
  simp only [wiring, h.registered, h.completed, h.disposed]

/-- Asking to prepare changes nothing. Operations are admitted until the first outcome comes. This outcome
decides: the enlistment unregisters, the session is asked for a commit or an abort and then ended, if it was
not ended before, all of it once, and in the end the session has no open transaction. -/
theorem first_outcome_wins (h : sys.Unsettled e) :
    (∀ sys' : System, sys'.notifyEnlistment e .prepare = (.ok (), sys')) ∧
      (∀ uses, (sys.useAll e uses).admits (sys.enlistment e).lease = true ↔
        ∀ u ∈ uses, u.outcome? = none) ∧
      ∀ before first later ask, (∀ u ∈ before, u.outcome? = none) → first.outcome? = some ask →
        sys.WonBy e before ask (before ++ first :: later) := by
  have hlawful := lawful_wiring e (sys.enlistment e).lease
    (sys.lease (sys.enlistment e).lease).session (sys.enlistment e).unregisterCalls
    (sys.client (sys.lease (sys.enlistment e).lease).session.client).stats.endCalls
  have hrun := h.bound.run_wiring
  have hlogged (uses : List Use) :
      ((wiring e (sys.enlistment e).lease).logged.run (sys, []) uses).1 = sys.useAll e uses :=
    (Wiring.run_logged sys [] uses).trans (hrun uses)
  refine ⟨fun _ => rfl, fun uses => ?_, fun before first later ask hbefore hfirst => ?_⟩
  · obtain ⟨-, hcompleted⟩ := hlawful.completed_run h.bound uses
    have hsettled : ((sys.useAll e uses).lease (sys.enlistment e).lease).completed =
        uses.any fun u => u.outcome?.isSome := by
      rw [← hrun]
      refine hcompleted.trans ?_
      rw [h.flags, Bool.false_or]
    rw [admits, hsettled]
    simp
  · obtain ⟨-, -, hquiet⟩ := hlawful.run_of_quiet h.bound hbefore []
    obtain ⟨hbound, hflags, hlog⟩ := hlawful.run_of_first h.bound h.flags hbefore hfirst later
    rw [hrun] at hbound hflags
    rw [h.flags] at hquiet
    have hunregistered := congrArg OnceFlags.unregistered hflags
    have hdisposed := congrArg OnceFlags.disposed hflags
    dsimp only [wiring] at hunregistered hdisposed
    refine ⟨Prod.ext (hlogged _) (hquiet.trans (by simp)), Prod.ext (hlogged _) hlog, ?_, ?_,
      hbound.closed hdisposed, fun phase => ?_, if_pos hdisposed⟩
    · rw [hbound.unregisterCalls, hunregistered]
      rfl
    · rw [hbound.endCalls, hdisposed]
      rfl
    · rw [← notify_wiring hbound.lease]
      exact Wiring.notify_of_done hflags phase

def lending : List Deed :=
  [.addClient true, .addRegistry 0 none, .begin {} .required {}, .acquire 0 { transaction := some 0 }]

/-- The commit fails, and it stays the only call that the session gets before it ends. -/
theorem first_outcome_wins_commitFails :
    let sys := System.deeds {} lending
    let before : List Use := [.enter, .tell .prepare, .arm .commit 1]
    sys.Unsettled 0 ∧ (∀ u ∈ before, u.outcome? = none) ∧
      ((sys.useAll 0 before).notifyEnlistment 0 .commit).1 =
        .error (.store (.injected "commitTransaction")) ∧
      (sys.useAll 0 before).admits 0 = true ∧
      sys.WonBy 0 before .commit
        (before ++ .tell .commit :: [.tell .rollback, .arm .abort 2, .dispose, .tell .commit]) := by
  intro sys before
  have hsys : sys.Unsettled 0 := ⟨by decide +kernel, by decide +kernel, by decide +kernel,
    by decide +kernel, by decide +kernel, by decide +kernel⟩
  have hbefore : ∀ u ∈ before, u.outcome? = none := by decide
  obtain ⟨-, hadmits, hwon⟩ := first_outcome_wins hsys
  have hfails : ((sys.useAll 0 before).notifyEnlistment 0 .commit).1 =
      .error (.store (.injected "commitTransaction")) := by decide +kernel
  have hlease : (sys.enlistment 0).lease = 0 := by decide +kernel
  rw [hlease] at hadmits
  exact ⟨hsys, hbefore, hfails, (hadmits before).2 hbefore, hwon before _ _ .commit hbefore rfl⟩

end System

end ScopedStore
