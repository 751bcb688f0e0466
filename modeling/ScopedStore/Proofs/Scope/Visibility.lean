import ScopedStore.Proofs.Scope.Lease
import ScopedStore.Proofs.Scope.Work

/-!
# The outcome and what is visible

When the scope that owns a transaction ends, its status tells which writes are visible: those of all
sessions that its registries have enlisted, of none, or of the first of them (`System.close_leaves`).
Until then nothing is visible.
-/

namespace ScopedStore

namespace System

variable {sys sys' : System} {tx : TxKey} {accepted : List Accepted} {m : Member}
  {members : List Member} {n : Nat}

/-- The clients are valid, and registries start sessions on clients that are there, close no scope on the
way and have slots of transactions only that have been started. -/
structure Ready (sys : System) : Prop where
  valid : sys.Valid
  serves : ∀ registry < sys.registries.length,
    sys.Serves registry (sys.registry registry).client

/-- What is left of a transaction of which the first members have committed: their writes are visible,
and no session of a member is open. What a member has buffered comes to the same as all changes that were
accepted from it, one after the other. -/
structure Leaves (sys : System) (accepted : List Accepted) (members : List Member) (n : Nat)
    (sys' : System) : Prop where
  apart : members.Pairwise Member.Apart
  owned : ∀ a ∈ accepted, ∃ m ∈ members, m.session = a.session
  net : ∀ m ∈ members, ∀ ns,
    Changes.written ((bufferedBy accepted m.session).writesOf ns).entries
        (sys.stored m.session.client ns) =
      Changes.written (changesIn accepted m.session ns) (sys.stored m.session.client ns)
  stored : ∀ client ns, sys'.stored client ns =
    publishedBy (members.take n) (fun m => bufferedBy accepted m.session) client ns
      (sys.stored client ns)
  /-- Where only one member of a client has committed. -/
  alone : ∀ m ∈ members.take n,
    (∀ m' ∈ members.take n, m'.session.client = m.session.client → m' = m) →
    ∀ ns, sys'.stored m.session.client ns =
      Changes.written (changesIn accepted m.session ns) (sys.stored m.session.client ns)
  concluded : ∀ m ∈ members, sys'.Concluded m

theorem begin_of_owns {parent : Context} {option : ScopeOption} {request : ScopeRequest}
    (h : (sys.begin parent option request).1.owns = true) :
    (sys.begin parent option request).1.context.transaction = some sys.transactions.length ∧
      ∃ t : Transaction, t.isOpen = true ∧ t.participants = [] ∧
        (sys.begin parent option request).2 = (sys.addTransaction t).2 := by
  have howning (option : ScopeOption) :
      (sys.beginOwning parent option request).1.context.transaction = some sys.transactions.length ∧
        ∃ t : Transaction, t.isOpen = true ∧ t.participants = [] ∧
          (sys.beginOwning parent option request).2 = (sys.addTransaction t).2 :=
    ⟨rfl, _, rfl, rfl, rfl⟩
  unfold begin at h ⊢
  cases option with
  | suppress => cases h
  | requiresNew => exact howning _
  | required =>
    cases hparent : parent.transaction with
    | some _ =>
      rw [hparent] at h
      cases h
    | none => exact howning _

theorem Ready.joint (h : sys.Ready) {t : Transaction} (hopen : t.isOpen = true)
    (hparticipants : t.participants = []) :
    Joint sys sys.transactions.length [] [] (sys.addTransaction t).2 := by
  have hrow : (sys.addTransaction t).2.transaction sys.transactions.length = t :=
    transaction_addTransaction sys t
  refine ⟨⟨?_, by rw [hrow]; exact hopen, by rw [hrow]; exact hparticipants⟩,
    ⟨h.valid, fun m hm => absurd hm List.not_mem_nil, .nil⟩, fun registry hlt => ?_, rfl, rfl,
    fun _ _ => rfl, fun a ha => absurd ha List.not_mem_nil, fun m hm => absurd hm List.not_mem_nil⟩
  · show sys.transactions.length < (sys.transactions ++ [t]).length
    rw [List.length_append]
    exact Nat.lt_succ_self _
  · have hserves := h.serves registry hlt
    refine ⟨hserves.client_lt, hserves.closing, fun slot hslot => ?_⟩
    exact absurd (hserves.started _ slot hslot) (Nat.lt_irrefl _)

/-! ## Publishing -/

theorem publishedBy_of_none (buffered : Member → Pending) {client : ClientKey}
    (h : ∀ m ∈ members, m.session.client ≠ client) (ns : Namespace)
    (stored : SortedMap Value Bytes) : publishedBy members buffered client ns stored = stored := by
  unfold publishedBy
  induction members with
  | nil => rfl
  | cons m rest ih =>
    have hm : m.published (buffered m) client ns stored = stored :=
      if_neg (h m List.mem_cons_self).symm
    rw [List.foldl_cons, hm]
    exact ih fun m' hm' => h m' (List.mem_cons_of_mem _ hm')

theorem publishedBy_of_alone {buffered : Member → Pending} (hm : m ∈ members)
    (hnodup : members.Nodup) (halone : ∀ m' ∈ members, m'.session.client = m.session.client → m' = m)
    (ns : Namespace) (stored : SortedMap Value Bytes) :
    publishedBy members buffered m.session.client ns stored =
      Changes.written ((buffered m).writesOf ns).entries stored := by
  obtain ⟨before, after, rfl⟩ := List.append_of_mem hm
  have hother (m' : Member) (hm' : m' ∈ before ++ after) : m'.session.client ≠ m.session.client := by
    intro hclient
    have hmem : m' ∈ before ++ m :: after := by
      simp only [List.mem_append, List.mem_cons] at hm' ⊢
      exact hm'.imp_right .inr
    have hmiddle := (List.nodup_middle.1 hnodup)
    rw [halone m' hmem hclient] at hm'
    exact (List.nodup_cons.1 hmiddle).1 hm'
  have hbefore := publishedBy_of_none buffered
    (fun m' hm' => hother m' (List.mem_append_left _ hm')) ns stored
  have hself : m.published (buffered m) m.session.client ns stored =
      Changes.written ((buffered m).writesOf ns).entries stored := if_pos rfl
  unfold publishedBy at hbefore ⊢
  rw [List.foldl_append, List.foldl_cons, hbefore, hself]
  exact publishedBy_of_none buffered (fun m' hm' => hother m' (List.mem_append_right _ hm')) ns _

/-! ## Closing -/

theorem Joint.leaves (h : Joint sys tx accepted members sys')
    {scope : Scope} (hscope : scope.context.transaction = some tx) (howns : scope.owns = true) :
    let after := (sys'.close scope).2
    ∃ n, ((after.transaction tx).status).Tells n members.length ∧
      (∃ ms, after.milestones tx = sys'.milestones tx ++ ms ∧
        ms.filterMap Milestone.committed? = (members.take n).map Member.participant) ∧
      sys.Leaves accepted members n after := by
  obtain ⟨n, hstatus, hends⟩ := h.standing.close h.gathers.tx_lt h.gathers.isOpen
    h.gathers.participants hscope howns
  have hstored (client : ClientKey) (ns : Namespace) := (hends.stored client ns).trans
    (congrArg (publishedBy _ _ client ns) (h.stored client ns))
  have hnet (m : Member) (hm : m ∈ members) (ns : Namespace) := (h.net m hm).written ns
  have hnodup : members.Nodup := h.standing.apart.imp fun hapart heq => by
    rw [heq] at hapart
    exact hapart.1 rfl
  refine ⟨n, hstatus, hends.milestones, h.standing.apart, h.owned, hnet, hstored,
    fun m hm halone ns => ?_, hends.concluded⟩
  rw [hstored, publishedBy_of_alone hm (hnodup.sublist (List.take_sublist n members)) halone]
  exact hnet m (List.mem_of_mem_take hm) ns

/-- Whatever facades do in a transaction, whichever faults are armed, whether leases are removed in
between and however the scope that owns the transaction is closed: before, nothing is visible of the
transaction. After, the participants that have committed are the first of those that were enlisted; they
are all where the status is committed, none where it is aborted, and some but not all where it is in
doubt. The writes of exactly these are visible, and no session of a participant is open any more. -/
theorem close_leaves {sys : System} (hready : sys.Ready) (parent : Context) (option : ScopeOption)
    (request : ScopeRequest) (howns : (sys.begin parent option request).1.owns = true)
    {works : List Work} (hworks : ∀ w ∈ works, w.Fits sys) (completed : Bool) :
    let tx := sys.transactions.length
    let scope := (sys.begin parent option request).1
    let begun := (sys.begin parent option request).2
    let before := begun.workAll tx works
    let after := (before.close { scope with completed := completed }).2
    let accepted := begun.acceptedAll tx works
    (∀ client ns, before.stored client ns = sys.stored client ns) ∧
      ∃ members n,
        (before.transaction tx).participants = members.map Member.participant ∧
        ((after.transaction tx).status).Tells n members.length ∧
        (∃ ms, after.milestones tx = before.milestones tx ++ ms ∧
          ms.filterMap Milestone.committed? = (members.take n).map Member.participant) ∧
        sys.Leaves accepted members n after := by
  intro tx scope begun before after accepted
  obtain ⟨hscope, t, hopen, hparticipants, hbegun⟩ := begin_of_owns howns
  have hstart := hready.joint hopen hparticipants
  rw [← hbegun] at hstart
  obtain ⟨members, hjoint⟩ := hstart.workAll hworks
  have hclosing : { scope with completed := completed }.context.transaction = some tx := hscope
  obtain ⟨n, hstatus, hmilestones, hleaves⟩ := hjoint.leaves hclosing howns
  exact ⟨hjoint.stored, members, n, hjoint.gathers.participants, hstatus, hmilestones, hleaves⟩

def twoRegistries : System :=
  let sys := ((({} : System).addClient true).2.addClient true).2
  ((sys.addRegistry 0 none).2.addRegistry 1 none).2

/-- A facade of each client inserts an entry, and the second client is to fail to commit. -/
def secondCommitFails : List Work :=
  [.request 0 {} (.documents { ns := Client.ledger } (.insertOne (Client.entry 1 10))),
    .request 1 {} (.documents { ns := Client.ledger } (.insertOne (Client.entry 2 20))),
    .arm 1 .commit 1]

theorem ready_twoRegistries : twoRegistries.Ready := by
  refine ⟨fun client => ?_, fun registry hlt => ?_⟩
  · match client with
    | 0 => exact Client.valid_fresh true _
    | 1 => exact Client.valid_fresh true _
    | _ + 2 => exact (Client.valid_fresh false 0).of_eq rfl rfl
  · have hnone (key : ClientKey) : (twoRegistries.registry key).slots.find? = fun _ => none := by
      match key with
      | 0 | 1 | _ + 2 => rfl
    match registry, hlt with
    | 0, _ | 1, _ =>
      refine ⟨by decide, by decide, rfl, rfl, fun tx slot hslot => ?_⟩
      rw [hnone] at hslot
      cases hslot

theorem fits_secondCommitFails : ∀ w ∈ secondCommitFails, w.Fits twoRegistries := by
  intro w hw
  simp only [secondCommitFails, List.mem_cons, List.not_mem_nil, or_false] at hw
  rcases hw with rfl | rfl | rfl
  · exact ⟨by decide, trivial, Client.ordered_entry 1 10⟩
  · exact ⟨by decide, trivial, Client.ordered_entry 2 20⟩
  · show 1 < twoRegistries.clients.length
    decide

def secondCommitFailed : System :=
  let (scope, begun) := twoRegistries.begin {} .required {}
  ((begun.workAll 0 secondCommitFails).close { scope with completed := true }).2

/-- The first insertion is visible and the second is not. -/
theorem close_leaves_secondCommitFails :
    let accepted := (twoRegistries.begin {} .required {}).2.acceptedAll 0 secondCommitFails
    (secondCommitFailed.transaction 0).status = .inDoubt ∧
      (secondCommitFailed.stored 0 Client.ledger).entries =
        [(.integer 1, (Client.entry 1 10).encode)] ∧
      (secondCommitFailed.stored 1 Client.ledger).entries = [] ∧
      ∃ members n, 0 < n ∧ n < members.length ∧
        twoRegistries.Leaves accepted members n secondCommitFailed := by
  have hstatus : (secondCommitFailed.transaction 0).status = .inDoubt := by decide +kernel
  obtain ⟨-, members, n, -, htells, -, hleaves⟩ :=
    close_leaves ready_twoRegistries {} .required {} rfl fits_secondCommitFails true
  change ((secondCommitFailed.transaction 0).status).Tells n members.length at htells
  rw [hstatus] at htells
  obtain ⟨hcommitted, -⟩ | ⟨haborted, -⟩ | ⟨-, hpos, hlt⟩ := htells
  · cases hcommitted
  · cases haborted
  · exact ⟨hstatus, by decide +kernel, by decide +kernel, members, n, hpos, hlt, hleaves⟩

end System

end ScopedStore
