import ScopedStore.Proofs.Scope.Nested
import ScopedStore.Proofs.Scope.Program

/-!
# Nested scopes are all or nothing

Whatever a program of nested scopes does, what is stored changes at two places only: at once where an
operation is made without a transaction, and at the end of a run that has started a transaction and
succeeds, by all that was written under the transaction (`Occurrence.publishes`). Such a run succeeds
exactly if its body did, no run that has joined the transaction failed, and the catalog takes the writes
(`Program.allOrNothing`).

The proof carries along what the history so far says about the system (`Recounts`): which transactions are
open, what each has buffered, and that one is doomed exactly if a run that has joined it failed. Each kind
of occurrence keeps this up (`Recounts.next`), and so does a whole program, by induction on it
(`Recounts.execute`).
-/

namespace ScopedStore

/-! ## Reading a history -/

def latest (start : System) (history : List Occurrence) : System :=
  history.foldl (fun _ o => o.after) start

namespace Occurrence

/-- What is written under a transaction after one more occurrence, in this system. -/
def writesAfter (client : ClientKey) (key : TxKey) (before : System) (p : Pending) : Occurrence → Pending
  | .called cx handle op outcome _ =>
    if cx.transaction = some key ∧ outcome.isOk then
      p.record handle.ns ((before.client client).changesOver p handle op)
    else p
  | _ => p

def FailsUnder (key : TxKey) : Occurrence → Prop
  | .ended scope succeeded _ =>
    scope.owns = false ∧ scope.context.transaction = some key ∧ succeeded = false
  | _ => False

def EndsUnder (key : TxKey) : Occurrence → Prop
  | .ended scope _ _ => scope.owns = true ∧ scope.context.transaction = some key
  | _ => False

def transaction? : Occurrence → Option TxKey
  | .called cx _ _ _ _ => cx.transaction
  | .ended scope _ _ => scope.context.transaction
  | _ => none

end Occurrence

/-- What is written under a transaction: the changes of the operations in it that were accepted. -/
def writesUnder (client : ClientKey) (key : TxKey) (start : System) (history : List Occurrence) : Pending :=
  (history.foldl
    (fun (sofar : System × Pending) o => (o.after, o.writesAfter client key sofar.1 sofar.2))
    (start, ∅)).2

/-- The writes that an occurrence makes visible in a namespace: those of an operation without a
transaction, and those under a transaction when the run that has started it succeeds. -/
def Occurrence.publishes (client : ClientKey) (start : System) (earlier : List Occurrence)
    (ns : Namespace) : Occurrence → Changes
  | .called cx handle op outcome _ =>
    if cx.transaction = none ∧ outcome.isOk ∧ ns = handle.ns then
      ((latest start earlier).client client).changesOver ∅ handle op
    else []
  | .ended scope succeeded _ =>
    match scope.context.transaction with
    | none => []
    | some key =>
      if scope.owns ∧ succeeded then ((writesUnder client key start earlier).writesOf ns).entries else []
  | _ => []

/-- How an occurrence comes out after what occurred earlier. -/
def Occurrence.ComesOut (client : ClientKey) (start : System) (earlier : List Occurrence) :
    Occurrence → Prop
  | .called cx handle op outcome _ =>
    match cx.transaction with
    | none => outcome =
      (((latest start earlier).client client).perform .plain (.documents handle op)).1.mapError .store
    | some key => ∀ o ∈ earlier, ¬o.EndsUnder key
  | .begun scope _ =>
    (scope.option = .suppress → scope.context.transaction = none) ∧
      (scope.option = .requiresNew → scope.owns = true) ∧
      (scope.owns = true → ∃ key, scope.context.transaction = some key ∧
        writesUnder client key start earlier = ∅ ∧ ∀ o ∈ earlier, ¬o.EndsUnder key)
  | .ended scope succeeded _ =>
    let before := latest start earlier
    ∃ completed, earlier.getLast? = some (.returned scope completed before) ∧
      (scope.owns = false → succeeded = completed) ∧
      (scope.owns = true → ∃ key, scope.context.transaction = some key ∧
        (∀ o ∈ earlier, ¬o.EndsUnder key) ∧
        ((before.transaction key).isExpired before.clock = false →
          (succeeded = true ↔ completed = true ∧ (∀ o ∈ earlier, ¬o.FailsUnder key) ∧
            ((before.client client).catalog.commit (before.client client).autoCreate
              (writesUnder client key start earlier)).1 = .ok ())))
  | .waited _ | .returned _ _ _ => True

/-- What is stored changes by no more than what an occurrence publishes. -/
structure Occurrence.Lawful (client : ClientKey) (start : System) (earlier : List Occurrence)
    (o : Occurrence) : Prop where
  stored : ∀ ns, o.after.stored client ns =
    Changes.written (o.publishes client start earlier ns) ((latest start earlier).stored client ns)
  comesOut : o.ComesOut client start earlier

variable {client : ClientKey} {registry : RegistryKey} {start sys : System} {key : TxKey}
  {history : List Occurrence} {o : Occurrence}

theorem latest_concat (start : System) (history : List Occurrence) (o : Occurrence) :
    latest start (history ++ [o]) = o.after := by
  rw [latest, List.foldl_append]
  rfl

theorem writesUnder_concat (client : ClientKey) (key : TxKey) (start : System)
    (history : List Occurrence) (o : Occurrence) :
    writesUnder client key start (history ++ [o]) =
      o.writesAfter client key (latest start history) (writesUnder client key start history) := by
  have hlatest : ∀ (history : List Occurrence) (sofar : System × Pending),
      (history.foldl (fun (sofar : System × Pending) o =>
        (o.after, o.writesAfter client key sofar.1 sofar.2)) sofar).1 = latest sofar.1 history := by
    intro history
    induction history with
    | nil => exact fun _ => rfl
    | cons o rest ih => exact fun _ => ih _
  unfold writesUnder
  rw [List.foldl_append, List.foldl_cons, List.foldl_nil, hlatest]

theorem Occurrence.writesAfter_of_ne (h : o.transaction? ≠ some key) (client : ClientKey)
    (before : System) (p : Pending) : o.writesAfter client key before p = p := by
  cases o with
  | called cx handle op outcome after => exact if_neg fun hboth => h hboth.1
  | waited | begun | returned | ended => rfl

theorem Occurrence.FailsUnder.transaction? (h : o.FailsUnder key) : o.transaction? = some key := by
  cases o with
  | ended scope succeeded after => exact h.2.1
  | waited | begun | returned | called => cases h

theorem Occurrence.EndsUnder.transaction? (h : o.EndsUnder key) : o.transaction? = some key := by
  cases o with
  | ended scope succeeded after => exact h.2
  | waited | begun | returned | called => cases h

/-! ## What a history recounts -/

/-- The history leads to the system, in which these transactions are open. -/
structure Recounts (client : ClientKey) (registry : RegistryKey) (start : System) (keys : List TxKey)
    (members : TxKey → Option Member) (history : List Occurrence) (sys : System) : Prop where
  latest : latest start history = sys
  nested : sys.Nested client registry keys members fun key => writesUnder client key start history
  nodup : keys.Nodup
  doomed : ∀ key ∈ keys, (sys.transaction key).doomed.isSome = true ↔ ∃ o ∈ history, o.FailsUnder key
  unknown : ∀ key, sys.transactions.length ≤ key →
    writesUnder client key start history = ∅ ∧ ∀ o ∈ history, ¬o.FailsUnder key
  ended : ∀ key, (∃ o ∈ history, o.EndsUnder key) → key < sys.transactions.length ∧ key ∉ keys
  lawful : ∀ earlier o, earlier ++ [o] <+: history → o.Lawful client start earlier

variable {keys keys' : List TxKey} {members members' : TxKey → Option Member}

theorem exists_mem_concat {P : Occurrence → Prop} :
    (∃ o' ∈ history ++ [o], P o') ↔ (∃ o' ∈ history, P o') ∨ P o := by
  simp only [List.mem_append, List.mem_singleton, or_and_right, exists_or, exists_eq_left]

theorem Recounts.next (h : Recounts client registry start keys members history sys)
    (hnested : o.after.Nested client registry keys' members' fun key =>
      o.writesAfter client key sys (writesUnder client key start history))
    (hnodup : keys'.Nodup) (hlonger : sys.transactions.length ≤ o.after.transactions.length)
    (htransaction : ∀ key, o.transaction? = some key → key < sys.transactions.length)
    (hdoomed : ∀ key ∈ keys', (o.after.transaction key).doomed.isSome = true ↔
      (∃ o ∈ history, o.FailsUnder key) ∨ o.FailsUnder key)
    (hended : ∀ key, (∃ o ∈ history, o.EndsUnder key) ∨ o.EndsUnder key → key ∉ keys')
    (hlawful : o.Lawful client start history) :
    Recounts client registry start keys' members' (history ++ [o]) o.after where
  latest := latest_concat start history o
  nested := by
    have hwrites (key : TxKey) := writesUnder_concat client key start history o
    rw [h.latest] at hwrites
    rw [funext hwrites]
    exact hnested
  nodup := hnodup
  doomed key hkey := (hdoomed key hkey).trans exists_mem_concat.symm
  unknown key hkey := by
    obtain ⟨hempty, hnone⟩ := h.unknown key (Nat.le_trans hlonger hkey)
    have hne : o.transaction? ≠ some key := fun hsome =>
      absurd (htransaction key hsome) (Nat.not_lt.2 (Nat.le_trans hlonger hkey))
    rw [writesUnder_concat, hempty]
    refine ⟨o.writesAfter_of_ne hne client _ ∅, fun o' ho' => ?_⟩
    rcases List.mem_append.1 ho' with ho' | ho'
    · exact hnone o' ho'
    · rw [List.mem_singleton.1 ho']
      exact fun hfails => hne hfails.transaction?
  ended key hends := by
    have hends := exists_mem_concat.1 hends
    refine ⟨?_, hended key hends⟩
    rcases hends with hends | hends
    · exact Nat.lt_of_lt_of_le (h.ended key hends).1 hlonger
    · exact Nat.lt_of_lt_of_le (htransaction key hends.transaction?) hlonger
  lawful earlier o' hprefix := by
    rcases List.prefix_concat_iff.1 hprefix with heq | hprefix
    · obtain ⟨rfl, ho⟩ := List.append_inj' heq rfl
      obtain rfl := List.singleton_inj.1 ho
      exact hlawful
    · exact h.lawful earlier o' hprefix

theorem Recounts.quiet (h : Recounts client registry start keys members history sys)
    (hnested : o.after.Nested client registry keys members fun key => writesUnder client key start history)
    (hwrites : ∀ key before p, o.writesAfter client key before p = p)
    (htransactions : o.after.transactions = sys.transactions)
    (htransaction : ∀ key, o.transaction? = some key → key < sys.transactions.length)
    (hquiet : ∀ key, ¬o.FailsUnder key ∧ ¬o.EndsUnder key) (hlawful : o.Lawful client start history) :
    Recounts client registry start keys members (history ++ [o]) o.after := by
  refine h.next ?_ h.nodup (Nat.le_of_eq (by rw [htransactions])) htransaction (fun key hkey => ?_)
    (fun key hends => (h.ended key (hends.resolve_right (hquiet key).2)).2) hlawful
  · rw [funext fun key => hwrites key sys (writesUnder client key start history)]
    exact hnested
  · rw [or_iff_left (hquiet key).1, System.transaction_of_eq htransactions]
    exact h.doomed key hkey

theorem Recounts.wait (h : Recounts client registry start keys members history sys) (seconds : Nat) :
    let waited := { sys with clock := sys.clock + seconds }
    Recounts client registry start keys members (history ++ [.waited waited]) waited := by
  intro waited
  refine h.quiet (o := .waited waited) (h.nested.wait seconds) (fun _ _ _ => rfl) rfl nofun
    (fun _ => ⟨id, id⟩) ⟨fun ns => ?_, trivial⟩
  rw [h.latest]
  rfl

theorem Recounts.return (h : Recounts client registry start keys members history sys) (scope : Scope)
    (completed : Bool) :
    Recounts client registry start keys members (history ++ [.returned scope completed sys]) sys := by
  refine h.quiet (o := .returned scope completed sys) h.nested (fun _ _ _ => rfl) rfl nofun
    (fun _ => ⟨id, id⟩) ⟨fun ns => ?_, trivial⟩
  rw [h.latest]
  rfl

/-! ### Operations -/

theorem Recounts.plain (h : Recounts client registry start keys members history sys) {cx : Context}
    (hcx : cx.transaction = none) {handle : Handle} {op : DocumentOp}
    (hr : (Request.documents handle op).Ordered) :
    let called := sys.requestThrough client (.byRegistry registry) cx (.documents handle op)
    Recounts client registry start keys members
      (history ++ [.called cx handle op called.1 called.2]) called.2 := by
  intro called
  let performed := (sys.client client).perform .plain (.documents handle op)
  have hcalled : called = (performed.1.mapError .store, sys.afterPlain client (.documents handle op)) :=
    System.requestThrough_of_none hcx _
  have hok : (performed.1.mapError TxError.store).isOk = performed.1.isOk := by
    cases performed.1 <;> rfl
  have hnone (key : TxKey) : cx.transaction ≠ some key := by
    rw [hcx]
    exact nofun
  rw [hcalled]
  refine h.quiet (o := .called cx handle op _ _) (h.nested.plain hr)
    (fun key _ _ => if_neg fun hboth => hnone key hboth.1) rfl (fun key hsome => absurd hsome (hnone key))
    (fun _ => ⟨id, id⟩) ⟨fun ns => ?_, ?_⟩
  · have hstored : (sys.afterPlain client (.documents handle op)).stored client ns =
        performed.2.stored ns := by
      rw [System.stored, System.client_afterPlain h.nested.serves.client_lt]
    refine hstored.trans (((sys.client client).stored_of_plain handle op ns).trans ?_)
    simp only [Occurrence.publishes, hcx, h.latest, hok, true_and]
    split <;> rfl
  · show match cx.transaction with | none => _ | some key => _
    rw [hcx, h.latest]

theorem Recounts.call (h : Recounts client registry start keys members history sys) {cx : Context}
    (hkey : key ∈ keys) (hcx : cx.transaction = some key) {handle : Handle} {op : DocumentOp}
    (hr : (Request.documents handle op).Ordered) :
    let called := sys.requestThrough client (.byRegistry registry) cx (.documents handle op)
    ∃ members', Recounts client registry start keys members'
      (history ++ [.called cx handle op called.1 called.2]) called.2 := by
  intro called
  obtain ⟨hstored, ⟨hlength, hdoomed⟩, members', hnested⟩ := h.nested.call hkey hcx hr
  refine ⟨members', h.next (o := .called cx handle op called.1 called.2) ?_ h.nodup
    (Nat.le_of_eq hlength.symm) (fun key' hsome => ?_) (fun key' hkey' => ?_)
    (fun key' hends => (h.ended key' (hends.resolve_right id)).2) ⟨fun ns => ?_, ?_⟩⟩
  · have hwrites : (fun key' => (Occurrence.called cx handle op called.1 called.2).writesAfter client
        key' sys (writesUnder client key' start history)) =
          Function.update (fun key' => writesUnder client key' start history) key
            (if called.1.isOk then (writesUnder client key start history).record handle.ns
              ((sys.client client).changesOver (writesUnder client key start history) handle op)
            else writesUnder client key start history) := by
      funext key'
      by_cases hsame : key' = key
      · rw [hsame, Function.update_self]
        simp only [Occurrence.writesAfter, hcx, true_and]
      · have hother : (Occurrence.called cx handle op called.1 called.2).transaction? ≠ some key' :=
          fun hsome => hsame (Option.some.inj (hcx.symm.trans hsome)).symm
        rw [Function.update_of_ne hsame, Occurrence.writesAfter_of_ne hother]
    rw [hwrites]
    exact hnested
  · obtain rfl := Option.some.inj (hcx.symm.trans hsome)
    exact (h.nested.carries key hkey).tx_lt
  · refine Iff.trans ?_ (or_iff_left id).symm
    show (called.2.transaction key').doomed.isSome = true ↔ _
    rw [hdoomed]
    exact h.doomed key' hkey'
  · have hnothing : (Occurrence.called cx handle op called.1 called.2).publishes client start history ns =
        [] := if_neg fun hall => by rw [hcx] at hall; cases hall.1
    rw [hnothing, h.latest]
    exact hstored ns
  · show match cx.transaction with | none => _ | some key => _
    rw [hcx]
    exact fun o ho hends => (h.ended key ⟨o, ho, hends⟩).2 hkey

/-! ### Runs -/

theorem System.option_begin (sys : System) (parent : Context) (option : ScopeOption)
    (request : ScopeRequest) :
    let scope := (sys.begin parent option request).1
    (scope.option = .suppress → scope.context.transaction = none) ∧
      (scope.option = .requiresNew → scope.owns = true) := by
  unfold System.begin
  cases option with
  | suppress => exact ⟨fun _ => rfl, nofun⟩
  | requiresNew => exact ⟨nofun, fun _ => rfl⟩
  | required => cases parent.transaction <;> exact ⟨nofun, nofun⟩

theorem System.begin_cases (sys : System) (parent : Context) (option : ScopeOption)
    (request : ScopeRequest) :
    let (scope, begun) := sys.begin parent option request
    (scope.owns = false ∧ begun = sys ∧
        ∀ key, scope.context.transaction = some key → parent.transaction = some key) ∨
      (scope.owns = true ∧ scope.context.transaction = some sys.transactions.length ∧
        ∃ t : Transaction, t.isOpen = true ∧ t.participants = [] ∧ t.doomed = none ∧
          begun = (sys.addTransaction t).2) := by
  have howning (option : ScopeOption) : (sys.beginOwning parent option request).1.owns = true ∧
      (sys.beginOwning parent option request).1.context.transaction = some sys.transactions.length ∧
      ∃ t : Transaction, t.isOpen = true ∧ t.participants = [] ∧ t.doomed = none ∧
        (sys.beginOwning parent option request).2 = (sys.addTransaction t).2 :=
    ⟨rfl, rfl, _, rfl, rfl, rfl, rfl⟩
  unfold System.begin
  cases option with
  | suppress => exact .inl ⟨rfl, rfl, fun _ hnone => nomatch hnone⟩
  | requiresNew => exact .inr (howning _)
  | required =>
    cases hparent : parent.transaction with
    | none => exact .inr (howning _)
    | some key => exact .inl ⟨rfl, rfl, fun _ hsome => hparent.symm.trans hsome⟩

theorem Recounts.begin (h : Recounts client registry start keys members history sys) {parent : Context}
    (hparent : ∀ key, parent.transaction = some key → key ∈ keys) (option : ScopeOption) :
    let (scope, begun) := sys.begin parent option {}
    ∃ keys' members',
      Recounts client registry start keys' members' (history ++ [.begun scope begun]) begun ∧
      (∀ key ∈ keys, key ∈ keys') ∧ (∀ key, scope.context.transaction = some key → key ∈ keys') ∧
      if scope.owns then ∃ key, scope.context.transaction = some key ∧ keys' = key :: keys
      else keys' = keys := by
  have hcases := sys.begin_cases parent option {}
  have hoption := sys.option_begin parent option {}
  generalize sys.begin parent option {} = started at *
  obtain ⟨scope, begun⟩ := started
  rcases hcases with ⟨howns, rfl, hcontext⟩ | ⟨howns, hcontext, t, hopen, hparticipants, hdoomed, rfl⟩
  · refine ⟨keys, members, ?_, fun _ hkey => hkey, fun key hkey => hparent key (hcontext key hkey), ?_⟩
    · refine h.quiet (o := .begun scope begun) h.nested (fun _ _ _ => rfl) rfl nofun (fun _ => ⟨id, id⟩)
        ⟨fun ns => ?_, hoption.1, hoption.2, fun howns' => ?_⟩
      · rw [h.latest]
        rfl
      · cases howns.symm.trans howns'
    · rw [howns]
      rfl
  · let key := sys.transactions.length
    let begun := (sys.addTransaction t).2
    obtain ⟨hempty, hunfailed⟩ := h.unknown key (Nat.le_refl _)
    have hunended : ∀ o ∈ history, ¬o.EndsUnder key := fun o ho hends =>
      absurd (h.ended key ⟨o, ho, hends⟩).1 (Nat.lt_irrefl _)
    have hnew : key ∉ keys := fun hkey => absurd (h.nested.carries key hkey).tx_lt (Nat.lt_irrefl _)
    refine ⟨key :: keys, Function.update members key none, ?_, fun _ => List.mem_cons_of_mem _,
      fun key' hkey' => ?_, ?_⟩
    · refine h.next (o := .begun scope begun) (h.nested.start hopen hparticipants hempty)
        (List.nodup_cons.2 ⟨hnew, h.nodup⟩) ?_ nofun (fun key' hkey' => ?_) (fun key' hends => ?_)
        ⟨fun ns => ?_, hoption.1, hoption.2, fun _ => ⟨key, hcontext, hempty, hunended⟩⟩
      · show sys.transactions.length ≤ (sys.transactions ++ [t]).length
        rw [List.length_append]
        exact Nat.le_add_right _ _
      · refine Iff.trans ?_ (or_iff_left id).symm
        rcases List.mem_cons.1 hkey' with rfl | hkey'
        · have hrow : begun.transaction key = t := sys.transaction_addTransaction t
          show (begun.transaction key).doomed.isSome = true ↔ _
          rw [hrow, hdoomed]
          exact iff_of_false Bool.false_ne_true fun ⟨o, ho, hfails⟩ => hunfailed o ho hfails
        · have hrow : begun.transaction key' = sys.transaction key' :=
            System.getD_append_of_lt (h.nested.carries key' hkey').tx_lt [t] default
          show (begun.transaction key').doomed.isSome = true ↔ _
          rw [hrow]
          exact h.doomed key' hkey'
      · obtain ⟨hlt, hnot⟩ := h.ended key' (hends.resolve_right id)
        exact List.not_mem_cons_of_ne_of_not_mem (Nat.ne_of_lt hlt) hnot
      · rw [h.latest]
        rfl
    · obtain rfl : key = key' := Option.some.inj (hcontext.symm.trans hkey')
      exact List.mem_cons_self
    · rw [howns]
      exact ⟨key, hcontext, rfl⟩

/-- Closing a scope that has started no transaction does nothing, unless it has joined one and was not
completed. -/
theorem System.close_of_not_owner {scope : Scope} (howns : scope.owns = false)
    (hquiet : scope.context.transaction = none ∨ scope.completed = true) (sys : System) :
    sys.close scope = (.ok (), sys) := by
  have hwith (close : CloseScope) : System.closeWith close sys scope = (.ok (), sys) := by
    unfold System.closeWith
    rw [howns]
    rcases hquiet with hnone | hcompleted
    · rw [hnone]
    · rw [hcompleted]
      cases scope.context.transaction <;> rfl
  unfold System.close
  cases sys.heldScopes with
  | zero => exact hwith _
  | succ n => exact hwith _

section Ending

variable {β : Type} {scope : Scope} {result : Except TxError β}

theorem Recounts.lawful_of_not_owner (h : Recounts client registry start keys members history sys)
    (howns : scope.owns = false) (hlast : history.getLast? = some (.returned scope result.isOk sys))
    {after : System} (hclients : after.clients = sys.clients) :
    (Occurrence.ended scope result.isOk after).Lawful client start history := by
  refine ⟨fun ns => ?_, result.isOk, by rw [h.latest]; exact hlast, fun _ => rfl, fun howns' => ?_⟩
  · have hnothing : (Occurrence.ended scope result.isOk after).publishes client start history ns = [] := by
      simp only [Occurrence.publishes, howns, Bool.false_eq_true, false_and, if_false]
      split <;> rfl
    rw [hnothing, h.latest]
    exact System.stored_of_eq hclients client ns
  · rw [howns] at howns'
    cases howns'

theorem Recounts.endJoined (h : Recounts client registry start keys members history sys)
    (howns : scope.owns = false) (hcontext : ∀ key, scope.context.transaction = some key → key ∈ keys)
    (hlast : history.getLast? = some (.returned scope result.isOk sys)) :
    let finished := sys.finish scope result
    Recounts client registry start keys members
      (history ++ [.ended scope finished.1.isOk finished.2]) finished.2 := by
  intro finished
  let done : Scope := { scope with completed := result.isOk }
  have hdone : done.owns = false := howns
  have hlt (key : TxKey) (hkey : scope.context.transaction = some key) :
      key < sys.transactions.length := (h.nested.carries key (hcontext key hkey)).tx_lt
  have hnotOwner (key : TxKey) (succeeded : Bool) (after : System) :
      ¬(Occurrence.ended scope succeeded after).EndsUnder key := fun hends => by
    have howns' := howns.symm.trans hends.1
    cases howns'
  have hsucceeds (hclose : (sys.close done).1 = .ok ()) : finished.1.isOk = result.isOk := by
    rw [System.isOk_finish, hclose]
    exact Bool.and_true _
  have hquiet (hquiet : scope.context.transaction = none ∨ result.isOk = true) :
      Recounts client registry start keys members
        (history ++ [.ended scope finished.1.isOk finished.2]) finished.2 := by
    have hclose : sys.close done = (.ok (), sys) := System.close_of_not_owner hdone hquiet sys
    have hafter : finished.2 = sys := congrArg Prod.snd hclose
    rw [hsucceeds (by rw [hclose]), hafter]
    refine h.quiet (o := .ended scope result.isOk sys) h.nested (fun _ _ _ => rfl) rfl hlt
      (fun key => ⟨fun ⟨_, hsome, hfailed⟩ => ?_, hnotOwner key _ _⟩)
      (h.lawful_of_not_owner howns hlast rfl)
    rcases hquiet with hnone | hok
    · cases hnone.symm.trans hsome
    · cases hok.symm.trans hfailed
  cases hcx : scope.context.transaction with
  | none => exact hquiet (.inl hcx)
  | some key =>
    cases hresult : result.isOk with
    | true => exact hquiet (.inr hresult)
    | false =>
      let doomed := sys.doom key "joined scope closed without completion"
      have hjoined : done.context.transaction = some key := hcx
      have hclose : sys.close done = (.ok (), doomed) := System.close_of_abandoned hjoined hdone hresult sys
      have hafter : finished.2 = doomed := congrArg Prod.snd hclose
      have hrow : doomed.transaction key = _ := System.transaction_setTransaction_self (hlt key hcx) _
      rw [hsucceeds (by rw [hclose]), hafter]
      refine h.next (o := .ended scope result.isOk doomed)
        (h.nested.doom key "joined scope closed without completion") h.nodup
        (Nat.le_of_eq (List.length_set ..).symm) hlt (fun key' hkey' => ?_)
        (fun key' hends => (h.ended key' (hends.resolve_right (hnotOwner key' _ _))).2)
        (h.lawful_of_not_owner howns hlast rfl)
      by_cases hsame : key' = key
      · refine iff_of_true ?_ (.inr ⟨howns, hsame ▸ hcx, hresult⟩)
        show (doomed.transaction key').doomed.isSome = true
        rw [hsame, hrow, Transaction.doom]
        cases (sys.transaction key).doomed <;> rfl
      · have hother : doomed.transaction key' = sys.transaction key' :=
          System.transaction_setTransaction_of_ne (Ne.symm hsame) sys _
        refine Iff.trans ?_ (or_iff_left fun hfails => ?_).symm
        · show (doomed.transaction key').doomed.isSome = true ↔ _
          rw [hother]
          exact h.doomed key' hkey'
        · exact hsame (Option.some.inj (hfails.2.1.symm.trans hcx))

/-- The run ends that has started a transaction. What was written under it is published, or nothing. -/
theorem Recounts.endOwner (h : Recounts client registry start (key :: keys) members history sys)
    (howns : scope.owns = true) (hcontext : scope.context.transaction = some key)
    (hlast : history.getLast? = some (.returned scope result.isOk sys)) :
    let finished := sys.finish scope result
    Recounts client registry start keys members
      (history ++ [.ended scope finished.1.isOk finished.2]) finished.2 := by
  intro finished
  let done : Scope := { scope with completed := result.isOk }
  obtain ⟨hnot, hnodup⟩ := List.nodup_cons.1 h.nodup
  have hdone : done.context.transaction = some key := hcontext
  obtain ⟨hnested, hlength, hdoomed, hstored, hsucceeds⟩ := h.nested.close hnot hdone howns
  have hisOk : finished.1.isOk = (result.isOk && (sys.close done).1.isOk) := System.isOk_finish ..
  have hnotJoined (key : TxKey) (succeeded : Bool) (after : System) :
      ¬(Occurrence.ended scope succeeded after).FailsUnder key := fun hfails => by
    have howns' := howns.symm.trans hfails.1
    cases howns'
  have hunended : ∀ o ∈ history, ¬o.EndsUnder key := fun o ho hends =>
    (h.ended key ⟨o, ho, hends⟩).2 List.mem_cons_self
  refine h.next (o := .ended scope finished.1.isOk finished.2) hnested hnodup (Nat.le_of_eq hlength.symm)
    (fun key' hsome => ?_) (fun key' hkey' => ?_) (fun key' hends => ?_) ⟨fun ns => ?_, ?_⟩
  · obtain rfl := Option.some.inj (hcontext.symm.trans hsome)
    exact (h.nested.carries key List.mem_cons_self).tx_lt
  · -- the other transactions are as doomed as they were
    refine Iff.trans ?_ (or_iff_left (hnotJoined key' _ _)).symm
    show ((sys.close done).2.transaction key').doomed.isSome = true ↔ _
    rw [hdoomed key' hkey']
    exact h.doomed key' (List.mem_cons_of_mem _ hkey')
  · rcases hends with hends | hends
    · exact fun hkey' => (h.ended key' hends).2 (List.mem_cons_of_mem _ hkey')
    · obtain rfl := Option.some.inj (hcontext.symm.trans hends.2)
      exact hnot
  · have hpublishes :
        (Occurrence.ended scope finished.1.isOk finished.2).publishes client start history ns =
        if finished.1.isOk then ((writesUnder client key start history).writesOf ns).entries else [] := by
      simp only [Occurrence.publishes, hcontext, howns, true_and]
    rw [hpublishes, h.latest, hisOk]
    refine (hstored ns).trans ?_
    split <;> rfl
  · refine ⟨result.isOk, by rw [h.latest]; exact hlast, fun howns' => ?_, fun _ =>
      ⟨key, hcontext, hunended, fun halive => ?_⟩⟩
    · cases howns.symm.trans howns'
    · rw [h.latest] at halive ⊢
      have hintact : (sys.transaction key).doomed.isNone = true ↔ ∀ o ∈ history, ¬o.FailsUnder key := by
        rw [Option.isNone_iff_eq_none, ← Option.not_isSome_iff_eq_none, h.doomed key List.mem_cons_self]
        exact ⟨fun hnone o ho hfails => hnone ⟨o, ho, hfails⟩,
          fun hnone ⟨o, ho, hfails⟩ => hnone o ho hfails⟩
      have hcommits : sys.commitsOn key done = true ↔
          result.isOk = true ∧ ∀ o ∈ history, ¬o.FailsUnder key := by
        rw [← hintact, System.commitsOn, halive, Bool.not_false, Bool.and_true, Bool.and_eq_true]
      rw [hisOk, hsucceeds, hcommits, and_assoc]

end Ending

/-! ## Whole programs -/

/-- Contexts are in reach that have no transaction or an open one. -/
def InReach (keys : List TxKey) (contexts : List Context) : Prop :=
  ∀ cx ∈ contexts, ∀ key, cx.transaction = some key → key ∈ keys

theorem InReach.getD {contexts : List Context} (h : InReach keys contexts) (reach : Nat) :
    ∀ key, (contexts.getD reach {}).transaction = some key → key ∈ keys := by
  intro key hkey
  rw [List.getD_eq_getElem?_getD] at hkey
  cases hcx : contexts[reach]? with
  | none =>
    rw [hcx] at hkey
    cases hkey
  | some cx =>
    rw [hcx] at hkey
    exact h cx (List.mem_of_getElem? hcx) key hkey

/-- A program goes on with a history, and leaves the transactions open that were open. -/
theorem Recounts.execute {α : Type} (p : Program α) {contexts : List Context}
    (h : Recounts client registry start keys members history sys) (hopen : InReach keys contexts) :
    let executed := p.execute client registry contexts sys history
    ∃ members', Recounts client registry start keys members' executed.2 executed.1.2 := by
  -- the body of a run works with one more open transaction, so these vary in the induction
  induction p generalizing contexts keys members history sys with
  | done result => exact ⟨members, h⟩
  | wait seconds next ih =>
    rw [Program.execute_wait]
    exact ih (h.wait seconds) hopen
  | call reach handle op ordered next ih =>
    rw [Program.execute_call]
    cases hcx : (contexts.getD reach {}).transaction with
    | none => exact ih _ (h.plain hcx ordered) hopen
    | some key =>
      obtain ⟨members', hcalled⟩ := h.call (hopen.getD reach key hcx) hcx ordered
      exact ih _ hcalled hopen
  | run reach option body next ihBody ihNext =>
    rw [Program.execute_run]
    have hbegin := h.begin (hopen.getD reach) option
    generalize sys.begin (contexts.getD reach {}) option {} = begun at *
    obtain ⟨scope, begun⟩ := begun
    obtain ⟨keys', members₁, hbegun, hmore, hscope, howner⟩ := hbegin
    have hopen' : InReach keys' (scope.context :: contexts) := by
      refine List.forall_mem_cons.2 ⟨hscope, fun cx hcx key hkey => hmore key (hopen cx hcx key hkey)⟩
    obtain ⟨members₂, hbody⟩ := ihBody hbegun hopen'
    dsimp only at hbody ⊢
    generalize body.execute client registry (scope.context :: contexts) begun
      (history ++ [.begun scope begun]) = executed at *
    obtain ⟨⟨result, before⟩, during⟩ := executed
    have hreturned := hbody.return scope result.isOk
    have hlast : (during ++ [Occurrence.returned scope result.isOk before]).getLast? =
      some (.returned scope result.isOk before) := List.getLast?_concat ..
    cases howns : scope.owns with
    | false =>
      rw [howns, if_neg Bool.false_ne_true] at howner
      subst howner
      exact ihNext _ (hreturned.endJoined howns hscope hlast) hopen
    | true =>
      rw [howns, if_pos rfl] at howner
      obtain ⟨key, hcontext, rfl⟩ := howner
      exact ihNext _ (hreturned.endOwner howns hcontext hlast) hopen

/-- Nested scopes are all or nothing. Whatever a program of nested scopes does, where no call is armed to
fail: what is stored is changed by operations without a transaction, at once, and by runs that have started
a transaction and succeed, by all that was written under the transaction up to their end. Such a run, unless
its transaction has expired, succeeds exactly if its body did, no run failed that has joined the
transaction, and the catalog takes the writes. Every other run succeeds exactly if its body did. -/
theorem Program.allOrNothing {α : Type} (hserves : start.Serves registry client)
    (hreachable : (start.client client).Reachable) (hunarmed : (start.client client).Unarmed)
    {root : Context} (hroot : root.transaction = none) (p : Program α) :
    let executed := p.execute client registry [root] start []
    latest start executed.2 = executed.1.2 ∧
      ∀ earlier o, earlier ++ [o] <+: executed.2 → o.Lawful client start earlier := by
  intro executed
  have hstart : Recounts client registry start [] (fun _ => none) [] start := by
    refine ⟨rfl, ⟨hserves, hreachable.valid, hunarmed, ?_, ?_⟩, .nil, ?_, ?_, ?_,
      fun earlier o hprefix => ?_⟩
    · exact fun _ hkey => absurd hkey List.not_mem_nil
    · exact fun _ hkey => absurd hkey List.not_mem_nil
    · exact fun _ hkey => absurd hkey List.not_mem_nil
    · exact fun _ _ => ⟨rfl, fun _ ho => absurd ho List.not_mem_nil⟩
    · exact fun _ ⟨_, ho, _⟩ => absurd ho List.not_mem_nil
    · have hnil := List.prefix_nil.1 hprefix
      exact absurd hnil (List.append_ne_nil_of_right_ne_nil _ (List.cons_ne_nil _ _))
  have hopen : InReach [] [root] := by
    intro cx hcx key hkey
    rw [List.mem_singleton.1 hcx, hroot] at hkey
    cases hkey
  obtain ⟨members, hrecounts⟩ := hstart.execute p hopen
  exact ⟨hrecounts.latest, hrecounts.lawful⟩

def Program.insert {α : Type} (reach : Nat) (number : Int64) (next : Program α) : Program α :=
  .call reach { ns := Client.ledger } (.insertOne (Client.entry number 0))
    ⟨trivial, Client.ordered_entry number 0⟩ fun _ => next

/-- A run that starts a transaction swallows the error of one that joins it, and goes on with a run that
starts a transaction of its own and with one that has none. -/
def swallowing : Program (Except TxError Unit) :=
  .run 0 .required
    (.insert 0 1 <|
      .run 0 .required (.insert 0 2 <| .done (.error .notPinned)) fun (_ : Except TxError Unit) =>
        .run 0 .requiresNew (.insert 0 3 <| .done (.ok ())) fun (_ : Except TxError Unit) =>
          .run 0 .suppress (.insert 0 4 <| .insert 2 5 <| .done (.ok ())) fun (_ : Except TxError Unit) =>
            .done (.ok ()))
    .done

/-- The run fails although its body succeeds. What it has written is gone, and what the others have written
stays. -/
theorem Program.allOrNothing_swallowing :
    let executed := swallowing.execute 0 0 [{}] System.ledgerSystem []
    executed.1.1.isOk = false ∧
      ((executed.1.2.stored 0 Client.ledger).entries.map Prod.fst = [.integer 3, .integer 4, .integer 5]) ∧
      ∀ earlier o, earlier ++ [o] <+: executed.2 → o.Lawful 0 System.ledgerSystem earlier := by
  have hserves : System.ledgerSystem.Serves 0 0 :=
    ⟨by decide, by decide, rfl, rfl, fun tx slot hslot => by cases hslot⟩
  have hreachable : (System.ledgerSystem.client 0).Reachable :=
    ⟨true, _, [], fun e he => absurd he List.not_mem_nil, rfl⟩
  have hunarmed : (System.ledgerSystem.client 0).Unarmed := fun kind => by cases kind <;> rfl
  have hroot : ({} : Context).transaction = none := rfl
  obtain ⟨-, hlawful⟩ := Program.allOrNothing hserves hreachable hunarmed hroot swallowing
  exact ⟨by decide +kernel, by decide +kernel, hlawful⟩

end ScopedStore
