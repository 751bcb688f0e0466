import ScopedStore.Proofs.Client.Lifetimes

/-!
# Clients without armed faults

Where no call is armed to fail, a session is opened for a lease without fail, nothing comes to be armed,
and in an open transaction an operation on documents that is accepted adds the changes that it makes over
what the transaction has buffered (`Client.changesOf_documents`).
-/

namespace ScopedStore

namespace Client

def Unarmed (c : Client) : Prop := ∀ kind, c.faults.armed kind = 0

/-- Settles the store transaction of a session and ends the session. -/
def conclude (c : Client) (id : SessionId) (commits : Bool) : Except StoreError Unit × Client :=
  let settled := if commits then c.commitTransaction id else c.abortTransaction id
  (settled.1, settled.2.endSession id)

def changesOver (c : Client) (p : Pending) (h : Handle) (op : DocumentOp) : Changes :=
  match c.runOn h (p.writesOf h.ns) op with
  | .ok (_, v) => v.changes
  | .error _ => []

variable {c c' : Client} {id : SessionId} {s : Session} {t : OpenTransaction}

theorem Unarmed.of_eq (h : c.Unarmed) (hfaults : c'.faults = c.faults) : c'.Unarmed := by
  intro kind
  rw [hfaults, h kind]

/-! ## Calls on a session -/

theorem endSession_faults (c : Client) (id : SessionId) : (c.endSession id).faults = c.faults := by
  unfold endSession
  dsimp only
  split <;> rfl

theorem Unarmed.commitTransaction (h : c.Unarmed) (id : SessionId) :
    (c.commitTransaction id).2.Unarmed := by
  refine h.of_eq ?_
  unfold Client.commitTransaction
  dsimp only
  split
  · rfl
  · rw [takeFault_of_unarmed (h .commit)]
    dsimp only
    split <;> rfl

theorem Unarmed.abortTransaction (h : c.Unarmed) (id : SessionId) :
    (c.abortTransaction id).2.Unarmed := by
  refine h.of_eq ?_
  unfold Client.abortTransaction
  dsimp only
  split
  · rfl
  · rw [takeFault_of_unarmed (h .abort)]
    rfl

theorem Unarmed.openSession (h : c.Unarmed) (session : SessionOptions)
    (transaction : TransactionOptions) :
    ∃ id c' options, c.openSession session transaction = (.ok id, c') ∧ Alike c c' ∧
      Spares (fun _ => False) c c' ∧ c.session? id = none ∧
      c'.session? id = some { options := session, transaction := some { options := options } } := by
  obtain ⟨id, c₁, hstart, halike₁, hs₁⟩ := startSession_of_unarmed (h .sessionStart) session
  obtain ⟨hspares₁, -, hnew⟩ := c.startSession_spares session
  rw [hstart] at hspares₁ hnew
  obtain ⟨-, hnone⟩ := hnew id rfl
  have h₁ : c₁.Unarmed := h.of_eq halike₁.faults
  obtain ⟨c₂, options, hopen, halike₂, hs₂⟩ :=
    startTransaction_of_unarmed hs₁ rfl rfl (h₁ .transactionStart) transaction
  obtain ⟨hspares₂, -⟩ := startTransaction_spares hs₁ transaction
  rw [hopen] at hspares₂
  refine ⟨id, c₂, options, ?_, halike₁.trans halike₂, hspares₁.of_new hspares₂ hnone, hnone, hs₂⟩
  unfold Client.openSession
  rw [hstart]
  dsimp only
  rw [hopen]

/-- A session whose transaction is settled has ended. A commit takes place where the catalog lets it, and
then what was buffered is stored; otherwise everything stored stays as it is. -/
theorem Unarmed.conclude (h : c.Unarmed) (hc : c.Valid) (hs : c.session? id = some s)
    (ht : s.transaction = some t) (commits : Bool) :
    let concluded := c.conclude id commits
    concluded.2.Unarmed ∧ Spares (· = id) c concluded.2 ∧
      (commits = true → concluded.1 = (c.catalog.commit c.autoCreate t.pending).1) ∧
      ∀ ns, concluded.2.stored ns =
        if commits && concluded.1.isOk then Changes.written (t.pending.writesOf ns).entries (c.stored ns)
        else c.stored ns := by
  have hfaults {c' : Client} (h' : c'.Unarmed) : (c'.endSession id).Unarmed :=
    h'.of_eq (c'.endSession_faults id)
  cases commits with
  | false =>
    obtain ⟨hspares, hstored, s', hs', -⟩ := abortTransaction_spares hs
    obtain ⟨hspares', hstored', -⟩ := endSession_spares hs'
    exact ⟨hfaults (h.abortTransaction id), hspares.trans hspares',
      fun hcommits => absurd hcommits Bool.false_ne_true, fun ns => (hstored' ns).trans (hstored ns)⟩
  | true =>
    obtain ⟨hspares, ⟨s', hs', -⟩, hok, hfailed⟩ := commitTransaction_spares hc hs
    obtain ⟨hspares', hstored', -⟩ := endSession_spares hs'
    refine ⟨hfaults (h.commitTransaction id), hspares.trans hspares',
      fun _ => (commitTransaction_of_unarmed hs ht (h .commit)).1, fun ns => (hstored' ns).trans ?_⟩
    show _ = if (c.commitTransaction id).1.isOk then _ else _
    cases houtcome : (c.commitTransaction id).1 with
    | ok u =>
      obtain ⟨t', ht', hpublished⟩ := hok houtcome
      rw [ht] at ht'
      cases ht'
      exact hpublished ns
    | error e => exact hfailed (by rw [houtcome]; exact nofun) ns

/-! ## Operations on documents -/

theorem changesOver_of_eq (hcatalog : c'.catalog = c.catalog) (hseed : c'.seed = c.seed) (p : Pending)
    (h : Handle) (op : DocumentOp) : c'.changesOver p h op = c.changesOver p h op := by
  unfold changesOver runOn
  rw [hcatalog, hseed]

theorem changesOf_documents (hc : c.Valid) (hs : c.session? id = some s)
    (ht : s.transaction = some t) (h : Handle) (op : DocumentOp) :
    c.changesOf id (.documents h op) =
      match (c.perform (.session id) (.documents h op)).1 with
      | .ok _ => some (h.ns, c.changesOver t.pending h op)
      | .error _ => none := by
  unfold changesOf
  cases (c.perform (.session id) (.documents h op)).1 with
  | error e => rfl
  | ok reply =>
    dsimp only
    rw [changesBy, writesOf_eq (hc.transactionOf? hs ht)]
    rfl

theorem stored_of_plain (c : Client) (h : Handle) (op : DocumentOp) (ns : Namespace) :
    (c.perform .plain (.documents h op)).2.stored ns =
      if (c.perform .plain (.documents h op)).1.isOk ∧ ns = h.ns then
        Changes.written (c.changesOver ∅ h op) (c.stored ns)
      else c.stored ns := by
  have hfailed {outcome : Except StoreError Reply} (herror : ∃ e, outcome = .error e) :
      ¬(outcome.isOk = true ∧ ns = h.ns) := by
    obtain ⟨e, rfl⟩ := herror
    exact fun hok => absurd hok.1 Bool.false_ne_true
  rcases runDocuments_cases (Prod.eta (c.runDocuments .plain h op)).symm with
    ⟨hcatalog, -, herror⟩ | ⟨-, hrun⟩ | ⟨id, s, t, hopen, -⟩
  · exact (stored_of_eq hcatalog ns).trans (if_neg (hfailed herror)).symm
  · obtain ⟨-, ⟨hcatalog, herror⟩ | ⟨reply, v, hok, hon, happly⟩⟩ := runDirect_cases hrun
    · rw [countOperation_catalog] at hcatalog
      exact (stored_of_eq hcatalog ns).trans (if_neg (hfailed herror)).symm
    · rw [countOperation_catalog, countOperation_autoCreate] at happly
      rw [countOperation_runOn] at hon
      have hchanges : c.changesOver ∅ h op = v.changes := by
        have hempty : Pending.writesOf ∅ h.ns = ∅ := rfl
        rw [changesOver, hempty, hon]
      have hcollection := Catalog.collection_of_applyChanges happly ns
      have hperform : (c.perform .plain (.documents h op)).1.isOk = true := by
        show (c.runDocuments .plain h op).1.isOk = true
        rw [hok]
        rfl
      have hcat : (c.perform .plain (.documents h op)).2.stored ns =
          (((c.runDocuments .plain h op).2.catalog).collection ns).stored := rfl
      rw [hcat, hcollection, hperform, hchanges]
      by_cases hns : ns = h.ns
      · rw [if_pos hns, if_pos ⟨rfl, hns⟩, Collection.foldl_applyChange, hns]
        rfl
      · rw [if_neg hns, if_neg fun hboth => hns hboth.2]
        rfl
  · cases hopen

end Client

end ScopedStore
