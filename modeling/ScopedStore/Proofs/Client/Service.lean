import ScopedStore.Proofs.Client.Conservation
import ScopedStore.Proofs.Client.DisjointCommits
import ScopedStore.Proofs.Client.Unarmed

/-!
# Serving one transaction

A transaction gets a session, makes its calls with it and is concluded. What the calls reply is a function of
what is committed and of what the session has buffered (`Client.replyOver`). The session that was opened is the
only one that comes to run, and it runs no longer when the transaction is concluded (`Client.Starts`).
-/

namespace ScopedStore

namespace Catalog

theorem commit_of_insertions {cat : Catalog} {create : Bool} {ns : Namespace} {p : Pending} (hp : p.Valid)
    (helsewhere : ∀ ns', ns' ≠ ns → (p.writesOf ns').entries = [])
    (hindexes : ∀ i ∈ (cat.collection ns).indexes, i.isUniqueSecondary = false)
    (hplace : create = true ∨ (cat.collection? ns).isSome) (hstored : (cat.collection ns).Decodes)
    (hbuffered : Writes.Decode (p.writesOf ns).entries)
    (hfree : ∀ e ∈ (p.writesOf ns).entries, (cat.collection ns).stored.find? e.1 = none) :
    (cat.commit create p).1 = .ok () := by
  rw [commit_outcome cat create hp.sorted, checkPending_iff hp.sorted]
  intro ns'
  by_cases hns : ns' = ns
  · rw [hns]
    cases hc : cat.collection? ns with
    | none =>
      have hcreate : create = true := hplace.resolve_right (by simp [hc])
      rw [checkWrites, hc, hcreate]
      rfl
    | some c =>
      rw [collection_of_eq_some hc] at hindexes hstored hfree
      rw [checkWrites_eq_takenId? hc hindexes hstored hbuffered,
        takenId?_eq_none_iff.2 fun e he _ => hfree e he]
      rfl
  · exact checkWrites_of_empty cat create ns' (helsewhere ns' hns)

end Catalog

namespace Client

def Balances (c : Client) : Prop := Balanced c.stats.lifecycle c.sessions

/-- No session comes to run but these, and what is counted stays in agreement with the sessions. -/
structure Starts (started : SessionId → Prop) (c c' : Client) : Prop where
  autoCreate : c'.autoCreate = c.autoCreate
  running : ∀ id, c'.ended? id = some false → c.ended? id = some false ∨ started id
  balances : c.Balances → c'.Balances

variable {c c' c'' : Client} {id : SessionId} {s : Session} {t : OpenTransaction}
  {started : SessionId → Prop}

theorem Starts.refl (c : Client) : Starts started c c := ⟨rfl, fun _ => .inl, id⟩

theorem Starts.trans (h : Starts started c c') (h' : Starts started c' c'') : Starts started c c'' where
  autoCreate := h'.autoCreate.trans h.autoCreate
  running id hid := (h'.running id hid).elim (h.running id) .inr
  balances hc := h'.balances (h.balances hc)

theorem Starts.mono {started' : SessionId → Prop} (h : Starts started c c')
    (hmono : ∀ id, started id → started' id) : Starts started' c c' :=
  ⟨h.autoCreate, fun id hid => (h.running id hid).imp_right (hmono id), h.balances⟩

theorem Starts.of_lasts (hmoves : Moves c c') (hcreate : c'.autoCreate = c.autoCreate)
    (hlasts : Lasts c c') : Starts started c c' :=
  ⟨hcreate, fun id hid => .inl ((hlasts.ended id).symm.trans hid), hmoves.balanced⟩

theorem Reachable.balances (h : c.Reachable) : c.Balances := by
  obtain ⟨autoCreate, seed, events, -, rfl⟩ := h
  exact run_keeps (P := Balances) (fun c e => (c.moves_after e).balanced) ⟨rfl, rfl, rfl, Nat.le_refl _⟩
    events

theorem Balances.openSessions_eq_zero_iff (h : c.Balances) :
    c.stats.openSessions = 0 ↔ ∀ id, c.ended? id ≠ some false := by
  have hstarted : c.stats.sessionsStarted = c.sessions.length := h.started
  have hended : c.stats.sessionsEnded = c.sessions.countP Session.ended := h.ended
  have hle := List.countP_le_length (p := Session.ended) (l := c.sessions)
  have hall : c.stats.openSessions = 0 ↔ ∀ s ∈ c.sessions, s.ended = true := by
    rw [← List.countP_eq_length, Statistics.openSessions, hstarted, hended]
    omega
  rw [hall]
  constructor
  · intro hall id hrunning
    obtain ⟨s, hs, hfalse⟩ := Option.map_eq_some_iff.1 hrunning
    unfold session? at hs
    split at hs
    · cases hs
    · have htrue := hall s (List.mem_of_getElem? hs)
      rw [hfalse] at htrue
      cases htrue
  · intro hnone s hs
    obtain ⟨n, hn⟩ := List.getElem?_of_mem hs
    by_contra hrunning
    refine hnone ⟨n + 1⟩ ?_
    rw [ended?, session?, if_neg (Nat.succ_ne_zero n), Nat.add_sub_cancel, hn, Option.map_some,
      eq_false_of_ne_true hrunning]

/-! ## Opening a session -/

theorem starts_openSession {session : SessionOptions} {transaction : TransactionOptions}
    (hopen : c.openSession session transaction = (.ok id, c')) (halike : Alike c c') :
    Starts (· = id) c c' := by
  refine ⟨halike.autoCreate, fun id' hid => ?_, fun hc => ?_⟩
  · obtain ⟨-, ⟨e, herror, -⟩ | ⟨id₁, hid₁, -, hended⟩⟩ := c.openSession_opens session transaction
    · rw [hopen] at herror
      cases herror
    · rw [hopen] at hid₁ hended
      cases hid₁
      rw [hended] at hid
      split at hid
      · rename_i hsame
        exact .inr hsame
      · exact .inl hid
  · obtain ⟨-, hstart⟩ := c.startSession_starts session
    have hmoves := c.moves_startSession session
    unfold openSession at hopen
    generalize c.startSession session = begun at *
    obtain ⟨outcome, c₁⟩ := begun
    rcases hstart with ⟨e, rfl, -⟩ | ⟨id₁, rfl, -, hs, -⟩
    · cases hopen
    · have hmoves' := moves_startTransaction hs transaction
      dsimp only at hopen hmoves'
      generalize c₁.startTransaction id₁ transaction = opened at *
      obtain ⟨outcome, c₂⟩ := opened
      cases outcome with
      | error e => cases hopen
      | ok u =>
        cases hopen
        exact hmoves'.balanced (hmoves.balanced hc)

/-! ## Operations -/

def replyOver (c : Client) (p : Pending) (h : Handle) (op : DocumentOp) : Except StoreError Reply :=
  match op.check with
  | .error e => .error e
  | .ok () =>
    match c.runOn h (p.writesOf h.ns) op with
    | .error e => .error e
    | .ok (reply, v) =>
      if !c.autoCreate && !v.changes.isEmpty && (c.catalog.collection? h.ns).isNone then
        .error (.namespaceNotFound h.ns)
      else .ok reply

/-- The reply depends on what is committed and on the seed alone. -/
theorem replyOver_of_alike (h : Alike c c') (p : Pending) (handle : Handle) (op : DocumentOp) :
    c'.replyOver p handle op = c.replyOver p handle op := by
  unfold replyOver runOn
  rw [h.catalog, h.seed, h.autoCreate]

section Documents

variable {ns : Namespace} {p : Pending} {v : View}

theorem runOn_insertOne (hload : View.load c.catalog ns (p.writesOf ns) c.seed = .ok v) (d : Document) :
    c.runOn { ns := ns } (p.writesOf ns) (.insertOne d) =
      (v.insert d).map fun inserted => (.id inserted.1, inserted.2) := by
  rw [runOn, hload, ok_bind]
  unfold DocumentOp.run
  dsimp only
  cases v.insert d <;> rfl

theorem replyOver_insertOne (hload : View.load c.catalog ns (p.writesOf ns) c.seed = .ok v)
    (hindexes : ∀ i ∈ v.indexes, i.isUniqueSecondary = false)
    (hplace : c.autoCreate = true ∨ (c.catalog.collection? ns).isSome) {d : Document} {key : Value}
    (hkey : d.id? = some key) (hfree : v.docs.find? key = none) :
    c.replyOver p { ns := ns } (.insertOne d) = .ok (.id key) ∧
      c.changesOver p { ns := ns } (.insertOne d) = [(key, .insert d.encode)] := by
  have hunique (indexes : List Index) (hnone : ∀ i ∈ indexes, i.isUniqueSecondary = false) :
      v.checkUnique key d indexes = .ok () :=
    View.checkUnique_eq_ok_iff.2 fun i hi hsecondary => absurd hsecondary (by simp [hnone i hi])
  have hinsert : v.insert d = .ok (key, v.put key d) := by
    rw [View.insert, View.identify, hkey]
    dsimp only
    rw [SortedMap.contains_eq_false_iff.2 hfree, if_neg Bool.false_ne_true, hunique _ hindexes]
    rfl
  have hrun : c.runOn { ns := ns } (p.writesOf ns) (.insertOne d) = .ok (.id key, v.put key d) := by
    rw [runOn_insertOne hload, hinsert]
    rfl
  have hloaded : v.touched = ∅ ∧ v.base = v.docs := by
    obtain ⟨loaded, docs, -, -, rfl⟩ := View.load_eq_ok_iff.1 hload
    exact ⟨rfl, rfl⟩
  have hchanges : (v.put key d).changes = [(key, .insert d.encode)] := by
    have hchange : (v.put key d).change? key = some (.insert d.encode) := by
      rw [View.change?, View.put, SortedMap.find?_insert_self]
      dsimp only
      rw [hloaded.2, SortedMap.contains_eq_false_iff.2 hfree]
    have hkeys : (v.put key d).touched.keys = [key] := by
      rw [View.put, hloaded.1]
      rfl
    rw [View.changes, hkeys, List.filterMap_cons, hchange]
    rfl
  refine ⟨?_, by rw [changesOver, hrun]; exact hchanges⟩
  rw [replyOver, hrun]
  dsimp only [DocumentOp.check]
  rw [if_neg]
  rcases hplace with hcreate | hsome
  · simp [hcreate]
  · simp [Option.isNone_eq_false_iff.2 hsome]

theorem replyOver_insertOne_of_taken {d : Document} {key : Value} (hkey : d.id? = some key)
    (htaken : ∀ v, View.load c.catalog ns (p.writesOf ns) c.seed = .ok v → v.docs.contains key = true) :
    ∃ e, c.replyOver p { ns := ns } (.insertOne d) = .error e := by
  have hrun : ∃ e, c.runOn { ns := ns } (p.writesOf ns) (.insertOne d) = .error e := by
    cases hload : View.load c.catalog ns (p.writesOf ns) c.seed with
    | error e => exact ⟨e, by rw [runOn, hload]; rfl⟩
    | ok v =>
      refine ⟨.duplicateKey v.ns Index.idName [key], ?_⟩
      have hinsert : v.insert d = .error (.duplicateKey v.ns Index.idName [key]) := by
        rw [View.insert, View.identify, hkey]
        exact if_pos (htaken v hload)
      rw [runOn_insertOne hload, hinsert]
      rfl
  obtain ⟨e, herror⟩ := hrun
  exact ⟨e, by rw [replyOver, herror]; rfl⟩

theorem replyOver_insertOne_of_stored {d : Document} {key : Value} (hkey : d.id? = some key)
    (hstored : (c.stored ns).contains key = true) :
    ∃ e, c.replyOver ∅ { ns := ns } (.insertOne d) = .error e := by
  refine replyOver_insertOne_of_taken hkey fun v hload => ?_
  obtain ⟨hdecodes, -⟩ := View.load_isOk_iff.1 ⟨v, hload⟩
  have hshown : v.docs.find? key = (c.catalog.collection ns).document? key :=
    congrFun (View.find?_of_load SortedMap.sorted_empty hload) key
  obtain ⟨bytes, hbytes⟩ := SortedMap.contains_iff.1 hstored
  rw [SortedMap.contains_iff, hshown]
  cases hdocument : (c.catalog.collection ns).document? key with
  | some d => exact ⟨d, rfl⟩
  | none => cases (Collection.find?_eq_none_of_document? hdecodes hdocument).symm.trans hbytes

theorem replyOver_count (hload : View.load c.catalog ns (p.writesOf ns) c.seed = .ok v) (f : Filter) :
    c.replyOver p { ns := ns } (.count f) = .ok (.count (v.matching f).length) ∧
      c.changesOver p { ns := ns } (.count f) = [] := by
  have hrun : c.runOn { ns := ns } (p.writesOf ns) (.count f) = .ok (.count (v.matching f).length, v) := by
    rw [runOn, hload]
    rfl
  have hchanges : v.changes = [] := by
    obtain ⟨loaded, docs, -, -, rfl⟩ := View.load_eq_ok_iff.1 hload
    rfl
  refine ⟨?_, by rw [changesOver, hrun]; exact hchanges⟩
  rw [replyOver, hrun]
  dsimp only [DocumentOp.check]
  rw [hchanges, if_neg (by simp)]

theorem perform_plain_count (hload : View.load c.catalog ns ∅ c.seed = .ok v) (f : Filter) :
    (c.perform .plain (.documents { ns := ns } (.count f))).1 = .ok (.count (v.matching f).length) := by
  have hchanges : v.changes = [] := by
    obtain ⟨loaded, docs, -, -, rfl⟩ := View.load_eq_ok_iff.1 hload
    rfl
  have hrun : c.runOn { ns := ns } ∅ (.count f) = .ok (.count (v.matching f).length, v) := by
    rw [runOn, hload]
    rfl
  show (c.runDocuments .plain { ns := ns } (.count f)).1 = _
  rw [runDocuments_plain c { ns := ns } rfl, runDirect, countOperation_runOn, hrun]
  dsimp only
  rw [hchanges]
  rfl

end Documents

/-- An operation in an open transaction replies so, commits nothing and starts nothing. -/
theorem perform_in_transaction (hs : c.session? id = some s) (hended : s.ended = false)
    (ht : s.transaction = some t) (h : Handle) (op : DocumentOp) :
    let performed := c.perform (.session id) (.documents h op)
    performed.1 = c.replyOver t.pending h op ∧ performed.2.catalog = c.catalog ∧
      Starts started c performed.2 := by
  intro performed
  have hopen : c.transactionOf? (.session id) = some (id, s, t) :=
    transactionOf?_eq_some_iff.2 ⟨rfl, hs, hended, ht⟩
  have hperformed : performed = c.runDocuments (.session id) h op := rfl
  have hframe : performed.1 = c.replyOver t.pending h op ∧ performed.2.catalog = c.catalog ∧
      performed.2.autoCreate = c.autoCreate := by
    rw [hperformed]
    cases hcheck : op.check with
    | error e =>
      rw [runDocuments, replyOver, hcheck]
      exact ⟨rfl, rfl, rfl⟩
    | ok u =>
      rw [runDocuments_session hopen h hcheck, replyOver, hcheck]
      refine ⟨?_, ?_, ?_⟩
      · rw [runBuffered, countOperation_runOn]
        dsimp only
        cases c.runOn h (t.pending.writesOf h.ns) op with
        | error e => rfl
        | ok result =>
          obtain ⟨reply, v⟩ := result
          dsimp only
          rw [countOperation_catalog, countOperation_autoCreate]
          split <;> rfl
      · have hcases := runBuffered_cases
          (Prod.eta ((c.countOperation (.session id)).runBuffered id s t h op)).symm
        rw [hcases.1, countOperation_catalog]
      · rw [runBuffered_autoCreate, countOperation_autoCreate]
  exact ⟨hframe.1, hframe.2.1, .of_lasts (c.moves_perform _ _) hframe.2.2 (c.lasts_perform _ _)⟩

/-! ## Concluding -/

theorem starts_endSession (hs : c.session? id = some s) (hended : s.ended = false) :
    Starts (fun _ => False) c (c.endSession id) ∧ (c.endSession id).ended? id = some true := by
  have hrunning : c.ended? id = some false := by rw [ended?, hs, Option.map_some, hended]
  obtain ⟨-, hends⟩ := endSession_ends hrunning
  refine ⟨⟨?_, fun id' hid => ?_, (moves_endSession hs).balanced⟩, by rw [hends, if_pos rfl]⟩
  · unfold endSession
    dsimp only
    split <;> rfl
  · rw [hends] at hid
    split at hid
    · cases hid
    · exact .inl hid

theorem Unarmed.settles (h : c.Unarmed) (hs : c.session? id = some s) (ht : s.transaction = some t)
    (commits : Bool) :
    let settled := if commits then c.commitTransaction id else c.abortTransaction id
    Starts (fun _ => False) c settled.2 ∧ settled.2.ended? id = c.ended? id ∧
      settled.2.catalog = if commits then (c.catalog.commit c.autoCreate t.pending).2 else c.catalog := by
  cases commits with
  | true =>
    have hlasts := lasts_commitTransaction hs
    have hsettled := commitTransaction_eq_settled hs ht (h .commit)
    refine ⟨.of_lasts (moves_commitTransaction hs) ?_ hlasts, hlasts.ended id, ?_⟩ <;>
      · rw [if_pos rfl, hsettled]
        cases (c.catalog.commit c.autoCreate t.pending).1 <;> rfl
  | false =>
    have hlasts := lasts_abortTransaction hs
    have hcreate : (c.abortTransaction id).2.autoCreate = c.autoCreate := by
      unfold Client.abortTransaction
      dsimp only
      split
      · rfl
      · rw [takeFault_of_unarmed (h .abort)]
        rfl
    exact ⟨.of_lasts (moves_abortTransaction hs) hcreate hlasts, hlasts.ended id,
      (abortTransaction_cases hs).1⟩

theorem Unarmed.concludes (h : c.Unarmed) (hs : c.session? id = some s) (hended : s.ended = false)
    (ht : s.transaction = some t) (commits : Bool) :
    let concluded := c.conclude id commits
    Starts (fun _ => False) c concluded.2 ∧ concluded.2.ended? id = some true ∧
      concluded.2.catalog = if commits then (c.catalog.commit c.autoCreate t.pending).2 else c.catalog := by
  obtain ⟨hstarts, hlasts, hcatalog⟩ := h.settles hs ht commits
  have hrunning : c.ended? id = some false := by rw [ended?, hs, Option.map_some, hended]
  obtain ⟨s', hs', hended'⟩ := Option.map_eq_some_iff.1 (hlasts.trans hrunning)
  obtain ⟨hends, hend⟩ := starts_endSession hs' hended'
  exact ⟨hstarts.trans hends, hend, (endSession_eq hs').1.trans hcatalog⟩

end Client

end ScopedStore
