import ScopedStore.Proofs.Client.Commit
import ScopedStore.Proofs.Client.Uniqueness
import ScopedStore.Proofs.Store.Buffered

/-!
# A session beside a plain caller

One client carries out operations on documents plainly, the other in the open transaction of a session.
As long as everything that is stored can be read, each operation gives both the same outcome
(`Mirrors.perform`), and at the end the session's commit succeeds and shows everyone what the first
client shows (`Mirrors.commit`).
-/

namespace ScopedStore

namespace Client

/-- The open transaction of a session has buffered what is applied in the other client. -/
structure Mirrors (c : Client) (id : SessionId) (direct : Client) : Prop where
  autoCreate : direct.autoCreate = c.autoCreate
  seed : direct.seed = c.seed
  buffers : ∃ s t, c.transactionOf? (.session id) = some (id, s, t) ∧
    Buffers c.autoCreate c.catalog t.pending direct.catalog

variable {c direct : Client} {id : SessionId} {s : Session} {t : OpenTransaction}
  {handle : Handle} {op : DocumentOp}

theorem Mirrors.countOperation (h : c.Mirrors id direct) (caller caller' : Caller) :
    (c.countOperation caller).Mirrors id (direct.countOperation caller') := by
  obtain ⟨hcreate, hseed, s, t, hopen, hbuffers⟩ := h
  refine ⟨by simpa using hcreate, by simpa using hseed, s, t, ?_, by simpa using hbuffers⟩
  rw [transactionOf?, countOperation_lock]
  exact hopen

theorem Mirrors.runOn_eq (h : c.Mirrors id direct) (hc : c.Valid) (hdirect : direct.Valid)
    (hopen : c.transactionOf? (.session id) = some (id, s, t))
    (hstored : (direct.catalog.collection handle.ns).Decodes) :
    c.runOn handle (t.pending.writesOf handle.ns) op = direct.runOn handle ∅ op := by
  obtain ⟨-, hseed, s', t', hopen', hbuffers⟩ := h
  cases hopen.symm.trans hopen'
  obtain ⟨v, hload, hload'⟩ := hbuffers.load_eq hc.catalog hdirect.catalog handle.ns hstored c.seed
  rw [runOn, runOn, hload, hseed, hload']

theorem Mirrors.runBuffered (h : c.Mirrors id direct) (hc : c.Valid) (hdirect : direct.Valid)
    (hopen : c.transactionOf? (.session id) = some (id, s, t)) (hnarrow : handle.narrow.Ordered)
    (hop : op.Ordered) (hstored : (direct.catalog.collection handle.ns).Decodes)
    (hdecodes : ((direct.runDirect handle op).2.catalog.collection handle.ns).Decodes) :
    (c.runBuffered id s t handle op).1 = (direct.runDirect handle op).1 ∧
      (c.runBuffered id s t handle op).2.Mirrors id (direct.runDirect handle op).2 := by
  have hrun : c.runOn handle (t.pending.writesOf handle.ns) op = direct.runOn handle ∅ op :=
    h.runOn_eq hc hdirect hopen hstored
  obtain ⟨hcreate, hseed, s', t', hopen', hbuffers⟩ := h
  cases hopen.symm.trans hopen'
  obtain ⟨-, hs, hended, ht⟩ := transactionOf?_eq_some_iff.1 hopen
  unfold Client.runBuffered
  unfold runDirect at hdecodes ⊢
  rw [hrun]
  cases hon : direct.runOn handle ∅ op with
  | error e => exact ⟨rfl, hcreate, hseed, s, t, hopen, hbuffers⟩
  | ok r =>
    obtain ⟨reply, v⟩ := r
    rw [hon] at hdecodes
    dsimp only at hdecodes ⊢
    rw [hcreate] at hdecodes ⊢
    rw [hbuffers.missing_eq]
    cases happly : direct.catalog.applyChanges handle.ns v.changes c.autoCreate with
    | error e =>
      obtain ⟨rfl, -⟩ := Catalog.applyChanges_eq_error happly
      exact ⟨rfl, rfl, rfl, s, t, hopen, hbuffers⟩
    | ok cat =>
      rw [happly] at hdecodes
      obtain ⟨v₀, hload, hrun'⟩ := runOn_eq_ok_iff.1 hon
      have hv₀ := View.valid_load (hdirect.catalog.collection handle.ns) validChanges_empty hload
      have hrecord := hbuffers.record hdirect.catalog hload (op.steps hnarrow hop hv₀ hrun') happly
        hdecodes
      exact ⟨rfl, rfl, rfl, s.buffer t handle.ns v.changes,
        { t with pending := t.pending.record handle.ns v.changes },
        transactionOf?_eq_some_iff.2 ⟨rfl, session?_setSession_self hs _, hended, rfl⟩, hrecord⟩

/-- An operation of the session gives the outcome that it gives plainly. -/
theorem Mirrors.perform (h : c.Mirrors id direct) (hc : c.Valid) (hdirect : direct.Valid)
    (hordered : (Request.documents handle op).Ordered)
    (hstored : ∀ ns, (direct.catalog.collection ns).Decodes)
    (hdecodes : ∀ ns,
      ((direct.perform .plain (.documents handle op)).2.catalog.collection ns).Decodes) :
    (c.perform (.session id) (.documents handle op)).1 =
        (direct.perform .plain (.documents handle op)).1 ∧
      (c.perform (.session id) (.documents handle op)).2.Mirrors id
        (direct.perform .plain (.documents handle op)).2 := by
  obtain ⟨s, t, hopen, -⟩ := h.buffers
  unfold Client.perform at hdecodes ⊢
  dsimp only at hdecodes ⊢
  cases hcheck : op.check with
  | error e =>
    unfold runDocuments
    rw [hcheck]
    exact ⟨rfl, h⟩
  | ok u =>
    rw [runDocuments_plain direct handle hcheck] at hdecodes ⊢
    rw [runDocuments_session hopen handle hcheck]
    have hc' : (c.countOperation (.session id)).Valid := hc.of_eq (by simp) (by simp)
    have hdirect' : (direct.countOperation .plain).Valid := hdirect.of_eq (by simp) (by simp)
    have hopen' : (c.countOperation (.session id)).transactionOf? (.session id) = some (id, s, t) := by
      rw [transactionOf?, countOperation_lock]
      exact hopen
    refine (h.countOperation _ _).runBuffered hc' hdirect' hopen' hordered.1 hordered.2 ?_
      (hdecodes handle.ns)
    rw [countOperation_catalog]
    exact hstored handle.ns

/-! ## Before the first operation and after the last -/

theorem mirrors_of_alike (h : Alike direct c) (hs : c.session? id = some s) (hended : s.ended = false)
    (ht : s.transaction = some t) (hempty : t.pending = ∅)
    (hstored : ∀ ns, (direct.catalog.collection ns).Decodes) : c.Mirrors id direct where
  autoCreate := h.autoCreate.symm
  seed := h.seed.symm
  buffers := by
    refine ⟨s, t, transactionOf?_eq_some_iff.2 ⟨rfl, hs, hended, ht⟩, ?_⟩
    rw [hempty, h.catalog]
    exact Buffers.refl _ hstored

theorem exists_mirrors (hc : c.Valid) (hstored : ∀ ns, (c.catalog.collection ns).Decodes)
    (hsession : c.faults.sessionStarts = 0) (htransaction : c.faults.transactionStarts = 0)
    (options : SessionOptions) (options' : TransactionOptions) :
    ∃ id c₁ c₂, c.startSession options = (.ok id, c₁) ∧
      c₁.startTransaction id options' = (.ok (), c₂) ∧ c₂.Valid ∧ c₂.faults = c.faults ∧
      c₂.Mirrors id c := by
  obtain ⟨id, c₁, hstart, halike, hs⟩ := startSession_of_unarmed hsession options
  rw [← halike.faults] at htransaction
  obtain ⟨c₂, options'', hopen, halike', hs'⟩ :=
    startTransaction_of_unarmed hs rfl rfl htransaction options'
  have hc₁ : c₁.Valid := by
    have hafter := hc.after (e := .startSession options) trivial
    rwa [after, hstart] at hafter
  have hc₂ : c₂.Valid := by
    have hafter := hc₁.after (e := .startTransaction id options') trivial
    rwa [after, onSession, hs, Option.isSome_some, if_pos rfl, hopen] at hafter
  have hboth := halike.trans halike'
  exact ⟨id, c₁, c₂, hstart, hopen, hc₂, hboth.faults, mirrors_of_alike hboth hs' rfl rfl rfl hstored⟩

/-- The session's commit succeeds and makes what the other client shows what everyone sees. -/
theorem Mirrors.commit (h : c.Mirrors id direct) (hc : c.Valid) (hdirect : direct.Valid)
    (hstored : ∀ ns, (direct.catalog.collection ns).Decodes) (hunique : direct.catalog.UniqueHeld)
    (hunarmed : c.faults.commits = 0) :
    (c.commitTransaction id).1 = .ok () ∧ ∀ ns, ∃ v, direct.viewOf .plain ns = .ok v ∧
      ((c.commitTransaction id).2.endSession id).viewOf .plain ns = .ok v := by
  obtain ⟨-, hseed, s, t, hopen, hbuffers⟩ := h
  obtain ⟨-, hs, -, ht⟩ := transactionOf?_eq_some_iff.1 hopen
  have hdecode (ns : Namespace) : (c.catalog.collection ns).Decodes ∧
      Writes.Decode (t.pending.writesOf ns).entries := ⟨hbuffers.stored ns, hbuffers.decode ns⟩
  have hok : (c.commitTransaction id).1 = .ok () :=
    (commitTransaction_eq_ok_iff hc hs ht hdecode hunarmed).2 fun ns =>
      hbuffers.accepts (hunique.collection ns)
  have hclosed : (c.commitTransaction id).2.session? id = some { s with transaction := none } := by
    rw [session?_of_eq (commitTransaction_of_unarmed hs ht hunarmed).2.2.1,
      session?_setSession_self hs]
  obtain ⟨hcatalog, -, hseed'⟩ := endSession_eq hclosed
  refine ⟨hok, fun ns => ?_⟩
  obtain ⟨v, hload, hload'⟩ :=
    hbuffers.load_eq hc.catalog hdirect.catalog ns (hstored ns) c.seed
  have hview : c.viewOf (.session id) ns = .ok v := (viewOf_session hc hs ht ns).trans hload
  refine ⟨v, by rw [viewOf_plain, hseed, hload'], ?_⟩
  rw [viewOf_plain, hcatalog, hseed', ← viewOf_plain]
  exact viewOf_of_committed hc hs ht hunarmed hok hview

theorem decodes_of_perform {ns : Namespace}
    (h : ((c.perform .plain (.documents handle op)).2.catalog.collection ns).Decodes) :
    (c.catalog.collection ns).Decodes := by
  unfold Client.perform at h
  rcases runDocuments_cases (Prod.eta (c.runDocuments .plain handle op)).symm with
    ⟨hcatalog, -, -⟩ | ⟨-, hrun⟩ | ⟨_, _, _, hopen, -⟩
  · rwa [hcatalog] at h
  · obtain ⟨-, ⟨hcatalog, -⟩ | ⟨reply, v, -, hon, happly⟩⟩ := runDirect_cases hrun
    · rwa [hcatalog, countOperation_catalog] at h
    · rw [countOperation_runOn] at hon
      rw [countOperation_catalog] at happly
      rw [Catalog.collection_of_applyChanges happly] at h
      split at h
      · rename_i hns
        obtain ⟨v₀, hload, -⟩ := runOn_eq_ok_iff.1 hon
        rw [hns]
        exact (View.load_isOk_iff.1 ⟨v₀, hload⟩).1
      · exact h
  · exact absurd (transactionOf?_eq_some_iff.1 hopen).1 nofun

end Client

end ScopedStore
