import ScopedStore.Proofs.Client.Conservation

/-!
# Sessions without a transaction

A caller is idle who is nobody, or a live session without an open transaction. What an idle caller asks for
is served outside of every transaction, by a program that depends on the request alone and neither looks at
the statistics nor changes them (`exists_served`). So a session that is idle gets what a plain caller gets and
leaves what a plain caller leaves, but for the counter that goes up, in one request and in any number of them
(`idle_session_transparent`).
-/

namespace ScopedStore

/-- What is refused before the client counts the request. -/
def Request.check : Request → Except StoreError Unit
  | .documents _ op => op.check
  | _ => .ok ()

/-- The statistics differ at most in how the operations are divided between those with and without a
session. -/
structure Statistics.Redivided (s s' : Statistics) : Prop where
  rest : s' = { s with plainOperations := s'.plainOperations, sessionOperations := s'.sessionOperations }
  total : s'.plainOperations + s'.sessionOperations = s.plainOperations + s.sessionOperations

namespace Client

variable {c c' : Client} {caller : Caller} {id : SessionId} {s : Session} {stats : Statistics}
  {act : Client → Except StoreError Reply × Client} {r : Request}

/-- Callers that work in no transaction. -/
inductive Idle (c : Client) : Caller → Prop
  | plain : Idle c .plain
  | session {id : SessionId} {s : Session} (hs : c.session? id = some s) (hlive : s.ended = false)
      (hclosed : s.transaction = none) : Idle c (.session id)

theorem Idle.of_eq (h : c.Idle caller) (hsessions : c'.sessions = c.sessions) : c'.Idle caller := by
  cases h with
  | plain => exact .plain
  | session hs hlive hclosed =>
    exact .session ((session?_of_eq hsessions _).trans hs) hlive hclosed

theorem Idle.exists_lock (h : c.Idle caller) :
    ∃ locked, c.lock caller = .ok locked ∧ openTransaction locked = none := by
  cases h with
  | plain => exact ⟨none, rfl, rfl⟩
  | @session id s hs hlive hclosed =>
    refine ⟨some (id, s), lock_of_session hs hlive, ?_⟩
    show s.transaction.map (fun t => (id, s, t)) = none
    rw [hclosed]
    rfl

theorem Idle.transactionOf?_eq_none (h : c.Idle caller) : c.transactionOf? caller = none := by
  obtain ⟨locked, hlock, hnone⟩ := h.exists_lock
  rw [transactionOf?, hlock]
  exact hnone

/-! ## What does not depend on the statistics -/

def withStats (c : Client) (stats : Statistics) : Client := { c with stats := stats }

theorem withStats_countOperation (c : Client) (caller : Caller) :
    c.withStats (c.countOperation caller).stats = c.countOperation caller := by
  cases caller <;> rfl

/-- A program that neither looks at the statistics nor changes them. -/
def Uncounted (act : Client → Except StoreError Reply × Client) : Prop :=
  ∀ c stats, act (c.withStats stats) = ((act c).1, (act c).2.withStats stats)

theorem uncounted_runDirect (h : Handle) (op : DocumentOp) : Uncounted fun c => c.runDirect h op := by
  intro c stats
  have hon : (c.withStats stats).runOn h ∅ op = c.runOn h ∅ op := rfl
  simp only [runDirect, hon]
  cases c.runOn h ∅ op with
  | error e => rfl
  | ok ran =>
    have happly : (c.withStats stats).catalog.applyChanges h.ns ran.2.changes (c.withStats stats).autoCreate =
        c.catalog.applyChanges h.ns ran.2.changes c.autoCreate := rfl
    simp only [happly]
    cases c.catalog.applyChanges h.ns ran.2.changes c.autoCreate <;> rfl

theorem uncounted_dropIndex (ns : Namespace) (name : String) : Uncounted fun c => c.dropIndex ns name := by
  intro c stats
  have hcollection : (c.withStats stats).catalog.collection? ns = c.catalog.collection? ns := rfl
  simp only [dropIndex, hcollection]
  cases c.catalog.collection? ns with
  | none => rfl
  | some collection =>
    simp only
    cases collection.removeIndex name <;> rfl

theorem uncounted_takeCatalog (change : Catalog → Except StoreError Catalog) :
    Uncounted fun c => c.takeCatalog (change c.catalog) := by
  intro c stats
  have hchange : change (c.withStats stats).catalog = change c.catalog := rfl
  simp only [hchange]
  cases change c.catalog <;> rfl

def indexPlainly (ns : Namespace) (i : Index) (c : Client) : Except StoreError Reply × Client :=
  if i.keys.isEmpty then (.error (.invalidArgument .noIndexKey), c)
  else
    let collection := (c.catalog.collection? ns).getD {}
    let c := { c with catalog := c.catalog.put ns collection }
    match collection.addIndex ns i ∅ with
    | .error e => (.error e, c)
    | .ok (name, collection) => (.ok (.name name), { c with catalog := c.catalog.put ns collection })

theorem uncounted_indexPlainly (ns : Namespace) (i : Index) : Uncounted (indexPlainly ns i) := by
  intro c stats
  have hcollection : (c.withStats stats).catalog.collection? ns = c.catalog.collection? ns := rfl
  unfold indexPlainly
  rw [hcollection]
  split
  · rfl
  · dsimp only
    split <;> rfl

/-! ## One request of an idle caller -/

theorem runDocuments_of_idle (h : c.Idle caller) (handle : Handle) {op : DocumentOp}
    (hcheck : op.check = .ok ()) :
    c.runDocuments caller handle op = (c.countOperation caller).runDirect handle op := by
  obtain ⟨locked, hlock, hnone⟩ := h.exists_lock
  rw [runDocuments, hcheck]
  dsimp only
  rw [countOperation_lock, hlock]
  dsimp only
  rw [hnone]

theorem createIndex_of_idle (h : c.Idle caller) (ns : Namespace) (i : Index) :
    c.createIndex caller ns i = indexPlainly ns i (c.countOperation caller) := by
  obtain ⟨locked, hlock, hnone⟩ := h.exists_lock
  rw [createIndex, hlock]
  dsimp only
  rw [hnone]
  rfl

theorem command_of_idle (h : c.Idle caller) (name : String) (inTransaction : Bool)
    (act : Client → Except StoreError Reply × Client) :
    c.command caller name inTransaction act = act (c.countOperation caller) := by
  obtain ⟨locked, hlock, hnone⟩ := h.exists_lock
  rw [command, checkCommand, hlock, ok_bind, hnone]
  rfl

theorem exists_served (hcheck : r.check = .ok ()) :
    ∃ act, Uncounted act ∧ ∀ (c : Client) (caller : Caller), c.Idle caller →
      c.perform caller r = ((act c).1, (act c).2.withStats (c.countOperation caller).stats) := by
  have hserved {act : Client → Except StoreError Reply × Client} (hact : Uncounted act)
      (hperform : ∀ (c : Client) caller, c.Idle caller → c.perform caller r = act (c.countOperation caller)) :
      ∃ act, Uncounted act ∧ ∀ (c : Client) (caller : Caller), c.Idle caller →
        c.perform caller r = ((act c).1, (act c).2.withStats (c.countOperation caller).stats) := by
    refine ⟨act, hact, fun c caller h => ?_⟩
    rw [hperform c caller h, ← withStats_countOperation, hact]
    rfl
  have hcommand {name : String} {inTransaction : Bool} {act : Client → Except StoreError Reply × Client}
      (hact : Uncounted act)
      (hperform : ∀ (c : Client) caller, c.perform caller r = c.command caller name inTransaction act) :=
    hserved hact fun c caller h => (hperform c caller).trans (command_of_idle h name inTransaction act)
  cases r with
  | documents handle op =>
    exact hserved (uncounted_runDirect handle op) fun _ _ h => runDocuments_of_idle h handle hcheck
  | createIndex ns i => exact hserved (uncounted_indexPlainly ns i) fun _ _ h => createIndex_of_idle h ns i
  | dropIndex ns name => exact hcommand (uncounted_dropIndex ns name) fun _ _ => rfl
  | listIndexes ns =>
    have hact : Uncounted fun c => (c.listIndexes ns, c) := fun _ _ => rfl
    exact hcommand hact fun _ _ => rfl
  | listDatabases =>
    have hact : Uncounted fun c => (.ok (.names c.catalog.databaseNames), c) := fun _ _ => rfl
    exact hcommand hact fun _ _ => rfl
  | listCollections database =>
    have hact : Uncounted fun c => (.ok (.names (c.catalog.collectionNames database)), c) :=
      fun _ _ => rfl
    exact hcommand hact fun _ _ => rfl
  | dropDatabase name =>
    exact hcommand (uncounted_takeCatalog fun cat => .ok (cat.dropDatabase name)) fun _ _ => rfl
  | createCollection ns =>
    exact hcommand (uncounted_takeCatalog fun cat => cat.createCollection ns) fun _ _ => rfl
  | dropCollection ns =>
    exact hcommand (uncounted_takeCatalog fun cat => .ok (cat.dropCollection ns)) fun _ _ => rfl
  | renameCollection source name =>
    exact hcommand (uncounted_takeCatalog fun cat => cat.renameCollection source name) fun _ _ => rfl

theorem perform_of_refused {e : StoreError} (hcheck : r.check = .error e) (c : Client) (caller : Caller) :
    c.perform caller r = (.error e, c) := by
  cases r with
  | documents handle op =>
    show c.runDocuments caller handle op = _
    rw [runDocuments, show op.check = .error e from hcheck]
  | _ => cases hcheck

theorem perform_of_idle (hstats : c.stats.Redivided stats) (h : c.Idle caller) (r : Request) :
    ∃ stats', (c.perform .plain r).2.stats.Redivided stats' ∧
      (c.withStats stats).perform caller r =
        ((c.perform .plain r).1, (c.perform .plain r).2.withStats stats') := by
  cases hcheck : r.check with
  | error e =>
    rw [perform_of_refused hcheck, perform_of_refused hcheck]
    exact ⟨stats, hstats, rfl⟩
  | ok _ =>
    obtain ⟨act, hact, hserved⟩ := exists_served hcheck
    have hidle : (c.withStats stats).Idle caller := h.of_eq rfl
    refine ⟨((c.withStats stats).countOperation caller).stats, ?_, ?_⟩
    · rw [hserved c .plain .plain]
      obtain ⟨hrest, htotal⟩ := hstats
      show (c.countOperation .plain).stats.Redivided _
      rw [withStats, hrest]
      cases caller with
      | plain => exact ⟨rfl, by simp only [countOperation]; omega⟩
      | session id | stranger => exact ⟨rfl, by simp only [countOperation]; omega⟩
    · rw [hserved _ _ hidle, hserved c .plain .plain, hact]
      rfl

/-! ## Any number of requests -/

/-- Makes requests one after the other and collects the replies. -/
def performAll (c : Client) : List (Caller × Request) → List (Except StoreError Reply) × Client
  | [] => ([], c)
  | (caller, r) :: rest =>
    let (reply, c) := c.perform caller r
    let (replies, c) := c.performAll rest
    (reply :: replies, c)

def plainly (calls : List (Caller × Request)) : List (Caller × Request) :=
  calls.map fun call => (.plain, call.2)

theorem performAll_plainly_sessions (c : Client) (calls : List (Caller × Request)) :
    (c.performAll (plainly calls)).2.sessions = c.sessions := by
  induction calls generalizing c with
  | nil => rfl
  | cons call rest ih => exact (ih _).trans (perform_plain_sessions c call.2)

theorem performAll_of_idle (hstats : c.stats.Redivided stats) {calls : List (Caller × Request)}
    (hidle : ∀ call ∈ calls, c.Idle call.1) :
    ∃ stats', (c.performAll (plainly calls)).2.stats.Redivided stats' ∧
      (c.withStats stats).performAll calls =
        ((c.performAll (plainly calls)).1, (c.performAll (plainly calls)).2.withStats stats') := by
  induction calls generalizing c stats with
  | nil => exact ⟨stats, hstats, rfl⟩
  | cons call rest ih =>
    obtain ⟨caller, r⟩ := call
    obtain ⟨stats₁, hstats₁, hfirst⟩ := perform_of_idle hstats (hidle _ List.mem_cons_self) r
    have hrest (call : Caller × Request) (hcall : call ∈ rest) : (c.perform .plain r).2.Idle call.1 :=
      (hidle call (List.mem_cons_of_mem _ hcall)).of_eq (perform_plain_sessions c r)
    obtain ⟨stats', hstats', hlater⟩ := ih hstats₁ hrest
    refine ⟨stats', hstats', ?_⟩
    rw [performAll, hfirst]
    dsimp only
    rw [hlater]
    rfl

/-- A live session without an open transaction is transparent. Each request with it gets the reply of the plain
request and leaves the client that the plain request leaves, but for the counter of the operations that goes
up by one, unless the request is refused before it is counted; the session has no transaction afterwards, and
no buffered writes. So requests of idle callers, one after the other, are answered as if all of them were
plain. -/
theorem idle_session_transparent (c : Client) :
    (∀ id s, c.session? id = some s → s.ended = false → s.transaction = none → ∀ r : Request,
      let plain := c.perform .plain r
      let bound := c.perform (.session id) r
      let counted := if r.check.isOk then 1 else 0
      bound.1 = plain.1 ∧
        bound.2 = { plain.2 with
          stats := { c.stats with sessionOperations := c.stats.sessionOperations + counted } } ∧
        plain.2.stats = { c.stats with plainOperations := c.stats.plainOperations + counted } ∧
        bound.2.session? id = some s ∧ ∀ ns, bound.2.writesOf (.session id) ns = ∅) ∧
      ∀ calls : List (Caller × Request), (∀ call ∈ calls, c.Idle call.1) →
        (c.performAll calls).1 = (c.performAll (plainly calls)).1 ∧
          (c.performAll calls).2.sessions = c.sessions ∧
          ∃ stats, (c.performAll (plainly calls)).2.stats.Redivided stats ∧
            (c.performAll calls).2 = (c.performAll (plainly calls)).2.withStats stats := by
  constructor
  · intro id s hs hlive hclosed r plain bound counted
    have hidle : c.Idle (.session id) := .session hs hlive hclosed
    have hsessions : bound.2.sessions = plain.2.sessions ∧ bound.1 = plain.1 ∧
        bound.2 = { plain.2 with
          stats := { c.stats with sessionOperations := c.stats.sessionOperations + counted } } ∧
        plain.2.stats = { c.stats with plainOperations := c.stats.plainOperations + counted } := by
      simp only [bound, plain, counted]
      cases hcheck : r.check with
      | error e =>
        rw [perform_of_refused hcheck, perform_of_refused hcheck]
        exact ⟨rfl, rfl, rfl, rfl⟩
      | ok _ =>
        obtain ⟨act, -, hserved⟩ := exists_served hcheck
        rw [hserved c _ hidle, hserved c _ .plain]
        exact ⟨rfl, rfl, rfl, rfl⟩
    obtain ⟨hsessions, hreply, hleft, hcounted⟩ := hsessions
    have hkept : bound.2.sessions = c.sessions := hsessions.trans (perform_plain_sessions c r)
    exact ⟨hreply, hleft, hcounted, (session?_of_eq hkept id).trans hs,
      writesOf_eq_empty (hidle.of_eq hkept).transactionOf?_eq_none⟩
  · intro calls hidle
    have hredivided : c.stats.Redivided c.stats := ⟨rfl, rfl⟩
    obtain ⟨stats, hstats, hall⟩ := performAll_of_idle hredivided hidle
    have hsame : c.performAll calls = _ := hall
    rw [hsame]
    exact ⟨rfl, performAll_plainly_sessions c calls, stats, hstats, rfl⟩

/-- An entry is inserted twice, and then the database of the ledger is dropped. -/
def idleCalls : List (Caller × Request) :=
  [(.session ⟨2⟩, .documents { ns := ledger } (.insertOne (entry 5 50))),
    (.plain, .documents { ns := ledger } (.insertOne (entry 5 50))),
    (.session ⟨2⟩, .dropDatabase ledger.database)]

theorem idle_session_transparent_rivals :
    let r := Request.documents { ns := ledger } (.insertOne (entry 5 50))
    rivals.session? ⟨2⟩ = some {} ∧ (rivals.perform .plain r).1 = .ok (.id (.integer 5)) ∧
      (rivals.perform (.session ⟨2⟩) r).1 = .ok (.id (.integer 5)) ∧
      (rivals.perform (.session ⟨2⟩) r).2.session? ⟨2⟩ = some {} ∧
      (∀ call ∈ idleCalls, rivals.Idle call.1) ∧
      (rivals.performAll idleCalls).1 =
        [.ok (.id (.integer 5)), .error (.duplicateKey ledger "_id_" [.integer 5]), .ok .done] := by
  intro r
  have hsession : rivals.session? ⟨2⟩ = some {} := by decide +kernel
  have hplain : (rivals.perform .plain r).1 = .ok (.id (.integer 5)) := by rfl
  have hidle (call : Caller × Request) (hcall : call ∈ idleCalls) : rivals.Idle call.1 := by
    simp only [idleCalls, List.mem_cons, List.not_mem_nil, or_false] at hcall
    rcases hcall with rfl | rfl | rfl
    · exact .session hsession rfl rfl
    · exact .plain
    · exact .session hsession rfl rfl
  obtain ⟨hone, hmany⟩ := idle_session_transparent rivals
  obtain ⟨hreply, -, -, hkept, -⟩ := hone ⟨2⟩ {} hsession rfl rfl r
  refine ⟨hsession, hplain, hreply.trans hplain, hkept, hidle, ?_⟩
  rw [(hmany idleCalls hidle).1]
  rfl

end Client

end ScopedStore
