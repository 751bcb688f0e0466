import ScopedStore.Proofs.Client.Representation

/-!
# Commits of disjoint writes

Two transactions that have no identifier in common, on collections without a unique secondary index,
may be committed in either order: each commit has the same outcome as the first and as the second of
the two, and the client is the same after both (`commits_commute`).

What a commit checks of a namespace depends on the collection being there and on the identifiers that
it inserts being free. The other commit binds none of these identifiers, and makes a collection only
where the first may make it too (`checkWrites_of_apart`). What two commits leave is compared
collection by collection, which is enough because the catalogs are tidy.
-/

namespace ScopedStore

/-! ## Revising different keys -/

namespace SortedMap

universe u v w

variable {κ : Type u} {α : Type v} {β : Type w} [Ord κ] [Std.LawfulEqOrd κ] [Std.TransOrd κ]

theorem Sorted.reviseAll_comm {m : SortedMap κ α} (h : m.Sorted) (f : Option α → β → Option α)
    {l₁ l₂ : List (κ × β)} (hl₁ : (mk l₁).Sorted) (hl₂ : (mk l₂).Sorted)
    (hapart : ∀ k, findIn? k l₁ = none ∨ findIn? k l₂ = none) :
    (m.reviseAll f l₁).reviseAll f l₂ = (m.reviseAll f l₂).reviseAll f l₁ := by
  refine ext_find? ((h.reviseAll f l₁).reviseAll f l₂) ((h.reviseAll f l₂).reviseAll f l₁)
    fun k => ?_
  rw [find?_reviseAll f _ hl₂, find?_reviseAll f _ hl₁, find?_reviseAll f _ hl₁,
    find?_reviseAll f _ hl₂]
  rcases hapart k with hk | hk <;> rw [hk] <;> rfl

end SortedMap

/-- No identifier of a namespace is written by both. -/
def Pending.Apart (p q : Pending) : Prop :=
  ∀ ns id, (p.writesOf ns).find? id = none ∨ (q.writesOf ns).find? id = none

theorem Pending.Apart.symm {p q : Pending} (h : p.Apart q) : q.Apart p :=
  fun ns id => (h ns id).symm

theorem Pending.apart_of_entries {p q : Pending}
    (h : ∀ e ∈ p.entries, ∀ x ∈ e.2.entries, (q.writesOf e.1).find? x.1 = none) : p.Apart q := by
  intro ns id
  rw [Pending.writesOf]
  cases hwrites : p.find? ns with
  | none => exact .inl rfl
  | some writes =>
    cases hw : writes.find? id with
    | none => exact .inl hw
    | some w => exact .inr (h _ (SortedMap.mem_of_find? hwrites) _ (SortedMap.mem_of_find? hw))

namespace Catalog

variable {cat cat' : Catalog} {create : Bool} {ns : Namespace} {w w' : Writes} {p q : Pending}

/-! ## Changing one collection twice -/

theorem changed_comm {c : Option Collection} (hc : (c.getD {}).stored.Sorted) (hw : w.Sorted)
    (hw' : w'.Sorted) (hapart : ∀ id, w.find? id = none ∨ w'.find? id = none) :
    changed w'.entries (changed w.entries c) = changed w.entries (changed w'.entries c) := by
  have hcomm := hc.reviseAll_comm (fun _ (x : Write) => x.bytes?) hw hw' hapart
  cases hempty : w.entries.isEmpty with
  | true => simp only [changed, hempty, if_true]
  | false =>
    cases hempty' : w'.entries.isEmpty with
    | true => simp only [changed, hempty', if_true]
    | false =>
      simp only [changed, hempty, hempty', Bool.false_eq_true, if_false, Option.getD_some,
        Collection.foldl_applyChange, hcomm]

/-! ## Checks that only look at identifiers -/

/-- Writes that neither a unique secondary index nor bytes that cannot be decoded can stop. -/
structure Unconstrained (cat : Catalog) (p : Pending) : Prop where
  indexes : ∀ ns, (p.writesOf ns).entries ≠ [] →
    ∀ i ∈ (cat.collection ns).indexes, i.isUniqueSecondary = false
  stored : ∀ ns, (cat.collection ns).Decodes
  buffered : ∀ ns, Writes.Decode (p.writesOf ns).entries

theorem checkUniqueIndexes_of_none {indexes : List Index}
    (h : ∀ i ∈ indexes, i.isUniqueSecondary = false) (ns : Namespace) (docs : List Document) :
    checkUniqueIndexes ns indexes docs = .ok () := by
  induction indexes with
  | nil => rfl
  | cons i rest ih =>
    obtain ⟨hi, hrest⟩ := List.forall_mem_cons.1 h
    rw [checkUniqueIndexes, hi, if_neg Bool.false_ne_true]
    exact ih hrest

theorem checkWrites_eq_takenId? {c : Collection} (hc : cat.collection? ns = some c)
    (hindexes : ∀ i ∈ c.indexes, i.isUniqueSecondary = false) (hstored : c.Decodes)
    (hbuffered : Writes.Decode w.entries) :
    cat.checkWrites create ns w =
      (takenId? c w.entries).elim (.ok ()) fun id => .error (.duplicateKey ns Index.idName [id]) := by
  obtain ⟨loaded, hloaded⟩ := Collection.exists_documents hstored
  obtain ⟨docs, hover⟩ := Writes.exists_overlay hbuffered loaded
  rw [checkWrites, hc]
  simp only
  cases takenId? c w.entries with
  | some id => rfl
  | none =>
    rw [hloaded, ok_bind, hover, ok_bind, checkUniqueIndexes_of_none hindexes]
    exact ite_self _

theorem takenId?_congr {c c' : Collection} {changes : Changes}
    (h : ∀ e ∈ changes, c'.stored.contains e.1 = c.stored.contains e.1) :
    takenId? c' changes = takenId? c changes := by
  induction changes with
  | nil => rfl
  | cons e rest ih =>
    obtain ⟨he, hrest⟩ := List.forall_mem_cons.1 h
    rw [takenId?, takenId?, he, ih hrest]

/-- Applying writes takes and frees no identifier of others. -/
theorem takenId?_of_apart (c : Collection) (hw : w.Sorted) (hw' : w'.Sorted)
    (hapart : ∀ id, w.find? id = none ∨ w'.find? id = none) :
    takenId? (w'.entries.foldl Collection.applyChange c) w.entries = takenId? c w.entries := by
  refine takenId?_congr fun e he => ?_
  have hmine : w.find? e.1 = some e.2 := hw.find?_eq_some_iff.2 he
  have hother : SortedMap.findIn? e.1 w'.entries = none :=
    (hapart e.1).resolve_left (by rw [hmine]; exact Option.some_ne_none _)
  rw [Collection.foldl_applyChange, SortedMap.contains, SortedMap.contains,
    SortedMap.find?_reviseAll _ _ hw', hother]
  rfl

theorem checkWrites_of_empty (cat : Catalog) (create : Bool) (ns : Namespace)
    (hempty : w.entries = []) : cat.checkWrites create ns w = .ok () := by
  obtain ⟨_⟩ := w
  subst hempty
  rw [checkWrites]
  cases cat.collection? ns with
  | none => cases create <;> rfl
  | some c => rfl

/-- The check of a namespace comes out the same after the writes of another commit, which may have
made the collection. -/
theorem checkWrites_of_apart (hcat : cat.Valid) (hp : p.Valid) (hq : q.Valid) (hapart : p.Apart q)
    (hfreep : cat.Unconstrained p) (hfreeq : cat.Unconstrained q)
    (hplace : (p.writesOf ns).entries ≠ [] → create = true ∨ (cat.collection? ns).isSome)
    (hchanged : cat'.collection? ns = changed (p.writesOf ns).entries (cat.collection? ns)) :
    cat'.checkWrites create ns (q.writesOf ns) = cat.checkWrites create ns (q.writesOf ns) := by
  have hsortedp : (p.writesOf ns).Sorted := (hp.writesOf ns).sorted
  have hsortedq : (q.writesOf ns).Sorted := (hq.writesOf ns).sorted
  by_cases hempty : (q.writesOf ns).entries = []
  · rw [checkWrites_of_empty cat' create ns hempty, checkWrites_of_empty cat create ns hempty]
  · by_cases hempty' : (p.writesOf ns).entries = []
    · rw [hempty'] at hchanged
      rw [checkWrites, checkWrites, show cat'.collection? ns = cat.collection? ns from hchanged]
    · have hindexes := hfreeq.indexes ns hempty
      have hstored := hfreep.stored ns
      have hsorted := (hcat.collection ns).sorted
      have hafter := hstored.foldl_applyChange hsorted hsortedp (hfreep.buffered ns)
      have htaken := takenId?_of_apart (cat.collection ns) hsortedq hsortedp fun id =>
        (hapart ns id).symm
      have hmade : cat'.collection? ns =
          some ((p.writesOf ns).entries.foldl Collection.applyChange (cat.collection ns)) := by
        rw [hchanged, changed, if_neg (by simpa using hempty')]
        rfl
      rw [checkWrites_eq_takenId? hmade (by rwa [Collection.foldl_applyChange]) hafter
        (hfreeq.buffered ns), htaken]
      cases hc : cat.collection? ns with
      | some c =>
        rw [collection_of_eq_some hc] at hindexes hstored ⊢
        rw [checkWrites_eq_takenId? hc hindexes hstored (hfreeq.buffered ns)]
      | none =>
        have hcreate : create = true := (hplace hempty').resolve_right (by simp [hc])
        have hnone : takenId? (cat.collection ns) (q.writesOf ns).entries = none := by
          rw [collection, hc]
          exact takenId?_eq_none_iff.2 fun _ _ _ => rfl
        rw [hnone, checkWrites, hc, hcreate]
        rfl

/-! ## Commits one after the other -/

theorem checkPending_congr {l : List (Namespace × Writes)}
    (h : ∀ e ∈ l, cat'.checkWrites create e.1 e.2 = cat.checkWrites create e.1 e.2) :
    cat'.checkPending create l = cat.checkPending create l := by
  induction l with
  | nil => rfl
  | cons e rest ih =>
    obtain ⟨he, hrest⟩ := List.forall_mem_cons.1 h
    rw [checkPending, checkPending, he, ih hrest]

theorem commit_outcome (cat : Catalog) (create : Bool) (hp : p.Sorted) :
    (cat.commit create p).1 = cat.checkPending create p.entries := by
  cases hcheck : cat.checkPending create p.entries with
  | error e => rw [commit, hcheck]
  | ok u =>
    rcases cat.commit_cases create hp with ⟨cat', hcommit, -⟩ | ⟨e, -, hnot⟩
    · rw [hcommit]
    · exact absurd ((checkPending_iff hp).1 hcheck) hnot

theorem commit_of_error (hp : p.Sorted) {e : StoreError} (h : (cat.commit create p).1 = .error e) :
    (cat.commit create p).2 = cat := by
  rcases cat.commit_cases create hp with ⟨cat', hcommit, -⟩ | ⟨e, hcommit, -⟩
  · rw [hcommit] at h
    cases h
  · rw [hcommit]

theorem commit_of_ok (hp : p.Sorted) (h : (cat.commit create p).1 = .ok ()) (ns : Namespace) :
    (cat.commit create p).2.collection? ns =
        changed (p.writesOf ns).entries (cat.collection? ns) ∧
      ((p.writesOf ns).entries ≠ [] → create = true ∨ (cat.collection? ns).isSome) := by
  rcases cat.commit_cases create hp with ⟨cat', hcommit, hcheck, hcat'⟩ | ⟨e, hcommit, -⟩
  · rw [hcommit]
    exact ⟨hcat' ns, place_of_checkWrites (hcheck ns)⟩
  · rw [hcommit] at h
    cases h

theorem commit_outcome_of_apart (create : Bool) (hcat : cat.Valid) (hp : p.Valid) (hq : q.Valid)
    (hapart : p.Apart q) (hfreep : cat.Unconstrained p) (hfreeq : cat.Unconstrained q) :
    ((cat.commit create p).2.commit create q).1 = (cat.commit create q).1 := by
  rw [commit_outcome _ create hq.sorted, commit_outcome _ create hq.sorted]
  cases hfirst : (cat.commit create p).1 with
  | error e => rw [commit_of_error hp.sorted hfirst]
  | ok u =>
    refine checkPending_congr fun e he => ?_
    have hwrites : q.writesOf e.1 = e.2 := by
      rw [Pending.writesOf, hq.sorted.find?_eq_some_iff.2 he]
      rfl
    obtain ⟨hchanged, hplace⟩ := commit_of_ok hp.sorted hfirst e.1
    rw [← hwrites]
    exact checkWrites_of_apart hcat hp hq hapart hfreep hfreeq hplace hchanged

theorem commit_comm (create : Bool) (htidy : cat.Tidy) (hcat : cat.Valid) (hp : p.Valid) (hq : q.Valid)
    (hapart : p.Apart q) (hfreep : cat.Unconstrained p) (hfreeq : cat.Unconstrained q) :
    ((cat.commit create p).2.commit create q).2 = ((cat.commit create q).2.commit create p).2 := by
  have hsecondq := commit_outcome_of_apart create hcat hp hq hapart hfreep hfreeq
  have hsecondp := commit_outcome_of_apart create hcat hq hp hapart.symm hfreeq hfreep
  cases hfirstp : (cat.commit create p).1 with
  | error e =>
    rw [commit_of_error hp.sorted hfirstp, commit_of_error hp.sorted (hsecondp.trans hfirstp)]
  | ok u =>
    cases hfirstq : (cat.commit create q).1 with
    | error e =>
      rw [commit_of_error hq.sorted hfirstq, commit_of_error hq.sorted (hsecondq.trans hfirstq)]
    | ok u =>
      refine ((htidy.commit create p).commit create q).ext_collection?
        ((htidy.commit create q).commit create p) fun ns => ?_
      rw [(commit_of_ok hq.sorted (hsecondq.trans hfirstq) ns).1,
        (commit_of_ok hp.sorted hfirstp ns).1,
        (commit_of_ok hp.sorted (hsecondp.trans hfirstp) ns).1,
        (commit_of_ok hq.sorted hfirstq ns).1]
      exact changed_comm (hcat.collection ns).sorted (hp.writesOf ns).sorted
        (hq.writesOf ns).sorted (hapart ns)

end Catalog

namespace Client

/-! ## Two transactions -/

/-- The client after a commit with an outcome: the transaction is closed, the catalog taken over and
the outcome counted. -/
def settled (c : Client) (id : SessionId) (s : Session) (catalog : Catalog) :
    Except StoreError Unit → Client
  | .ok () => { c.setSession id { s with transaction := none } with catalog := catalog }.countCommit
  | .error _ => { c.setSession id { s with transaction := none } with catalog := catalog }.countAbort

theorem settled_spec {c : Client} {id id' : SessionId} {s s' : Session} (hs : c.session? id = some s)
    (hne : id' ≠ id) (hs' : c.session? id' = some s') (catalog : Catalog)
    (outcome : Except StoreError Unit) :
    (c.settled id s catalog outcome).catalog = catalog ∧
      (c.settled id s catalog outcome).autoCreate = c.autoCreate ∧
      (c.settled id s catalog outcome).faults = c.faults ∧
      (c.settled id s catalog outcome).session? id' = some s' := by
  have hother : (c.setSession id { s with transaction := none }).session? id' = c.session? id' :=
    session?_setSession_of_ne (number_ne_zero hs) hne _
  cases outcome <;> exact ⟨rfl, rfl, rfl, hother.trans hs'⟩

theorem settled_comm {c : Client} {id₁ id₂ : SessionId} {s₁ s₂ : Session}
    (hs₁ : c.session? id₁ = some s₁) (hs₂ : c.session? id₂ = some s₂) (hne : id₁ ≠ id₂)
    (cat₁ cat₂ catalog : Catalog) (outcome₁ outcome₂ : Except StoreError Unit) :
    (c.settled id₁ s₁ cat₁ outcome₁).settled id₂ s₂ catalog outcome₂ =
      (c.settled id₂ s₂ cat₂ outcome₂).settled id₁ s₁ catalog outcome₁ := by
  have hplace : id₁.number - 1 ≠ id₂.number - 1 := fun heq => by
    have hnumber₁ := number_ne_zero hs₁
    have hnumber₂ := number_ne_zero hs₂
    obtain ⟨n₁⟩ := id₁
    obtain ⟨n₂⟩ := id₂
    exact hne (congrArg SessionId.mk (by simp only at heq hnumber₁ hnumber₂; omega))
  have hsessions := List.set_comm (l := c.sessions) { s₁ with transaction := none }
    { s₂ with transaction := none } hplace
  cases outcome₁ <;> cases outcome₂ <;>
    simp only [settled, setSession, countCommit, countAbort, hsessions]

theorem commitTransaction_eq_settled {c : Client} {id : SessionId} {s : Session}
    {t : OpenTransaction} (hs : c.session? id = some s) (ht : s.transaction = some t)
    (hunarmed : c.faults.commits = 0) :
    c.commitTransaction id =
      ((c.catalog.commit c.autoCreate t.pending).1,
        c.settled id s (c.catalog.commit c.autoCreate t.pending).2
          (c.catalog.commit c.autoCreate t.pending).1) := by
  have hfault : c.takeFault .commit = (false, c) := takeFault_of_unarmed hunarmed
  rw [commitTransaction, getD_session? hs]
  simp only [ht]
  rw [hfault]
  dsimp only [setSession]
  obtain ⟨outcome, catalog⟩ := c.catalog.commit c.autoCreate t.pending
  cases outcome <;> rfl

theorem commitTransaction_after {c : Client} {id₁ id₂ : SessionId} {s₁ s₂ : Session}
    {t₁ t₂ : OpenTransaction} (hs₁ : c.session? id₁ = some s₁) (ht₁ : s₁.transaction = some t₁)
    (hs₂ : c.session? id₂ = some s₂) (ht₂ : s₂.transaction = some t₂) (hne : id₁ ≠ id₂)
    (hunarmed : c.faults.commits = 0) :
    let first := c.catalog.commit c.autoCreate t₁.pending
    let second := first.2.commit c.autoCreate t₂.pending
    (c.commitTransaction id₁).2.commitTransaction id₂ =
      (second.1, (c.settled id₁ s₁ first.2 first.1).settled id₂ s₂ second.2 second.1) := by
  intro first second
  obtain ⟨hcatalog, hcreate, hfaults, hother⟩ := settled_spec hs₁ hne.symm hs₂ first.2 first.1
  rw [commitTransaction_eq_settled hs₁ ht₁ hunarmed,
    commitTransaction_eq_settled hother ht₂ (by rw [hfaults, hunarmed]), hcatalog, hcreate]

/-- Two open transactions of different sessions that write no common identifier, on collections whose
documents decode and that have no unique secondary index, are committed with the same outcomes in
either order, and leave the same client: its catalog, sessions and statistics. -/
theorem commits_commute {c : Client} (hc : c.Reachable) {id₁ id₂ : SessionId} {s₁ s₂ : Session}
    {t₁ t₂ : OpenTransaction} (hne : id₁ ≠ id₂) (hs₁ : c.session? id₁ = some s₁)
    (ht₁ : s₁.transaction = some t₁) (hs₂ : c.session? id₂ = some s₂)
    (ht₂ : s₂.transaction = some t₂) (hapart : t₁.pending.Apart t₂.pending)
    (hfree₁ : c.catalog.Unconstrained t₁.pending) (hfree₂ : c.catalog.Unconstrained t₂.pending)
    (hunarmed : c.faults.commits = 0) :
    ((c.commitTransaction id₁).2.commitTransaction id₂).1 = (c.commitTransaction id₂).1 ∧
      ((c.commitTransaction id₂).2.commitTransaction id₁).1 = (c.commitTransaction id₁).1 ∧
      ((c.commitTransaction id₁).2.commitTransaction id₂).2 =
        ((c.commitTransaction id₂).2.commitTransaction id₁).2 := by
  have hcat := hc.valid.catalog
  have hp₁ := hc.valid.pending id₁ s₁ t₁ hs₁ ht₁
  have hp₂ := hc.valid.pending id₂ s₂ t₂ hs₂ ht₂
  have houtcome₂ := Catalog.commit_outcome_of_apart c.autoCreate hcat hp₁ hp₂ hapart
    hfree₁ hfree₂
  have houtcome₁ := Catalog.commit_outcome_of_apart c.autoCreate hcat hp₂ hp₁
    hapart.symm hfree₂ hfree₁
  have hcatalog := Catalog.commit_comm c.autoCreate hc.tidy hcat hp₁ hp₂ hapart hfree₁ hfree₂
  rw [commitTransaction_after hs₁ ht₁ hs₂ ht₂ hne hunarmed,
    commitTransaction_after hs₂ ht₂ hs₁ ht₁ hne.symm hunarmed,
    commitTransaction_eq_settled hs₁ ht₁ hunarmed, commitTransaction_eq_settled hs₂ ht₂ hunarmed]
  refine ⟨houtcome₂, houtcome₁, ?_⟩
  simp only [houtcome₁, houtcome₂, hcatalog]
  exact settled_comm hs₁ hs₂ hne _ _ _ _ _

/-! ## Two tellers -/

def audit : Namespace := ⟨"app", "audit"⟩

/-- Two sessions work on the same ledger, and both write the first documents of the audit. -/
def tellersRun : List Event :=
  [.request .plain (.documents { ns := ledger } (.insertMany [entry 1 10, entry 2 20])),
    .startSession {}, .startSession {}, .startTransaction ⟨1⟩ {}, .startTransaction ⟨2⟩ {},
    .request (.session ⟨1⟩) (.documents { ns := ledger } (replaceEntry 1 11)),
    .request (.session ⟨1⟩) (.documents { ns := audit } (.insertOne (entry 1 1))),
    .request (.session ⟨2⟩) (.documents { ns := ledger } (.deleteOne (.id (.integer 2)))),
    .request (.session ⟨2⟩) (.documents { ns := audit } (.insertOne (entry 2 1)))]

def tellers : Client := (fresh true 0).run tellersRun

def firstPending : Pending :=
  ⟨[(audit, ⟨[(.integer 1, .insert (entry 1 1).encode)]⟩),
    (ledger, ⟨[(.integer 1, .replace (entry 1 11).encode)]⟩)]⟩

def secondPending : Pending :=
  ⟨[(audit, ⟨[(.integer 2, .insert (entry 2 1).encode)]⟩), (ledger, ⟨[(.integer 2, .delete)]⟩)]⟩

theorem reachable_tellers : tellers.Reachable := by
  refine ⟨true, 0, tellersRun, fun e he => ?_, rfl⟩
  simp only [tellersRun, List.mem_cons, List.not_mem_nil, or_false] at he
  rcases he with rfl | rfl | rfl | rfl | rfl | rfl | rfl | rfl | rfl
  · refine ⟨trivial, fun d hd => ?_⟩
    rcases List.mem_cons.1 hd with rfl | hd
    · exact ordered_entry 1 10
    · rw [List.mem_singleton.1 hd]
      exact ordered_entry 2 20
  · trivial
  · trivial
  · trivial
  · trivial
  · exact ⟨trivial, trivial, ordered_entry 1 11⟩
  · exact ⟨trivial, ordered_entry 1 1⟩
  · exact ⟨trivial, trivial⟩
  · exact ⟨trivial, ordered_entry 2 1⟩

theorem unconstrained_tellers {p : Pending}
    (hbuffered : ∀ writes ∈ p.values, Writes.Decode writes.entries) :
    tellers.catalog.Unconstrained p where
  indexes ns _ := Catalog.forall_collection
    (P := fun c => ∀ i ∈ c.indexes, i.isUniqueSecondary = false) (by decide) (by decide +kernel) ns
  stored := Catalog.decodes_collection (by decide +kernel)
  buffered := Pending.decode_writesOf hbuffered

theorem commits_commute_tellers :
    (tellers.commitTransaction ⟨1⟩).1 = .ok () ∧
      ((tellers.commitTransaction ⟨2⟩).2.commitTransaction ⟨1⟩).1 = .ok () ∧
      ((tellers.commitTransaction ⟨1⟩).2.commitTransaction ⟨2⟩).2 =
        ((tellers.commitTransaction ⟨2⟩).2.commitTransaction ⟨1⟩).2 := by
  have hfirst : tellers.session? ⟨1⟩ = some { transaction := some { pending := firstPending } } := by
    decide +kernel
  have hsecond :
      tellers.session? ⟨2⟩ = some { transaction := some { pending := secondPending } } := by
    decide +kernel
  have hapart : firstPending.Apart secondPending := Pending.apart_of_entries (by decide +kernel)
  have hok : (tellers.commitTransaction ⟨1⟩).1 = .ok () := by
    rfl
  obtain ⟨-, hsame, hclient⟩ := commits_commute reachable_tellers (by decide) hfirst rfl hsecond rfl
    hapart (unconstrained_tellers (by decide +kernel)) (unconstrained_tellers (by decide +kernel)) rfl
  exact ⟨hok, hsame.trans hok, hclient⟩

end Client

end ScopedStore
