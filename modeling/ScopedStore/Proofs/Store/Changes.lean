import ScopedStore.Proofs.Store.UniqueCheck

/-!
# Net changes

A view is changed by calls that insert, replace and delete, some of which fail. The changes are not
logged: they are made in the end from the documents, the loaded documents and the touched identifiers.
`effects` is the log that is not kept, what each call of a sequence has put or removed. Running the calls
leaves the view that their effects leave (`after_eq`), so the last effect on an identifier decides what
stands under it, and the touched identifiers are those of the effects. That the changes lead from the
loaded documents to the final ones then needs only what a single effect keeps (`Tracked.act`).
-/

namespace ScopedStore

theorem Document.Ordered.withId {d : Document} (h : d.Ordered) {id : Value} (hid : id.Ordered) :
    (d.withId id).Ordered := by
  rw [Document.withId]
  split
  · exact h
  · exact h.insert _ hid

namespace View

/-! ## Calls and their effects -/

inductive Call where
  | insert (d : Document)
  | replace (id : Value) (d : Document)
  | delete (id : Value)

/-- What a call has done to the documents. -/
inductive Effect where
  | put (id : Value) (d : Document)
  | removed (id : Value)
deriving DecidableEq

def Effect.id : Effect → Value
  | put id _ | removed id => id

def Effect.Ordered : Effect → Prop
  | put _ d => d.Ordered
  | removed _ => True

def act (v : View) : Effect → View
  | .put id d => v.put id d
  | .removed id => v.remove id

namespace Call

def Ordered : Call → Prop
  | insert d => d.Ordered
  | replace id d => id.Ordered ∧ d.Ordered
  | delete _ => True

/-- The view after a call, whether it succeeds or fails. -/
def after (v : View) : Call → View
  | insert d => (v.insertInPlace d).2
  | replace id d => (v.replaceInPlace id d).2
  | delete id => v.delete id

/-- What a call does; nothing if it fails or finds nothing to delete. -/
def effect? (v : View) : Call → Option Effect
  | insert d => (v.insertInPlace d).1.toOption.map fun id => .put id (d.withId id)
  | replace id d => (v.replaceInPlace id d).1.toOption.map fun _ => .put id (d.withId id)
  | delete id => if v.docs.contains id then some (.removed id) else none

end Call

def after (v : View) (calls : List Call) : View := calls.foldl Call.after v

/-- What calls one after the other do. -/
def effects : View → List Call → List Effect
  | _, [] => []
  | v, c :: rest => (c.effect? v).toList ++ effects (c.after v) rest

/-! ## What the calls leave -/

theorem Call.after_eq (v : View) (c : Call) :
    ∃ seed, c.after v = { (c.effect? v).toList.foldl act v with seed := seed } := by
  cases c with
  | insert d =>
    obtain ⟨id, seed, hidentify, -⟩ := v.identify_spec d
    refine ⟨seed, ?_⟩
    rw [after, effect?, insertInPlace, hidentify]
    dsimp only
    split
    · rfl
    · rcases putChecked_eq { v with seed := seed } id (d.withId id) with ⟨-, hput⟩ | ⟨e, -, hput⟩ <;>
        rw [hput] <;> rfl
  | replace id d =>
    refine ⟨v.seed, ?_⟩
    rw [after, effect?, replaceInPlace]
    split
    · rfl
    · rcases v.putChecked_eq id (d.withId id) with ⟨-, hput⟩ | ⟨e, -, hput⟩ <;>
        rw [← Document.withId, hput] <;> rfl
  | delete id =>
    refine ⟨v.seed, ?_⟩
    rw [after, effect?, delete_eq]
    split <;> rfl

theorem foldl_act_seed (v : View) (log : List Effect) (seed : Nat) :
    log.foldl act { v with seed := seed } = { log.foldl act v with seed := seed } := by
  induction log generalizing v with
  | nil => rfl
  | cons e rest ih =>
    have hact : act { v with seed := seed } e = { v.act e with seed := seed } := by cases e <;> rfl
    rw [List.foldl_cons, List.foldl_cons, hact, ih]

/-- Calls leave the view with their effects. -/
theorem after_eq (v : View) (calls : List Call) :
    ∃ seed, v.after calls = { (v.effects calls).foldl act v with seed := seed } := by
  induction calls generalizing v with
  | nil => exact ⟨v.seed, rfl⟩
  | cons c rest ih =>
    obtain ⟨seed, hc⟩ := c.after_eq v
    obtain ⟨seed', hrest⟩ := ih (c.after v)
    refine ⟨seed', hrest.trans ?_⟩
    rw [effects, List.foldl_append]
    have hstart := foldl_act_seed ((c.effect? v).toList.foldl act v) (effects (c.after v) rest) seed
    rw [← hc] at hstart
    rw [hstart]

theorem Call.Ordered.effect? {v : View} {c : Call} (hc : c.Ordered) {e : Effect}
    (he : c.effect? v = some e) : e.Ordered := by
  cases c with
  | insert d =>
    have hinsert := v.insert_eq_inPlace d
    rw [Call.effect?] at he
    cases hanswer : (v.insertInPlace d).1 with
    | error _ =>
      rw [hanswer] at he
      cases he
    | ok id =>
      rw [hanswer] at he hinsert
      cases he
      exact (insert_spec hinsert).2.2.1 hc
  | replace id d =>
    obtain ⟨-, -, rfl⟩ := Option.map_eq_some_iff.1 he
    exact hc.2.withId hc.1
  | delete id =>
    rw [Call.effect?] at he
    split at he <;> cases he
    trivial

theorem ordered_effects {v : View} {calls : List Call} (hcalls : ∀ c ∈ calls, c.Ordered) :
    ∀ e ∈ v.effects calls, e.Ordered := by
  induction calls generalizing v with
  | nil => exact fun e he => absurd he List.not_mem_nil
  | cons c rest ih =>
    obtain ⟨hc, hrest⟩ := List.forall_mem_cons.1 hcalls
    intro e he
    rcases List.mem_append.1 he with he | he
    · exact hc.effect? (Option.mem_toList.1 he)
    · exact ih hrest e he

/-! ## What effects leave -/

section Effects

variable {v : View} {log : List Effect} {id : Value}

theorem find?_act_of_ne {e : Effect} (h : e.id ≠ id) : (v.act e).docs.find? id = v.docs.find? id := by
  cases e with
  | put k d => exact SortedMap.find?_insert_of_ne v.docs d (Ne.symm h)
  | removed k => exact SortedMap.find?_erase_of_ne v.docs (Ne.symm h)

theorem find?_foldl_act_of_ne (h : ∀ e ∈ log, e.id ≠ id) :
    (log.foldl act v).docs.find? id = v.docs.find? id := by
  induction log generalizing v with
  | nil => rfl
  | cons e rest ih =>
    obtain ⟨he, hrest⟩ := List.forall_mem_cons.1 h
    rw [List.foldl_cons, ih hrest, find?_act_of_ne he]

theorem touched_act (v : View) (e : Effect) : (v.act e).touched = v.touched.insert e.id () := by
  cases e <;> rfl

theorem touched_foldl_act_iff : (log.foldl act v).touched.find? id = some () ↔
    v.touched.find? id = some () ∨ ∃ e ∈ log, e.id = id := by
  induction log generalizing v with
  | nil => simp
  | cons e rest ih =>
    rw [List.foldl_cons, ih, touched_act, List.exists_mem_cons_iff]
    by_cases hid : id = e.id
    · rw [hid, SortedMap.find?_insert_self]
      simp
    · rw [SortedMap.find?_insert_of_ne _ _ hid]
      simp [Ne.symm hid]

theorem base_foldl_act (v : View) (log : List Effect) : (log.foldl act v).base = v.base := by
  induction log generalizing v with
  | nil => rfl
  | cons e rest ih =>
    rw [List.foldl_cons, ih]
    cases e <;> rfl

/-- A document that stands under an identifier with an effect was put there. -/
theorem mem_of_find?_foldl_act {d : Document} (hlog : ∃ e ∈ log, e.id = id)
    (hd : (log.foldl act v).docs.find? id = some d) : .put id d ∈ log := by
  induction log generalizing v with
  | nil => exact absurd hlog (by simp)
  | cons e rest ih =>
    rw [List.foldl_cons] at hd
    by_cases hlater : ∃ e ∈ rest, e.id = id
    · exact List.mem_cons_of_mem e (ih hlater hd)
    · have hnone : ∀ e ∈ rest, e.id ≠ id := fun e he hid => hlater ⟨e, he, hid⟩
      have hid : e.id = id := by simpa [hlater] using hlog
      rw [find?_foldl_act_of_ne hnone, ← hid] at hd
      cases e with
      | put k d' =>
        cases (SortedMap.find?_insert_self v.docs k d').symm.trans hd
        exact hid ▸ List.mem_cons_self
      | removed k => cases (SortedMap.find?_erase_self v.docs k).symm.trans hd

/-- Where each document that is put under an identifier is removed later, none is left. -/
theorem find?_foldl_act_eq_none
    (hlog : ∀ before after d, log = before ++ .put id d :: after → .removed id ∈ after)
    (h : v.docs.find? id = none ∨ .removed id ∈ log) : (log.foldl act v).docs.find? id = none := by
  induction log generalizing v with
  | nil => exact h.resolve_right List.not_mem_nil
  | cons e rest ih =>
    refine ih (fun before after d hrest => hlog (e :: before) after d (by rw [hrest]; rfl)) ?_
    by_cases hid : e.id = id
    · cases e with
      | put k d =>
        cases hid
        exact .inr (hlog [] rest d rfl)
      | removed k =>
        cases hid
        exact .inl (SortedMap.find?_erase_self _ _)
    · rw [find?_act_of_ne hid]
      refine h.imp_right fun hmem => (List.mem_cons.1 hmem).resolve_left ?_
      rintro rfl
      exact hid rfl

theorem Tracked.act (h : v.Tracked) {e : Effect} (he : e.Ordered) : (v.act e).Tracked := by
  cases e with
  | put id d => exact h.put id he
  | removed id => exact h.remove id

theorem Tracked.foldl_act (h : v.Tracked) (hlog : ∀ e ∈ log, e.Ordered) :
    (log.foldl View.act v).Tracked :=
  List.foldlRecOn log View.act h fun _ h e he => h.act (hlog e he)

end Effects

/-! ## The changes -/

/-- Changes lead from documents to others: shown over the ones they show the others, and applied to a
collection of the ones they leave the others. -/
structure Leads (changes : Changes) (docs docs' : Documents) : Prop where
  shown : Writes.overlayEntries changes docs = .ok docs'
  stored : ∀ (cat : Catalog) (ns : Namespace) (create : Bool), (cat.collection ns).stored.Sorted →
    (cat.collection ns).documents = .ok docs → create = true ∨ (cat.collection? ns).isSome →
      ∃ cat', cat.applyChanges ns changes create = .ok cat' ∧ (cat'.collection ns).documents = .ok docs'

theorem Tracked.leads {v : View} (h : v.Tracked) (hdecode : Writes.Decode v.changes) :
    Leads v.changes v.base v.docs where
  shown := by
    have hfind (id : Value) := congrFun (h.over_changes rfl hdecode) id
    refine Writes.overlayEntries_eq_ok_iff.2 ⟨hdecode, ?_⟩
    refine SortedMap.ext_find? h.docs_sorted (h.base_sorted.reviseAll _ _) fun id => ?_
    rw [SortedMap.find?_reviseAll _ _ h.sorted_changes, ← hfind id]
    rfl
  stored cat ns create hsorted hdocs hplace := by
    obtain ⟨cat', happly⟩ := Catalog.exists_applyChanges.2 fun _ => hplace
    have hafter : cat'.collection ns = v.changes.foldl Collection.applyChange (cat.collection ns) := by
      rw [Catalog.collection_of_applyChanges happly, if_pos rfl]
    have hstored : (cat'.collection ns).stored.Sorted := by
      rw [hafter, Collection.foldl_applyChange]
      exact hsorted.reviseAll _ _
    have hdecodes : (cat'.collection ns).Decodes := by
      rw [hafter]
      exact (Collection.decodes_of_documents hdocs).foldl_applyChange hsorted h.sorted_changes hdecode
    obtain ⟨docs', hloaded⟩ := Collection.exists_documents hdecodes
    have hbase : v.base.find? = (cat.collection ns).document? := Collection.find?_documents hdocs
    have heq : docs' = v.docs := by
      refine SortedMap.ext_find? (Collection.sorted_documents hstored hloaded) h.docs_sorted fun id => ?_
      rw [Collection.find?_documents hloaded, hafter,
        Collection.document?_foldl_applyChange _ h.sorted_changes, h.over_changes hbase hdecode]
    exact ⟨cat', happly, heq ▸ hloaded⟩

theorem mem_keys_changes_iff {v : View} {id : Value} :
    id ∈ v.changes.map Prod.fst ↔
      v.touched.find? id = some () ∧ (v.base.contains id = true ∨ v.docs.contains id = true) := by
  have hlisted : id ∈ v.changes.map Prod.fst ↔ ∃ w, SortedMap.findIn? id v.changes = some w :=
    SortedMap.mem_keys_iff (m := SortedMap.mk v.changes)
  have htouched : id ∈ v.touched.keys ↔ v.touched.find? id = some () :=
    SortedMap.mem_keys_iff.trans ⟨fun ⟨_, h⟩ => h, fun h => ⟨(), h⟩⟩
  have hdocs : v.docs.contains id = (v.docs.find? id).isSome := rfl
  rw [hlisted, findIn?_changes, ← htouched, hdocs]
  by_cases hkey : id ∈ v.touched.keys
  · rw [if_pos hkey, change?]
    cases v.docs.find? id <;> cases v.base.contains id <;> simp [hkey]
  · simp [hkey]

theorem isInsert_iff_of_mem_changes {v : View} {id : Value} {w : Write} (h : (id, w) ∈ v.changes) :
    w.isInsert = true ↔ v.base.contains id = false := by
  obtain ⟨k, -, hk⟩ := List.mem_filterMap.1 h
  obtain ⟨_, hchange, hpair⟩ := Option.map_eq_some_iff.1 hk
  cases hpair
  rw [change?] at hchange
  split at hchange <;> cases hchange <;> rename_i hbase <;> simp [Write.isInsert, hbase]

theorem changes_eq_nil_iff {v : View} : v.changes = [] ↔
    ∀ id, v.touched.find? id = some () → v.base.contains id = false ∧ v.docs.contains id = false := by
  rw [← List.map_eq_nil_iff (f := Prod.fst), List.eq_nil_iff_forall_not_mem]
  simp only [mem_keys_changes_iff, not_and, not_or, Bool.not_eq_true]

/-- The changes of a view are the net changes since it was loaded, after any calls, the failed ones
included. Where every document that was put can be read back, they lead from the loaded documents to the
final ones. An identifier is listed once, if a call had an effect on it and a document stands under it
before or after; as an insertion exactly where none was loaded. So nothing is listed where no loaded
document was touched and each that was put has been removed again. -/
theorem changes_exact {cat : Catalog} {ns : Namespace} {writes : Writes} {seed : Nat} {v₀ : View}
    (hstored : (cat.collection ns).stored.Sorted) (hload : load cat ns writes seed = .ok v₀)
    (calls : List Call) (hcalls : ∀ c ∈ calls, c.Ordered) :
    let log := v₀.effects calls
    let v := v₀.after calls
    ((∀ id d, .put id d ∈ log → d.isReadable = true) → Leads v.changes v₀.docs v.docs) ∧
    (v.changes.map Prod.fst).Nodup ∧
    (∀ id, id ∈ v.changes.map Prod.fst ↔
      (∃ e ∈ log, e.id = id) ∧ (v₀.docs.contains id = true ∨ v.docs.contains id = true)) ∧
    (∀ id w, (id, w) ∈ v.changes → (w.isInsert = true ↔ v₀.docs.contains id = false)) ∧
    ((∀ e ∈ log, v₀.docs.contains e.id = false) →
      (∀ before after id d, log = before ++ .put id d :: after → .removed id ∈ after) →
        v.changes = []) := by
  intro log v
  obtain ⟨seed', hafter⟩ := v₀.after_eq calls
  let w : View := log.foldl act v₀
  have hdocs : v.docs = w.docs := by
    show (v₀.after calls).docs = w.docs
    rw [hafter]
  have hchanges : v.changes = w.changes := by
    show (v₀.after calls).changes = w.changes
    rw [hafter]
    rfl
  have hw : w.Tracked := (tracked_load hstored hload).foldl_act (ordered_effects hcalls)
  obtain ⟨hbase, htouched⟩ : w.base = v₀.docs ∧
      ∀ id, w.touched.find? id = some () ↔ ∃ e ∈ log, e.id = id := by
    obtain ⟨_, _, -, -, rfl⟩ := load_eq_ok_iff.1 hload
    exact ⟨base_foldl_act _ log, fun id => touched_foldl_act_iff.trans (or_iff_right nofun)⟩
  rw [hdocs, hchanges]
  refine ⟨fun hreadable => ?_, hw.sorted_changes.nodup_keys, fun id => ?_, fun id x hx => ?_,
    fun hloaded hremoved => changes_eq_nil_iff.2 fun id hid => ?_⟩
  · rw [← hbase]
    refine hw.leads (hw.decode_changes_iff.2 fun id d hid hd => ?_)
    exact hreadable id d (mem_of_find?_foldl_act ((htouched id).1 hid) hd)
  · rw [mem_keys_changes_iff, htouched, hbase]
  · rw [isInsert_iff_of_mem_changes hx, hbase]
  · obtain ⟨e, he, rfl⟩ := (htouched id).1 hid
    have hnone := SortedMap.contains_eq_false_iff.1 (hloaded e he)
    rw [hbase]
    exact ⟨hloaded e he, SortedMap.contains_eq_false_iff.2
      (find?_foldl_act_eq_none (hremoved · · e.id ·) (.inl hnone))⟩

def ware (id price : Int64) : Document := ⟨[("_id", .integer id), ("price", .integer price)]⟩

/-- A stall with two wares; a transaction has taken the second away and brought a third. -/
def stall : View :=
  let docs := .ofList [(.integer 1, ware 1 10), (.integer 3, ware 3 30)]
  { ns := ⟨"market", "wares"⟩, base := docs, docs := docs, seed := 0,
    indexes := [.onId, ⟨none, [("price", .ascending)], true⟩] }

/-- The stall as it is stored, with the second ware. -/
def market : Catalog :=
  ({} : Catalog).put stall.ns
    { stored := .ofList [(.integer 1, (ware 1 10).encode), (.integer 2, (ware 2 20).encode)],
      indexes := stall.indexes }

/-- A fourth ware comes and goes, the third and the second come again. -/
def dealings : List Call :=
  [.insert (ware 4 40), .insert (ware 4 41), .delete (.integer 4), .replace (.integer 1) (ware 1 11),
    .insert (ware 5 11), .delete (.integer 3), .insert (ware 3 33), .delete (.integer 2),
    .insert (ware 2 22)]

/-- Of nine calls three have no effect: a ware that is there already, one at the price of another and one
that is gone. Three wares are changed. A ware that only comes and goes changes nothing. -/
theorem changes_exact_stall :
    stall.effects dealings =
      [.put (.integer 4) (ware 4 40), .removed (.integer 4), .put (.integer 1) (ware 1 11),
        .removed (.integer 3), .put (.integer 3) (ware 3 33), .put (.integer 2) (ware 2 22)] ∧
      (stall.after dealings).changes =
        [(.integer 1, .replace (ware 1 11).encode), (.integer 2, .insert (ware 2 22).encode),
          (.integer 3, .replace (ware 3 33).encode)] ∧
      Leads (stall.after dealings).changes stall.docs (stall.after dealings).docs ∧
      (stall.after (dealings.take 3)).changes = [] := by
  have hload : load market stall.ns
      (.ofList [(.integer 2, .delete), (.integer 3, .insert (ware 3 30).encode)]) 0 = .ok stall :=
    load_eq_ok_iff.2 ⟨.ofList [(.integer 1, ware 1 10), (.integer 2, ware 2 20)], stall.docs,
      by decide +kernel, by decide +kernel, rfl⟩
  have hstored : (market.collection stall.ns).stored.Sorted := SortedMap.sorted_ofList _
  have hware (id price : Int64) : (ware id price).Ordered :=
    Document.ordered_pair (by decide) trivial trivial
  have hcalls : ∀ c ∈ dealings, c.Ordered := by
    intro c hc
    simp only [dealings, List.mem_cons, List.not_mem_nil, or_false] at hc
    rcases hc with rfl | rfl | rfl | rfl | rfl | rfl | rfl | rfl | rfl
    all_goals first | exact hware _ _ | exact ⟨trivial, hware _ _⟩ | trivial
  have hlog : stall.effects dealings =
      [.put (.integer 4) (ware 4 40), .removed (.integer 4), .put (.integer 1) (ware 1 11),
        .removed (.integer 3), .put (.integer 3) (ware 3 33), .put (.integer 2) (ware 2 22)] := by
    decide +kernel
  have hfew : stall.effects (dealings.take 3) =
      [.put (.integer 4) (ware 4 40), .removed (.integer 4)] := by decide +kernel
  obtain ⟨hleads, -⟩ := changes_exact hstored hload dealings hcalls
  obtain ⟨-, -, -, -, hnone⟩ := changes_exact hstored hload (dealings.take 3)
    fun c hc => hcalls c (List.mem_of_mem_take hc)
  refine ⟨hlog, by decide +kernel, hleads fun id d hput => ?_, hnone ?_ ?_⟩
  · rw [hlog] at hput
    simp only [List.mem_cons, List.not_mem_nil, or_false] at hput
    rcases hput with h | h | h | h | h | h <;> cases h <;> decide +kernel
  · rw [hfew]
    decide +kernel
  · intro before after id d hput
    rw [hfew] at hput
    rcases before with _ | ⟨e, _ | ⟨e', before⟩⟩
    · cases hput
      exact List.mem_singleton_self _
    · cases hput
    · simp at hput

end View

end ScopedStore
