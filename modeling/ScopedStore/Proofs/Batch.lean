import ScopedStore.Operation
import ScopedStore.Proofs.Outcome

/-!
# Batches and their single writes

A batch carries each of its writes out as the single operation of the same kind would, on the view that
the writes before have left, and adds up the replies (`writeModel_eq`). What a view was loaded from and
which identifiers were touched decides only its net changes: operations do not look at them
(`WriteModel.corresponds_run`), so a write does on the view of a batch what it does on a view that is
loaded anew.
-/

namespace ScopedStore

/-! ## The single write -/

/-- The operation that does one write of a batch alone. -/
def WriteModel.op : WriteModel → DocumentOp
  | .insertOne d => .insertOne d
  | .updateOne f u upsert => .updateOne f u upsert
  | .updateMany f u upsert => .updateMany f u upsert
  | .replaceOne f d upsert => .replaceOne f d upsert
  | .deleteOne f => .deleteOne f
  | .deleteMany f => .deleteMany f

@[simp] theorem WriteModel.check_op (m : WriteModel) : m.op.check = .ok () := by
  cases m <;> rfl

/-- Adds the reply to a single write to what a batch did before. -/
def BulkReply.add (b : BulkReply) : Reply → BulkReply
  | .id _ => { b with inserted := b.inserted + 1 }
  | .updated r => b.addUpdate r
  | .deleted n => { b with deleted := b.deleted + n }
  | _ => b

theorem View.writeModel_eq (narrow : Filter) (b : BulkReply) (v : View) (m : WriteModel) :
    writeModel narrow b v m = (m.op.run narrow v).map fun r => (b.add r.1, r.2) := by
  cases m with
  | insertOne d =>
    rw [writeModel, WriteModel.op, DocumentOp.run]
    cases v.insert d <;> rfl
  | updateOne f u upsert =>
    rw [writeModel, WriteModel.op, DocumentOp.run]
    cases v.update (narrow.and f) u upsert false <;> rfl
  | updateMany f u upsert =>
    rw [writeModel, WriteModel.op, DocumentOp.run]
    cases v.update (narrow.and f) u upsert true <;> rfl
  | replaceOne f d upsert =>
    rw [writeModel, WriteModel.op, DocumentOp.run]
    cases v.replaceFirst (narrow.and f) d upsert <;> rfl
  | deleteOne f | deleteMany f => rfl

/-! ## Adding up replies -/

namespace Reply

def inserted : Reply → Nat
  | .id _ => 1
  | _ => 0

def matched : Reply → Nat
  | .updated r => r.matched
  | _ => 0

def modified : Reply → Nat
  | .updated r => r.modified
  | _ => 0

def deletions : Reply → Nat
  | .deleted n => n
  | _ => 0

def upserted : Reply → List Value
  | .updated r => r.upsertedId.toList
  | _ => []

def total (number : Reply → Nat) (replies : List Reply) : Nat :=
  replies.foldr (fun reply n => number reply + n) 0

end Reply

/-- The reply of a batch counts what the replies to single writes count, and lists the identifiers that
they list. -/
structure BulkReply.Sums (b : BulkReply) (replies : List Reply) : Prop where
  inserted : b.inserted = Reply.total Reply.inserted replies
  matched : b.matched = Reply.total Reply.matched replies
  modified : b.modified = Reply.total Reply.modified replies
  deleted : b.deleted = Reply.total Reply.deletions replies
  upsertedIds : b.upsertedIds = replies.flatMap Reply.upserted

theorem BulkReply.add_eq (b : BulkReply) {reply : Reply} :
    b.add reply =
      { inserted := b.inserted + reply.inserted
        matched := b.matched + reply.matched
        modified := b.modified + reply.modified
        deleted := b.deleted + reply.deletions
        upsertedIds := b.upsertedIds ++ reply.upserted } := by
  obtain ⟨inserted, matched, modified, deleted, upsertedIds⟩ := b
  cases reply <;> simp [add, addUpdate, Reply.inserted, Reply.matched, Reply.modified,
    Reply.deletions, Reply.upserted]

theorem BulkReply.foldl_add (b : BulkReply) (replies : List Reply) :
    replies.foldl add b =
      { inserted := b.inserted + Reply.total Reply.inserted replies
        matched := b.matched + Reply.total Reply.matched replies
        modified := b.modified + Reply.total Reply.modified replies
        deleted := b.deleted + Reply.total Reply.deletions replies
        upsertedIds := b.upsertedIds ++ replies.flatMap Reply.upserted } := by
  induction replies generalizing b with
  | nil => simp [Reply.total]
  | cons reply rest ih =>
    rw [List.foldl_cons, ih, add_eq]
    simp [Reply.total, Nat.add_assoc]

theorem BulkReply.sums_foldl_add (replies : List Reply) :
    BulkReply.Sums (replies.foldl add {}) replies := by
  rw [foldl_add]
  constructor <;> simp

namespace View

/-! ## Views that show the same -/

/-- The view as if it had been loaded from other documents and other identifiers had been touched. -/
def rebased (v : View) (base : Documents) (touched : SortedMap Value Unit) : View :=
  { v with base := base, touched := touched }

/-- Two views show the same documents and indexes and make the same identifiers next. -/
def Alike (v w : View) : Prop := ∃ base touched, w = v.rebased base touched

theorem alike_of_eq {v w : View} (hns : v.ns = w.ns) (hdocs : v.docs = w.docs)
    (hindexes : v.indexes = w.indexes) (hseed : v.seed = w.seed) : v.Alike w := by
  obtain ⟨ns, base, docs, touched, indexes, seed⟩ := v
  obtain ⟨ns', base', docs', touched', indexes', seed'⟩ := w
  cases hns
  cases hdocs
  cases hindexes
  cases hseed
  exact ⟨base', touched', rfl⟩

theorem Alike.trans {u v w : View} (huv : u.Alike v) (hvw : v.Alike w) : u.Alike w := by
  obtain ⟨base, touched, rfl⟩ := huv
  obtain ⟨base', touched', rfl⟩ := hvw
  exact ⟨base', touched', rfl⟩

/-- Results are equal and come with views that show the same. -/
def Beside {α : Type} (r s : α × View) : Prop := r.1 = s.1 ∧ r.2.Alike s.2

/-! ## What operations do not look at -/

section Rebased

variable {v : View} {base : Documents} {touched : SortedMap Value Unit}

theorem checkUnique_rebased (id : Value) (d : Document) (indexes : List Index) :
    (v.rebased base touched).checkUnique id d indexes = v.checkUnique id d indexes := by
  induction indexes with
  | nil => rfl
  | cons i rest ih =>
    rw [checkUnique, checkUnique, ih]
    rfl

theorem put_rebased (id : Value) (d : Document) :
    (v.put id d).Alike ((v.rebased base touched).put id d) :=
  ⟨base, touched.insert id (), rfl⟩

theorem corresponds_put (id : Value) (d : Document) :
    Corresponds Alike (do v.checkUnique id d v.indexes; return v.put id d)
      (do
        (v.rebased base touched).checkUnique id d v.indexes
        return (v.rebased base touched).put id d) := by
  rw [checkUnique_rebased]
  cases v.checkUnique id d v.indexes with
  | error e => exact .failed e
  | ok _ => exact .ended (put_rebased id d)

theorem corresponds_insert (d : Document) :
    Corresponds Beside (v.insert d) ((v.rebased base touched).insert d) := by
  have hput (v : View) (id : Value) (d : Document) :
      Corresponds Beside
        (if v.docs.contains id then .error (.duplicateKey v.ns Index.idName [id])
        else do
          v.checkUnique id d v.indexes
          return (id, v.put id d))
        (if v.docs.contains id then .error (.duplicateKey v.ns Index.idName [id])
        else do
          (v.rebased base touched).checkUnique id d v.indexes
          return (id, (v.rebased base touched).put id d)) := by
    split
    · exact .failed _
    · rw [checkUnique_rebased]
      cases v.checkUnique id d v.indexes with
      | error e => exact .failed e
      | ok _ => exact .ended ⟨rfl, put_rebased id d⟩
  rw [View.insert, View.insert, identify, identify]
  cases d.id? with
  | some id => exact hput v id d
  | none => exact hput { v with seed := v.seed + 1 } _ _

theorem corresponds_replace (id : Value) (d : Document) :
    Corresponds Alike (v.replace id d) ((v.rebased base touched).replace id d) := by
  rw [View.replace, View.replace]
  split
  · exact .failed _
  · exact corresponds_put id _

theorem delete_rebased (id : Value) : (v.delete id).Alike ((v.rebased base touched).delete id) := by
  rw [View.delete, View.delete]
  show View.Alike _ (if v.docs.contains id then _ else _)
  split
  · exact ⟨base, touched.insert id (), rfl⟩
  · exact ⟨base, touched, rfl⟩

end Rebased

section Loops

variable {v w : View} (h : v.Alike w)
include h

theorem Alike.insert (d : Document) : Corresponds Beside (v.insert d) (w.insert d) := by
  obtain ⟨base, touched, rfl⟩ := h
  exact corresponds_insert d

theorem Alike.replace (id : Value) (d : Document) :
    Corresponds Alike (v.replace id d) (w.replace id d) := by
  obtain ⟨base, touched, rfl⟩ := h
  exact corresponds_replace id d

theorem Alike.delete (id : Value) : (v.delete id).Alike (w.delete id) := by
  obtain ⟨base, touched, rfl⟩ := h
  exact delete_rebased id

theorem Alike.docs_eq : w.docs = v.docs := by
  obtain ⟨base, touched, rfl⟩ := h
  rfl

theorem Alike.matching_eq (f : Filter) : w.matching f = v.matching f := by
  obtain ⟨base, touched, rfl⟩ := h
  rfl

theorem Alike.document?_eq (id : Value) : w.document? id = v.document? id := by
  obtain ⟨base, touched, rfl⟩ := h
  rfl

omit h in
theorem corresponds_updateEach {u : Update} {docs : List Document} {v w : View} (h : v.Alike w) :
    Corresponds Beside (updateEach u docs v) (updateEach u docs w) := by
  induction docs generalizing v w with
  | nil => exact .ended ⟨rfl, h⟩
  | cons old rest ih =>
    rw [updateEach, updateEach]
    cases u.apply old with
    | error e => exact .failed e
    | ok new =>
      rw [ok_bind, ok_bind]
      split
      · exact ih h
      · cases old.storedId with
        | error e => exact .failed e
        | ok id =>
          refine (h.replace id new).bind fun v₁ w₁ h₁ => (ih h₁).bind fun r s hrs => ?_
          exact .ended ⟨congrArg (· + 1) hrs.1, hrs.2⟩

theorem Alike.update (f : Filter) (u : Update) (upsert multi : Bool) :
    Corresponds Beside (v.update f u upsert multi) (w.update f u upsert multi) := by
  rw [View.update, View.update, h.matching_eq]
  cases u.check with
  | error e => exact .failed e
  | ok _ =>
    rw [ok_bind, ok_bind]
    generalize (if multi then v.matching f else (v.matching f).take 1) = targets
    dsimp only
    split
    · cases u.apply f.seed with
      | error e => exact .failed e
      | ok d =>
        refine (h.insert d).bind fun r s hrs => .ended ⟨?_, hrs.2⟩
        rw [hrs.1]
    · refine (corresponds_updateEach h).bind fun r s hrs => .ended ⟨?_, hrs.2⟩
      rw [hrs.1]

theorem Alike.replaceFirst (f : Filter) (d : Document) (upsert : Bool) :
    Corresponds Beside (v.replaceFirst f d upsert) (w.replaceFirst f d upsert) := by
  rw [View.replaceFirst, View.replaceFirst, h.matching_eq]
  split
  · split
    · refine (h.insert _).bind fun r s hrs => .ended ⟨?_, hrs.2⟩
      rw [hrs.1]
    · exact .ended ⟨rfl, h⟩
  · rename_i old hold
    cases old.storedId with
    | error e => exact .failed e
    | ok id =>
      refine (h.replace id d).bind fun v₁ w₁ h₁ => .ended ⟨?_, h₁⟩
      rw [h₁.document?_eq]

omit h in
theorem deleteEach_alike {ids : List Value} {v w : View} (h : v.Alike w) :
    Beside (deleteEach ids v) (deleteEach ids w) := by
  induction ids generalizing v w with
  | nil => exact ⟨rfl, h⟩
  | cons id rest ih =>
    obtain ⟨hcount, hviews⟩ := ih (h.delete id)
    refine ⟨?_, hviews⟩
    rw [deleteEach, deleteEach, h.docs_eq]
    dsimp only
    rw [hcount]

theorem Alike.deleteMatching (f : Filter) (multi : Bool) :
    Beside (v.deleteMatching f multi) (w.deleteMatching f multi) := by
  rw [View.deleteMatching, View.deleteMatching, h.matching_eq]
  exact deleteEach_alike h

end Loops

end View

theorem WriteModel.corresponds_run (m : WriteModel) (narrow : Filter) {v w : View}
    (h : v.Alike w) : Corresponds View.Beside (m.op.run narrow v) (m.op.run narrow w) := by
  cases m with
  | insertOne d =>
    refine (h.insert d).bind fun r s hrs => .ended ⟨?_, hrs.2⟩
    rw [hrs.1]
  | updateOne f u upsert | updateMany f u upsert =>
    refine (h.update (narrow.and f) u upsert _).bind fun r s hrs => .ended ⟨?_, hrs.2⟩
    rw [hrs.1]
  | replaceOne f d upsert =>
    refine (h.replaceFirst (narrow.and f) d upsert).bind fun r s hrs => .ended ⟨?_, hrs.2⟩
    rw [hrs.1]
  | deleteOne f | deleteMany f =>
    obtain ⟨hcount, hviews⟩ := h.deleteMatching (narrow.and f) _
    exact .ended ⟨congrArg Reply.deleted hcount, hviews⟩

end ScopedStore
