import ScopedStore.Operation
import ScopedStore.Proofs.Ordered
import ScopedStore.Proofs.Outcome

/-!
# What operations do not fail with

Stored bytes are decoded when a view is loaded and at no other time: whatever an operation does to a
loaded view, it never fails because bytes do not decode (`DocumentOp.run_ne_undecodable`).
-/

namespace ScopedStore

/-! ## Updates -/

theorem Document.setAt_ne_undecodable (d : Document) (path : Path) (v : Value) :
    d.setAt path v ≠ .error .undecodable := by
  fun_induction Document.setAt d path v with
  | case1 | case2 => rintro ⟨⟩
  | case3 d segment rest v _ _ ih | case4 d segment rest v _ inner _ ih =>
    exact bind_ne_error ih fun _ => by rintro ⟨⟩
  | case5 => rintro ⟨⟩

theorem UpdateOp.apply_ne_undecodable (op : UpdateOp) (d : Document) :
    op.apply d ≠ .error .undecodable := by
  cases op with
  | set field value =>
    rw [UpdateOp.apply]
    split
    · rintro ⟨⟩
    · exact d.setAt_ne_undecodable _ _
  | unset field =>
    rw [UpdateOp.apply]
    split <;> rintro ⟨⟩
  | increment field amount =>
    rw [UpdateOp.apply]
    split
    · split <;> rintro ⟨⟩
    · rintro ⟨⟩
    · exact d.setAt_ne_undecodable _ _
  | push field value =>
    rw [UpdateOp.apply]
    split
    · rintro ⟨⟩
    · rintro ⟨⟩
    · exact d.setAt_ne_undecodable _ _

theorem Update.runOps_ne_undecodable (ops : List UpdateOp) (d : Document) :
    (Update.runOps ops d).2 ≠ .error .undecodable := by
  induction ops generalizing d with
  | nil => rintro ⟨⟩
  | cons op rest ih =>
    rw [Update.runOps]
    split
    · exact ih _
    · rename_i e he
      exact error_ne_error (op.apply_ne_undecodable d) he

theorem Update.apply_ne_undecodable (u : Update) (d : Document) :
    u.apply d ≠ .error .undecodable := by
  have hrun := Update.runOps_ne_undecodable u.ops d
  rw [Update.apply]
  split
  · rintro ⟨⟩
  · rename_i e he
    rw [Update.run] at he
    rw [he] at hrun
    exact error_ne_error hrun rfl

theorem Update.check_ne_undecodable (u : Update) : u.check ≠ .error .undecodable := by
  rw [Update.check]
  split <;> rintro ⟨⟩

theorem Document.storedId_ne_undecodable (d : Document) : d.storedId ≠ .error .undecodable := by
  rw [Document.storedId]
  split <;> rintro ⟨⟩

/-! ## Writing to a view -/

namespace View

theorem checkUnique_ne_undecodable (v : View) (id : Value) (d : Document) (indexes : List Index) :
    v.checkUnique id d indexes ≠ .error .undecodable := by
  induction indexes with
  | nil => rintro ⟨⟩
  | cons i rest ih =>
    rw [checkUnique]
    split
    · rintro ⟨⟩
    · exact ih

theorem insert_ne_undecodable (v : View) (d : Document) : v.insert d ≠ .error .undecodable := by
  rw [View.insert]
  dsimp only
  split
  · rintro ⟨⟩
  · exact bind_ne_error (checkUnique_ne_undecodable _ _ _ _) fun _ => by rintro ⟨⟩

theorem replace_ne_undecodable (v : View) (id : Value) (d : Document) :
    v.replace id d ≠ .error .undecodable := by
  rw [View.replace]
  split
  · rintro ⟨⟩
  · exact bind_ne_error (checkUnique_ne_undecodable _ _ _ _) fun _ => by rintro ⟨⟩

theorem insertEach_ne_undecodable (docs : List Document) (v : View) :
    insertEach docs v ≠ .error .undecodable := by
  induction docs generalizing v with
  | nil => rintro ⟨⟩
  | cons d rest ih =>
    exact bind_ne_error (v.insert_ne_undecodable d) fun _ => bind_ne_error (ih _) fun _ => by rintro ⟨⟩

theorem updateEach_ne_undecodable (u : Update) (docs : List Document) (v : View) :
    updateEach u docs v ≠ .error .undecodable := by
  induction docs generalizing v with
  | nil => rintro ⟨⟩
  | cons old rest ih =>
    refine bind_ne_error (u.apply_ne_undecodable old) fun new => ?_
    split
    · exact ih v
    · refine bind_ne_error old.storedId_ne_undecodable fun id => ?_
      refine bind_ne_error (v.replace_ne_undecodable id new) fun v => ?_
      exact bind_ne_error (ih v) fun _ => by rintro ⟨⟩

theorem update_ne_undecodable (v : View) (f : Filter) (u : Update) (upsert multi : Bool) :
    v.update f u upsert multi ≠ .error .undecodable := by
  refine bind_ne_error u.check_ne_undecodable fun _ => ?_
  dsimp only
  generalize (if multi then v.matching f else (v.matching f).take 1) = targets
  split
  · refine bind_ne_error (u.apply_ne_undecodable _) fun d => ?_
    exact bind_ne_error (v.insert_ne_undecodable d) fun _ => by rintro ⟨⟩
  · exact bind_ne_error (updateEach_ne_undecodable u _ v) fun _ => by rintro ⟨⟩

theorem replaceFirst_ne_undecodable (v : View) (f : Filter) (d : Document) (upsert : Bool) :
    v.replaceFirst f d upsert ≠ .error .undecodable := by
  rw [replaceFirst]
  split
  · split
    · exact bind_ne_error (v.insert_ne_undecodable _) fun _ => by rintro ⟨⟩
    · rintro ⟨⟩
  · rename_i old _
    refine bind_ne_error old.storedId_ne_undecodable fun id => ?_
    exact bind_ne_error (v.replace_ne_undecodable id d) fun _ => by rintro ⟨⟩

theorem insertReturning_ne_undecodable (v : View) (d : Document) (returned : Returned) :
    v.insertReturning d returned ≠ .error .undecodable :=
  bind_ne_error (v.insert_ne_undecodable d) fun _ => by cases returned <;> rintro ⟨⟩

theorem modifyFirst_ne_undecodable (v : View) (f : Filter) (u : Update) (o : ModifyOptions) :
    v.modifyFirst f u o ≠ .error .undecodable := by
  rw [modifyFirst]
  split
  · split
    · refine bind_ne_error (u.apply_ne_undecodable _) fun d => ?_
      exact v.insertReturning_ne_undecodable d o.returned
    · rintro ⟨⟩
  · rename_i old _
    refine bind_ne_error (u.apply_ne_undecodable old) fun new => ?_
    refine bind_ne_error old.storedId_ne_undecodable fun id => ?_
    dsimp only
    split
    · rintro ⟨⟩
    · exact bind_ne_error (v.replace_ne_undecodable id new) fun _ => by rintro ⟨⟩

theorem exchangeFirst_ne_undecodable (v : View) (f : Filter) (d : Document) (o : ModifyOptions) :
    v.exchangeFirst f d o ≠ .error .undecodable := by
  rw [exchangeFirst]
  split
  · split
    · exact v.insertReturning_ne_undecodable _ o.returned
    · rintro ⟨⟩
  · rename_i old _
    refine bind_ne_error old.storedId_ne_undecodable fun id => ?_
    refine bind_ne_error (v.replace_ne_undecodable id d) fun v => ?_
    cases o.returned <;> rintro ⟨⟩

theorem removeFirst_ne_undecodable (v : View) (f : Filter) (o : ModifyOptions) :
    v.removeFirst f o ≠ .error .undecodable := by
  rw [removeFirst]
  split
  · rintro ⟨⟩
  · rename_i old _
    exact bind_ne_error old.storedId_ne_undecodable fun _ => by rintro ⟨⟩

theorem writeModel_ne_undecodable (narrow : Filter) (b : BulkReply) (v : View) (m : WriteModel) :
    writeModel narrow b v m ≠ .error .undecodable := by
  cases m with
  | insertOne d => exact bind_ne_error (v.insert_ne_undecodable d) fun _ => by rintro ⟨⟩
  | updateOne f u upsert | updateMany f u upsert =>
    exact bind_ne_error (v.update_ne_undecodable _ u upsert _) fun _ => by rintro ⟨⟩
  | replaceOne f d upsert =>
    exact bind_ne_error (v.replaceFirst_ne_undecodable _ d upsert) fun _ => by rintro ⟨⟩
  | deleteOne f | deleteMany f => rintro ⟨⟩

theorem writeModels_ne_undecodable (narrow : Filter) (models : List WriteModel) (b : BulkReply)
    (v : View) : writeModels narrow models b v ≠ .error .undecodable := by
  induction models generalizing b v with
  | nil => rintro ⟨⟩
  | cons m rest ih =>
    exact bind_ne_error (writeModel_ne_undecodable narrow b v m) fun _ => ih _ _

end View

/-! ## All operations -/

theorem DocumentOp.check_ne_undecodable (op : DocumentOp) : op.check ≠ .error .undecodable := by
  cases op with
  | findOneAndUpdate f u o => exact u.check_ne_undecodable
  | _ => rintro ⟨⟩

theorem DocumentOp.run_ne_undecodable (op : DocumentOp) (narrow : Filter) (v : View) :
    op.run narrow v ≠ .error .undecodable := by
  cases op with
  | insertOne d => exact bind_ne_error (v.insert_ne_undecodable d) fun _ => by rintro ⟨⟩
  | insertMany docs => exact bind_ne_error (View.insertEach_ne_undecodable docs v) fun _ => by rintro ⟨⟩
  | findOne f o | find f o | count f | distinct field f | aggregate stages => rintro ⟨⟩
  | replaceOne f d upsert =>
    exact bind_ne_error (v.replaceFirst_ne_undecodable _ d upsert) fun _ => by rintro ⟨⟩
  | updateOne f u upsert | updateMany f u upsert =>
    exact bind_ne_error (v.update_ne_undecodable _ u upsert _) fun _ => by rintro ⟨⟩
  | deleteOne f | deleteMany f => rintro ⟨⟩
  | findOneAndUpdate f u o =>
    exact bind_ne_error (v.modifyFirst_ne_undecodable _ u o) fun _ => by rintro ⟨⟩
  | findOneAndReplace f d o =>
    exact bind_ne_error (v.exchangeFirst_ne_undecodable _ d o) fun _ => by rintro ⟨⟩
  | findOneAndDelete f o =>
    exact bind_ne_error (v.removeFirst_ne_undecodable _ o) fun _ => by rintro ⟨⟩
  | bulkWrite models =>
    exact bind_ne_error (View.writeModels_ne_undecodable narrow models {} v) fun _ => by rintro ⟨⟩

end ScopedStore
