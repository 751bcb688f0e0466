import ScopedStore.Proofs.Seed

/-!
# What an update makes of the identifier

Only operators that write at the identifying field or below it change the identifier, and what they make of
it hangs on nothing else in the document. So the identifier after an update is the one that these operators
make of it by themselves (`id?_apply_eq`). Setting it to another value and removing it are refused; counting
it up, appending to it and writing inside it are not, so it is sure to stay only where it is a value that
none of these can change, or where the operators do nothing with it but set it (`id?_apply_of_kept`).
-/

namespace ScopedStore

open Document (idField)

variable {d d' e : Document} {id id' : Value} {u : Update} {op : UpdateOp}

namespace UpdateOp

/-- The operator writes at the identifying field or below it. -/
def reachesId (op : UpdateOp) : Bool := (Path.ofString op.field).head? == some idField

/-- The operator does nothing with the identifying field, or sets it. -/
def OnlySetsId (op : UpdateOp) : Prop := op.reachesId = true → ∃ value, op = .set idField value

end UpdateOp

namespace Update

def onId (u : Update) : Update := ⟨u.ops.filter UpdateOp.reachesId⟩

/-- What the operators that reach the identifier make of it by themselves, where they all apply. -/
def idAfter? (u : Update) (id : Value) : Option Value :=
  match u.onId.apply (Document.single idField id) with
  | .ok d => d.id?
  | .error _ => none

/-- The operators that reach the identifier all apply to it by themselves, and give it back. -/
def KeepsId (u : Update) (id : Value) : Prop := u.idAfter? id = some id

instance (u : Update) (id : Value) : Decidable (u.KeepsId id) := inferInstanceAs (Decidable (_ = _))

end Update

/-- The value can be neither counted up nor appended to, and nothing can be written inside it. -/
def Value.isFixed : Value → Bool
  | .integer _ | .array _ | .document _ => false
  | _ => true

theorem Document.id?_single (id : Value) : (Document.single idField id).id? = some id := by
  simp [Document.id?, Document.single, SortedMap.find?, SortedMap.findIn?]

/-! ## One operator -/

namespace Document

variable {field : String} {p : Path} (hpath : Path.ofString field = idField :: p) (hid : e.id? = d.id?)
include hpath hid

theorem fieldPath?_congr : e.fieldPath? field = d.fieldPath? field := by
  rw [fieldPath?, fieldPath?, hpath]
  exact fieldAt?_congr hid p

theorem setPath_congr {v : Value} (hset : d.setPath field v = .ok d') :
    ∃ e', e.setPath field v = .ok e' ∧ e'.id? = d'.id? := by
  rw [setPath, hpath] at hset ⊢
  exact setAt_congr hid hset

theorem id?_replacePath_congr (v : Value) : (e.replacePath field v).id? = (d.replacePath field v).id? := by
  rw [replacePath, replacePath, hpath]
  exact find?_replaceAt_congr hid p v

end Document

namespace UpdateOp

theorem exists_ofString_field (h : op.reachesId = true) :
    ∃ p, Path.ofString op.field = idField :: p := by
  obtain ⟨s, p, hpath⟩ := List.exists_cons_of_ne_nil (Path.ofString_ne_nil op.field)
  simp only [reachesId, hpath, List.head?_cons, beq_iff_eq, Option.some.injEq] at h
  exact ⟨p, h ▸ hpath⟩

theorem id?_apply_of_elsewhere (h : op.reachesId = false) (hd : op.apply d = .ok d') :
    d'.id? = d.id? := by
  have hchanged := changedAt_apply hd
  obtain ⟨s, p, hpath⟩ := List.exists_cons_of_ne_nil (Path.ofString_ne_nil op.field)
  rw [hpath] at hchanged
  apply hchanged.find?_of_ne
  rintro rfl
  simp [reachesId, hpath] at h

/-- What an operator makes of the identifier, and whether it applies where it reaches it, hangs on the
identifier alone. -/
theorem apply_congr (h : op.reachesId = true) (hid : e.id? = d.id?) (hd : op.apply d = .ok d') :
    ∃ e', op.apply e = .ok e' ∧ e'.id? = d'.id? := by
  obtain ⟨p, hpath⟩ := exists_ofString_field h
  cases op with
  | set field value =>
    rw [UpdateOp.apply] at hd ⊢
    rw [hid]
    split at hd
    · cases hd
    · rename_i hguard
      rw [if_neg hguard]
      exact Document.setPath_congr hpath hid hd
  | unset field =>
    change Path.ofString field = idField :: p at hpath
    rw [UpdateOp.apply] at hd ⊢
    split at hd <;> cases hd
    rename_i hguard
    refine ⟨_, if_neg hguard, ?_⟩
    rw [Document.removePath, Document.removePath, hpath]
    exact Document.find?_removeAt_congr hid p
  | increment field amount =>
    change Path.ofString field = idField :: p at hpath
    simp only [UpdateOp.apply] at hd ⊢
    -- both documents show the same at the path, so the operator takes one branch on both
    rw [Document.fieldPath?_congr hpath hid]
    cases hfound : d.fieldPath? field with
    | none =>
      simp only [hfound] at hd ⊢
      exact Document.setPath_congr hpath hid hd
    | some found =>
      cases found with
      | integer n =>
        simp only [hfound] at hd ⊢
        split at hd <;> cases hd
        exact ⟨_, rfl, Document.id?_replacePath_congr hpath hid _⟩
      | _ =>
        simp only [hfound] at hd
        cases hd
  | push field value =>
    change Path.ofString field = idField :: p at hpath
    simp only [UpdateOp.apply] at hd ⊢
    rw [Document.fieldPath?_congr hpath hid]
    cases hfound : d.fieldPath? field with
    | none =>
      simp only [hfound] at hd ⊢
      exact Document.setPath_congr hpath hid hd
    | some found =>
      cases found with
      | array items =>
        simp only [hfound] at hd ⊢
        cases hd
        exact ⟨_, rfl, Document.id?_replacePath_congr hpath hid _⟩
      | _ =>
        simp only [hfound] at hd
        cases hd

theorem id?_apply_of_onlySets (h : op.OnlySetsId) (hid : d.id? = some id)
    (hd : op.apply d = .ok d') : d'.id? = some id := by
  cases hreaches : op.reachesId with
  | false => exact (id?_apply_of_elsewhere hreaches hd).trans hid
  | true =>
    obtain ⟨value, rfl⟩ := h hreaches
    rw [UpdateOp.apply] at hd
    split at hd
    · cases hd
    · rename_i hguard
      have hvalue : id = value := by simpa [hid] using hguard
      rw [Document.setPath, Path.ofString_idField] at hd
      cases hd
      exact hvalue ▸ SortedMap.find?_insert_self _ _ _

/-- No operator that applies changes a fixed identifier: one that reaches the field itself finds nothing to
count up or append to, and one that reaches below it is blocked. -/
theorem id?_apply_of_fixed (hfixed : id.isFixed = true) (hid : d.id? = some id)
    (hd : op.apply d = .ok d') : d'.id? = some id := by
  cases hreaches : op.reachesId with
  | false => exact (id?_apply_of_elsewhere hreaches hd).trans hid
  | true =>
    obtain ⟨p, hpath⟩ := exists_ofString_field hreaches
    by_cases hp : p = []
    · subst hp
      have hfield := Path.ofString_eq_single hpath
      have hfound : d.fieldPath? op.field = some id := by
        rw [Document.fieldPath?, hpath]
        exact hid
      cases op with
      | set field value =>
        have honly : OnlySetsId (.set field value) := fun _ => ⟨value, congrArg (set · value) hfield⟩
        exact id?_apply_of_onlySets honly hid hd
      | unset field => simp [UpdateOp.apply, show field = idField from hfield] at hd
      | increment field amount =>
        simp only [UpdateOp.apply, show d.fieldPath? field = some id from hfound] at hd
        cases id with
        | integer n => cases hfixed
        | _ => cases hd
      | push field value =>
        simp only [UpdateOp.apply, show d.fieldPath? field = some id from hfound] at hd
        cases id with
        | array items => cases hfixed
        | _ => cases hd
    · have hchanged := changedAt_apply hd
      rw [hpath] at hchanged
      have hblocked : d.entered? idField = none := by
        rw [Document.entered?, ← Document.id?, hid]
        cases id <;> first | rfl | cases hfixed
      rw [hchanged.eq_of_blocked hp hblocked, hid]

end UpdateOp

/-! ## All operators -/

namespace Update

theorem runOps_onId {ops : List UpdateOp} (hid : e.id? = d.id?) (hd : runOps ops d = (d', .ok ())) :
    ∃ e', runOps (ops.filter UpdateOp.reachesId) e = (e', .ok ()) ∧ e'.id? = d'.id? := by
  induction ops generalizing d e with
  | nil =>
    cases hd
    exact ⟨e, rfl, hid⟩
  | cons op rest ih =>
    rw [runOps] at hd
    split at hd
    · rename_i d₁ hop
      cases hreaches : op.reachesId with
      | false =>
        rw [List.filter_cons_of_neg (by simp [hreaches])]
        exact ih (hid.trans (op.id?_apply_of_elsewhere hreaches hop).symm) hd
      | true =>
        obtain ⟨e₁, hop', hid'⟩ := op.apply_congr hreaches hid hop
        rw [List.filter_cons_of_pos hreaches, runOps, hop']
        exact ih hid' hd
    · cases hd

/-- After an update the identifier is what the operators that reach it make of it by themselves. -/
theorem id?_apply_eq (hid : d.id? = some id) (hd : u.apply d = .ok d') : d'.id? = u.idAfter? id := by
  rw [Update.apply] at hd
  split at hd <;> cases hd
  rename_i hrun
  obtain ⟨e', hrun', hid'⟩ := runOps_onId ((Document.id?_single id).trans hid.symm) hrun
  rw [idAfter?, Update.apply, run, onId, hrun']
  exact hid'.symm

theorem id?_apply_of_kept (h : id.isFixed = true ∨ ∀ op ∈ u.ops, op.OnlySetsId) (hid : d.id? = some id)
    (hd : u.apply d = .ok d') : d'.id? = some id := by
  refine apply_induction (P := fun d => d.id? = some id) hid ?_ hd
  intro op hop d₁ d₂ hid happly
  rcases h with hfixed | honly
  · exact op.id?_apply_of_fixed hfixed hid happly
  · exact op.id?_apply_of_onlySets (honly op hop) hid happly

end Update

end ScopedStore
