import ScopedStore.Proofs.Ordered
import ScopedStore.Proofs.Outcome

/-!
# What a write at a path changes

Each of the three writers changes a document at its path or below it and nowhere else (`ChangedAt`). So what
stands at a path that is apart from it, neither above nor below, reads as before (`ChangedAt.at?_eq`), and a
path apart from it that could be set can still be set (`ChangedAt.exists_setAt`). A value that was set is
there to be read (`at?_setAt_self`).
-/

namespace ScopedStore

/-! ## Paths apart -/

namespace Path

theorem ofString_ne_nil (s : String) : ofString s ≠ [] := fun h =>
  splitDots_ne_nil s.toList (List.map_eq_nil_iff.1 h)

theorem ofString_idField : ofString Document.idField = [Document.idField] := by decide +kernel

/-- Neither path leads to or through the other. -/
def Apart (p q : Path) : Prop := ¬p <+: q ∧ ¬q <+: p

instance (p q : Path) : Decidable (p.Apart q) := inferInstanceAs (Decidable (_ ∧ _))

variable {p q : Path} {s t : String}

theorem Apart.symm (h : p.Apart q) : q.Apart p := ⟨h.2, h.1⟩

theorem not_apart_nil (q : Path) : ¬Apart [] q := fun h => h.1 List.nil_prefix

theorem Apart.ne_nil (h : p.Apart q) : q ≠ [] := by
  rintro rfl
  exact not_apart_nil p h.symm

theorem apart_cons_iff : Apart (s :: p) (s :: q) ↔ p.Apart q := by
  simp [Apart, List.cons_prefix_cons]

theorem Apart.ne_of_single (h : Apart [s] (t :: q)) : t ≠ s := by
  rintro rfl
  exact not_apart_nil q (apart_cons_iff.1 h)

end Path

namespace Document

variable {p q : Path} {s t : String} {d d' inner inner' : Document} {x v w : Value}

/-! ## Reading after a field is put or erased -/

theorem at?_cons (d : Document) (s : String) (q : Path) :
    (Value.document d).at? (s :: q) = (d.find? s).bind fun x => x.at? q := rfl

theorem at?_insert_self (d : Document) (s : String) (x : Value) (q : Path) :
    (Value.document (d.insert s x)).at? (s :: q) = x.at? q := by
  rw [at?_cons, SortedMap.find?_insert_self, Option.bind_some]

theorem at?_insert_of_ne (d : Document) (x : Value) (h : t ≠ s) (q : Path) :
    (Value.document (d.insert s x)).at? (t :: q) = (Value.document d).at? (t :: q) := by
  rw [at?_cons, at?_cons, SortedMap.find?_insert_of_ne _ _ h]

theorem at?_erase_of_ne (d : Document) (h : t ≠ s) (q : Path) :
    (Value.document (d.erase s)).at? (t :: q) = (Value.document d).at? (t :: q) := by
  rw [at?_cons, at?_cons, SortedMap.find?_erase_of_ne _ h]

/-! ## Entering a field -/

/-- The document that a write enters at a field: the one that stands there, or an empty one where nothing
stands. -/
def entered? (d : Document) (s : String) : Option Document :=
  match d.find? s with
  | none => some ∅
  | some (.document inner) => some inner
  | some _ => none

theorem entered?_congr (h : d'.find? t = d.find? t) : d'.entered? t = d.entered? t := by
  rw [entered?, entered?, h]

theorem entered?_insert_self (d : Document) (s : String) (inner : Document) :
    entered? (d.insert s (.document inner)) s = some inner := by
  rw [entered?, SortedMap.find?_insert_self]

theorem entered?_of_document (h : d.find? s = some (.document inner)) : d.entered? s = some inner := by
  rw [entered?, h]

/-- Reading below a field reads in the document that a write enters there. -/
theorem at?_entered (h : d.entered? s = some inner) (hq : q ≠ []) :
    (Value.document inner).at? q = (Value.document d).at? (s :: q) := by
  obtain ⟨t, q, rfl⟩ := List.exists_cons_of_ne_nil hq
  rw [at?_cons d]
  rw [entered?] at h
  split at h
  · rename_i hnone
    cases h
    rw [hnone]
    rfl
  · rename_i hinner
    cases h
    rw [hinner, Option.bind_some]
  · cases h

/-! ## Setting -/

theorem setAt_below (d : Document) (s : String) (hp : p ≠ []) (v : Value) :
    d.setAt (s :: p) v =
      match d.entered? s with
      | some inner => (inner.setAt p v).map fun inner => d.insert s (.document inner)
      | none => .error (.invalidUpdate (.notDocument s)) := by
  obtain ⟨t, p, rfl⟩ := List.exists_cons_of_ne_nil hp
  rw [setAt.eq_3 _ _ _ _ (List.cons_ne_nil t p), entered?]
  cases d.find? s with
  | none => rfl
  | some x => cases x <;> rfl

theorem setAt_below_eq_ok_iff (hp : p ≠ []) :
    d.setAt (s :: p) v = .ok d' ↔ ∃ inner inner', d.entered? s = some inner ∧
      inner.setAt p v = .ok inner' ∧ d' = d.insert s (.document inner') := by
  rw [setAt_below d s hp]
  cases d.entered? s with
  | none => simp
  | some inner =>
    refine map_eq_ok.trans ?_
    constructor
    · rintro ⟨inner', hset, rfl⟩
      exact ⟨inner, inner', rfl, hset, rfl⟩
    · rintro ⟨_, inner', hinner, hset, rfl⟩
      cases hinner
      exact ⟨inner', hset, rfl⟩

theorem exists_setAt_below_iff (hp : p ≠ []) :
    (∃ d', d.setAt (s :: p) v = .ok d') ↔
      ∃ inner, d.entered? s = some inner ∧ ∃ inner', inner.setAt p v = .ok inner' := by
  simp only [setAt_below_eq_ok_iff hp]
  constructor
  · rintro ⟨d', inner, inner', hinner, hset, -⟩
    exact ⟨inner, hinner, inner', hset⟩
  · rintro ⟨inner, hinner, inner', hset⟩
    exact ⟨_, inner, inner', hinner, hset, rfl⟩

/-- Whether a path can be set, and what the field at which it starts becomes, hangs on this field alone. -/
theorem setAt_congr (hfind : d'.find? s = d.find? s) {e : Document} (hset : d.setAt (s :: p) v = .ok e) :
    ∃ e', d'.setAt (s :: p) v = .ok e' ∧ e'.find? s = e.find? s := by
  by_cases hp : p = []
  · subst hp
    cases hset
    exact ⟨_, rfl, by rw [SortedMap.find?_insert_self, SortedMap.find?_insert_self]⟩
  · obtain ⟨inner, inner', hinner, hbelow, rfl⟩ := (setAt_below_eq_ok_iff hp).1 hset
    refine ⟨d'.insert s (.document inner'), ?_, ?_⟩
    · exact (setAt_below_eq_ok_iff hp).2 ⟨inner, inner', (entered?_congr hfind).trans hinner, hbelow,
        rfl⟩
    · rw [SortedMap.find?_insert_self, SortedMap.find?_insert_self]

theorem exists_setAt_congr (hfind : d'.find? t = d.find? t) (hset : ∃ e, d.setAt (t :: q) w = .ok e) :
    ∃ e, d'.setAt (t :: q) w = .ok e := by
  obtain ⟨e, hset⟩ := hset
  obtain ⟨e', hset', -⟩ := setAt_congr hfind hset
  exact ⟨e', hset'⟩

theorem exists_setAt_empty (p : Path) (v : Value) : ∃ d, setAt ∅ p v = .ok d := by
  induction p with
  | nil => exact ⟨_, rfl⟩
  | cons s p ih =>
    by_cases hp : p = []
    · subst hp
      exact ⟨_, rfl⟩
    · exact (exists_setAt_below_iff hp).2 ⟨∅, rfl, ih⟩

theorem at?_setAt_self (hp : p ≠ []) (h : d.setAt p v = .ok d') :
    (Value.document d').at? p = some v := by
  induction p generalizing d d' with
  | nil => exact absurd rfl hp
  | cons s p ih =>
    by_cases hrest : p = []
    · subst hrest
      cases h
      rw [at?_insert_self]
      rfl
    · obtain ⟨inner, inner', -, hset, rfl⟩ := (setAt_below_eq_ok_iff hrest).1 h
      rw [at?_insert_self]
      exact ih hrest hset

/-! ## Replacing and removing -/

theorem fieldAt?_congr (hfind : d'.find? s = d.find? s) (p : Path) :
    d'.fieldAt? (s :: p) = d.fieldAt? (s :: p) := by
  cases p with
  | nil => exact hfind
  | cons t p =>
    have hp := List.cons_ne_nil t p
    rw [fieldAt?.eq_3 _ _ _ hp, fieldAt?.eq_3 _ _ _ hp, hfind]

theorem find?_replaceAt_congr (hfind : d'.find? s = d.find? s) (p : Path) (v : Value) :
    (d'.replaceAt (s :: p) v).find? s = (d.replaceAt (s :: p) v).find? s := by
  have hcontains : d'.contains s = d.contains s := by rw [SortedMap.contains, SortedMap.contains, hfind]
  cases p with
  | nil =>
    rw [replaceAt, replaceAt, hcontains]
    split
    · rw [SortedMap.find?_insert_self, SortedMap.find?_insert_self]
    · exact hfind
  | cons t p =>
    have hp := List.cons_ne_nil t p
    rw [replaceAt.eq_3 _ _ _ _ hp, replaceAt.eq_3 _ _ _ _ hp, hfind]
    split
    · rw [SortedMap.find?_insert_self, SortedMap.find?_insert_self]
    · exact hfind

theorem find?_removeAt_congr (hfind : d'.find? s = d.find? s) (p : Path) :
    (d'.removeAt (s :: p)).find? s = (d.removeAt (s :: p)).find? s := by
  cases p with
  | nil => rw [removeAt, removeAt, SortedMap.find?_erase_self, SortedMap.find?_erase_self]
  | cons t p =>
    have hp := List.cons_ne_nil t p
    rw [removeAt.eq_3 _ _ _ hp, removeAt.eq_3 _ _ _ hp, hfind]
    split
    · rw [SortedMap.find?_insert_self, SortedMap.find?_insert_self]
    · exact hfind

/-! ## Changes at a path -/

/-- The second document is the first one but for what stands at the path or below it. -/
inductive ChangedAt : Path → Document → Document → Prop
  | same (p : Path) (d : Document) : ChangedAt p d d
  | put (d : Document) (s : String) (x : Value) : ChangedAt [s] d (d.insert s x)
  | erase (d : Document) (s : String) : ChangedAt [s] d (d.erase s)
  | enter {d inner inner' : Document} {s : String} {p : Path} (hs : d.entered? s = some inner)
      (h : ChangedAt p inner inner') : ChangedAt (s :: p) d (d.insert s (.document inner'))

theorem changedAt_setAt (h : d.setAt p v = .ok d') : ChangedAt p d d' := by
  induction p generalizing d d' with
  | nil =>
    cases h
    exact .same [] d
  | cons s p ih =>
    by_cases hp : p = []
    · subst hp
      cases h
      exact .put d s v
    · obtain ⟨inner, inner', hinner, hset, rfl⟩ := (setAt_below_eq_ok_iff hp).1 h
      exact .enter hinner (ih hset)

theorem changedAt_replaceAt (d : Document) (p : Path) (v : Value) : ChangedAt p d (d.replaceAt p v) := by
  fun_induction replaceAt d p v with
  | case1 d v => exact .same [] d
  | case2 d s v hs => exact .put d s v
  | case3 d s v hs => exact .same [s] d
  | case4 d s p v hp inner hinner ih => exact .enter (entered?_of_document hinner) ih
  | case5 d s p v hp hother => exact .same (s :: p) d

theorem changedAt_removeAt (d : Document) (p : Path) : ChangedAt p d (d.removeAt p) := by
  fun_induction removeAt d p with
  | case1 d => exact .same [] d
  | case2 d s => exact .erase d s
  | case3 d s p hp inner hinner ih => exact .enter (entered?_of_document hinner) ih
  | case4 d s p hp hother => exact .same (s :: p) d

namespace ChangedAt

/-- Fields at which the path of a change does not start stay. -/
theorem find?_of_ne (h : ChangedAt (s :: p) d d') (hts : t ≠ s) : d'.find? t = d.find? t := by
  cases h with
  | same => rfl
  | put d s x => exact SortedMap.find?_insert_of_ne d x hts
  | erase d s => exact SortedMap.find?_erase_of_ne d hts
  | enter hs h => exact SortedMap.find?_insert_of_ne d _ hts

theorem eq_of_blocked (h : ChangedAt (s :: p) d d') (hp : p ≠ []) (hs : d.entered? s = none) :
    d' = d := by
  cases h with
  | same => rfl
  | put | erase => exact absurd rfl hp
  | enter hs' h => cases hs.symm.trans hs'

theorem at?_eq (h : ChangedAt p d d') (hpq : p.Apart q) :
    (Value.document d').at? q = (Value.document d).at? q := by
  obtain ⟨t, q, rfl⟩ := List.exists_cons_of_ne_nil hpq.ne_nil
  induction h generalizing t q with
  | same => rfl
  | put d s x => exact at?_insert_of_ne d x hpq.ne_of_single q
  | erase d s => exact at?_erase_of_ne d hpq.ne_of_single q
  | @enter d inner inner' s p hs h ih =>
    by_cases hst : t = s
    · subst hst
      have hbelow := Path.apart_cons_iff.1 hpq
      have hq := hbelow.ne_nil
      rw [at?_insert_self, ← at?_entered hs hq]
      obtain ⟨u, q, rfl⟩ := List.exists_cons_of_ne_nil hq
      exact ih u q hbelow
    · exact at?_insert_of_ne d _ hst q

theorem exists_setAt (h : ChangedAt p d d') (hpq : p.Apart q)
    (hset : ∃ e, d.setAt q w = .ok e) : ∃ e, d'.setAt q w = .ok e := by
  induction h generalizing q with
  | same => exact hset
  | put d s x =>
    obtain ⟨t, q, rfl⟩ := List.exists_cons_of_ne_nil hpq.ne_nil
    exact exists_setAt_congr (SortedMap.find?_insert_of_ne d x hpq.ne_of_single) hset
  | erase d s =>
    obtain ⟨t, q, rfl⟩ := List.exists_cons_of_ne_nil hpq.ne_nil
    exact exists_setAt_congr (SortedMap.find?_erase_of_ne d hpq.ne_of_single) hset
  | @enter d inner inner' s p hs h ih =>
    obtain ⟨t, q, rfl⟩ := List.exists_cons_of_ne_nil hpq.ne_nil
    by_cases hst : t = s
    · subst hst
      have hbelow := Path.apart_cons_iff.1 hpq
      rw [exists_setAt_below_iff hbelow.ne_nil] at hset ⊢
      obtain ⟨target, htarget, hset⟩ := hset
      cases hs.symm.trans htarget
      exact ⟨inner', entered?_insert_self d t inner', ih hbelow hset⟩
    · exact exists_setAt_congr (SortedMap.find?_insert_of_ne d _ hst) hset

end ChangedAt

/-! ## Setting where nothing blocks the path -/

theorem changedAt_setPathIfFree (d : Document) (path : String) (v : Value) :
    ChangedAt (Path.ofString path) d (d.setPathIfFree path v) := by
  rw [setPathIfFree]
  split
  · rename_i d' hset
    exact changedAt_setAt hset
  · exact .same _ d

theorem getPath?_setPathIfFree_self {path : String} (hfree : ∃ e, d.setPath path v = .ok e) :
    (d.setPathIfFree path v).getPath? path = some v := by
  obtain ⟨e, hset⟩ := hfree
  rw [setPathIfFree, hset]
  exact at?_setAt_self (Path.ofString_ne_nil path) hset

end Document

end ScopedStore
