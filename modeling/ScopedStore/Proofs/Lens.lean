import ScopedStore.Proofs.Path

/-!
# Laws of reading and writing at paths

Reading enters documents and arrays, the writers enter documents only. So a value that a path reads is one that
the writers find there, unless the path leads through an array (`fieldAt?_eq_some_iff`); then removing it leaves
it where it is (`at?_removeAt_self`). A value can be put wherever nothing but documents stands on the way
(`exists_setAt_iff`).

The writers work in place. `writeAt` puts a value step by step and gives the document as it stands when the
write ends, which may be halfway down; that this is the outcome of `setAt`, or else the document as it was, is
`writeAt_eq`. `takeAt` gives the value that it takes out.
-/

namespace ScopedStore

/-! ## Paths above each other -/

namespace Path

variable {p q : Path} {s t : String}

/-- The first path leads to the second one, and ends before it. -/
def Above (q p : Path) : Prop := q <+: p ∧ q ≠ p

theorem not_above_nil (q : Path) : ¬q.Above [] := fun h => h.2 (List.prefix_nil.1 h.1)

theorem nil_above (hp : p ≠ []) : Above [] p := ⟨List.nil_prefix, hp.symm⟩

theorem above_cons_iff : Above (t :: q) (s :: p) ↔ t = s ∧ q.Above p := by
  rw [Above, Above, List.cons_prefix_cons, ne_eq, List.cons.injEq, not_and, and_assoc]
  exact and_congr_right fun h => and_congr_right fun _ => forall_prop_of_true h

theorem eq_nil_of_above_single (h : q.Above [s]) : q = [] := by
  cases q with
  | nil => rfl
  | cons t q => exact absurd (above_cons_iff.1 h).2 (not_above_nil q)

theorem apart_or_prefix_or_above (p q : Path) : p.Apart q ∨ p <+: q ∨ q.Above p := by
  by_cases hpq : p <+: q
  · exact .inr (.inl hpq)
  · by_cases hqp : q <+: p
    · exact .inr (.inr ⟨hqp, fun heq => hpq (heq ▸ List.prefix_rfl)⟩)
    · exact .inl ⟨hpq, hqp⟩

theorem above_iff : q.Above p ↔ ∃ n < p.length, p.take n = q := by
  constructor
  · rintro ⟨hqp, hne⟩
    have hlength : q.length < p.length :=
      Nat.lt_of_le_of_ne hqp.length_le fun heq => hne (hqp.eq_of_length heq)
    exact ⟨q.length, hlength, (List.prefix_iff_eq_take.1 hqp).symm⟩
  · rintro ⟨n, hn, rfl⟩
    refine ⟨List.take_prefix n p, fun heq => ?_⟩
    have hlength := congrArg List.length heq
    rw [List.length_take] at hlength
    omega

theorem exists_above_iff {P : Path → Prop} :
    (∃ q, q.Above p ∧ P q) ↔ ∃ n < p.length, P (p.take n) := by
  simp only [above_iff]
  constructor
  · rintro ⟨_, ⟨n, hn, rfl⟩, hP⟩
    exact ⟨n, hn, hP⟩
  · rintro ⟨n, hn, hP⟩
    exact ⟨_, ⟨n, hn, rfl⟩, hP⟩

theorem forall_above_iff {P : Path → Prop} :
    (∀ q, q.Above p → P q) ↔ ∀ n < p.length, P (p.take n) := by
  simp only [above_iff]
  constructor
  · intro hP n hn
    exact hP _ ⟨n, hn, rfl⟩
  · rintro hP _ ⟨n, hn, rfl⟩
    exact hP n hn

end Path

/-! ## Arrays on the way -/

namespace Value

variable {d : Document} {p q : Path} {s : String} {v x : Value}

theorem at?_append (v : Value) (p q : Path) : v.at? (p ++ q) = (v.at? p).bind fun x => x.at? q := by
  induction p generalizing v with
  | nil => rfl
  | cons s p ih =>
    rw [List.cons_append, at?, at?, Option.bind_assoc]
    exact congrArg _ (funext ih)

theorem at?_eq_of_prefix {w : Value} (hpq : p <+: q) (h : v.at? p = w.at? p) : v.at? q = w.at? q := by
  obtain ⟨r, rfl⟩ := hpq
  rw [at?_append, at?_append, h]

theorem exists_at?_of_prefix (hqp : q <+: p) (h : v.at? p = some x) : ∃ y, v.at? q = some y := by
  obtain ⟨r, rfl⟩ := hqp
  rw [at?_append] at h
  obtain ⟨y, hy, -⟩ := Option.bind_eq_some_iff.1 h
  exact ⟨y, hy⟩

def ArrayAt (v : Value) (p : Path) : Prop := ∃ items, v.at? p = some (.array items)

instance (v : Value) (p : Path) : Decidable (v.ArrayAt p) :=
  match h : v.at? p with
  | some (.array items) => isTrue ⟨items, h⟩
  | some .null | some (.bool _) | some (.integer _) | some (.text _) | some (.bytes _)
  | some (.document _) | none => isFalse fun ⟨_, harray⟩ => nomatch h.symm.trans harray

/-- An array stands above the end of the path. -/
def ThroughArray (v : Value) (p : Path) : Prop := ∃ q, q.Above p ∧ v.ArrayAt q

instance (v : Value) (p : Path) : Decidable (v.ThroughArray p) :=
  decidable_of_iff _ Path.exists_above_iff.symm

theorem not_throughArray_nil (v : Value) : ¬v.ThroughArray [] :=
  fun ⟨q, hq, _⟩ => Path.not_above_nil q hq

theorem throughArray_array (items : List Value) (hp : p ≠ []) : (array items).ThroughArray p :=
  ⟨[], Path.nil_above hp, items, rfl⟩

theorem throughArray_cons_iff :
    (document d).ThroughArray (s :: p) ↔ ∃ x, d.find? s = some x ∧ x.ThroughArray p := by
  constructor
  · rintro ⟨q, hq, items, hitems⟩
    cases q with
    | nil => cases hitems
    | cons t q =>
      obtain ⟨rfl, habove⟩ := Path.above_cons_iff.1 hq
      obtain ⟨x, hx, hitems⟩ := Option.bind_eq_some_iff.1 hitems
      exact ⟨x, hx, q, habove, items, hitems⟩
  · rintro ⟨x, hx, q, hq, items, hitems⟩
    refine ⟨s :: q, Path.above_cons_iff.2 ⟨rfl, hq⟩, items, ?_⟩
    rw [Document.at?_cons, hx, Option.bind_some, hitems]

theorem not_throughArray_single (d : Document) (s : String) : ¬(document d).ThroughArray [s] := by
  rw [throughArray_cons_iff]
  rintro ⟨x, -, hx⟩
  exact not_throughArray_nil x hx

end Value

namespace Document

variable {p q : Path} {s : String} {d d' inner : Document} {x v : Value}

/-- The writers find what reading finds, unless the path leads through an array. -/
theorem fieldAt?_eq_some_iff (hp : p ≠ []) : d.fieldAt? p = some x ↔
    (Value.document d).at? p = some x ∧ ¬(Value.document d).ThroughArray p := by
  induction p generalizing d with
  | nil => exact absurd rfl hp
  | cons s p ih =>
    by_cases hrest : p = []
    · subst hrest
      rw [fieldAt?, at?_cons, and_iff_left (Value.not_throughArray_single d s)]
      cases d.find? s <;> rfl
    · obtain ⟨t, r, hcons⟩ := List.exists_cons_of_ne_nil hrest
      rw [fieldAt?.eq_3 _ _ _ hrest, at?_cons, Value.throughArray_cons_iff]
      cases d.find? s with
      | none => simp
      | some y =>
        cases y with
        | document inner => simpa using ih hrest
        | array items => simp [Value.throughArray_array items hrest]
        | _ => simp [hcons, Value.at?, Value.step?]

/-! ## What the writers leave at the path -/

theorem at?_replaceAt_self (h : d.fieldAt? p = some x) (v : Value) :
    (Value.document (d.replaceAt p v)).at? p = some v := by
  fun_induction fieldAt? d p with
  | case1 => cases h
  | case2 d s =>
    rw [replaceAt, if_pos (SortedMap.contains_iff.2 ⟨x, h⟩), at?_insert_self]
    rfl
  | case3 d s p hp inner hinner ih =>
    rw [replaceAt.eq_3 _ _ _ _ hp, hinner, at?_insert_self]
    exact ih h
  | case4 => cases h

/-- What is removed is gone, but what stands in an array stays. -/
theorem at?_removeAt_self (hp : p ≠ []) : (Value.document (d.removeAt p)).at? p =
    if (Value.document d).ThroughArray p then (Value.document d).at? p else none := by
  induction p generalizing d with
  | nil => exact absurd rfl hp
  | cons s p ih =>
    by_cases hrest : p = []
    · subst hrest
      rw [if_neg (Value.not_throughArray_single d s), removeAt, at?_cons, SortedMap.find?_erase_self]
      rfl
    · obtain ⟨t, r, hcons⟩ := List.exists_cons_of_ne_nil hrest
      rw [removeAt.eq_3 _ _ _ hrest]
      simp only [Value.throughArray_cons_iff]
      cases hfind : d.find? s with
      | none => simp [at?_cons, hfind]
      | some y =>
        cases y with
        | document inner => simp [at?_cons, hfind, ih hrest]
        | array items => simp [Value.throughArray_array items hrest]
        | _ => simp [hfind, hcons, Value.at?, Value.step?]

/-! ## Where a value can be set -/

theorem exists_entered?_iff : (∃ inner, d.entered? s = some inner) ↔
    ∀ x, d.find? s = some x → ∃ inner, x = .document inner := by
  rw [entered?]
  cases d.find? s with
  | none => simp
  | some x => cases x <;> simp

theorem eq_document_of_entered (hs : d.entered? s = some inner) (hx : d.find? s = some x) :
    x = .document inner := by
  rw [entered?, hx] at hs
  cases x <;> cases hs
  rfl

theorem exists_document_of_setAt (h : d.setAt p v = .ok d') (hqp : q.Above p) :
    ∃ inner, (Value.document d').at? q = some (.document inner) := by
  induction p generalizing d d' q with
  | nil => exact absurd hqp (Path.not_above_nil q)
  | cons s p ih =>
    cases q with
    | nil => exact ⟨d', rfl⟩
    | cons t q =>
      obtain ⟨rfl, habove⟩ := Path.above_cons_iff.1 hqp
      have hp : p ≠ [] := fun hp => Path.not_above_nil q (hp ▸ habove)
      obtain ⟨inner, inner', -, hset, rfl⟩ := (setAt_below_eq_ok_iff hp).1 h
      rw [at?_insert_self]
      exact ih hset habove

/-- Nothing but documents stands above the end of the path. -/
def Free (d : Document) (p : Path) : Prop :=
  ∀ q, q.Above p → ∀ x, (Value.document d).at? q = some x → ∃ inner, x = .document inner

theorem free_single (d : Document) (s : String) : d.Free [s] := by
  intro q hq x hx
  cases Path.eq_nil_of_above_single hq
  cases hx
  exact ⟨d, rfl⟩

theorem free_cons_iff (hp : p ≠ []) :
    d.Free (s :: p) ↔ ∃ inner, d.entered? s = some inner ∧ inner.Free p := by
  constructor
  · intro h
    have hfield (x : Value) (hx : d.find? s = some x) : ∃ inner, x = .document inner :=
      h [s] (Path.above_cons_iff.2 ⟨rfl, Path.nil_above hp⟩) x (by rw [at?_cons, hx]; rfl)
    obtain ⟨inner, hinner⟩ := exists_entered?_iff.2 hfield
    refine ⟨inner, hinner, fun q hq x hx => ?_⟩
    by_cases hnil : q = []
    · subst hnil
      cases hx
      exact ⟨inner, rfl⟩
    · rw [at?_entered hinner hnil] at hx
      exact h (s :: q) (Path.above_cons_iff.2 ⟨rfl, hq⟩) x hx
  · rintro ⟨inner, hinner, h⟩ q hq x hx
    cases q with
    | nil =>
      cases hx
      exact ⟨d, rfl⟩
    | cons t q =>
      obtain ⟨rfl, habove⟩ := Path.above_cons_iff.1 hq
      by_cases hnil : q = []
      · subst hnil
        obtain ⟨y, hy, hyx⟩ := Option.bind_eq_some_iff.1 hx
        cases hyx
        exact ⟨inner, eq_document_of_entered hinner hy⟩
      · rw [← at?_entered hinner hnil] at hx
        exact h q habove x hx

/-- A value can be set where the path is free. -/
theorem exists_setAt_iff : (∃ d', d.setAt p v = .ok d') ↔ d.Free p := by
  induction p generalizing d with
  | nil => exact ⟨fun _ q hq => absurd hq (Path.not_above_nil q), fun _ => ⟨d, rfl⟩⟩
  | cons s p ih =>
    by_cases hp : p = []
    · subst hp
      exact ⟨fun _ => free_single d s, fun _ => ⟨_, rfl⟩⟩
    · rw [exists_setAt_below_iff hp, free_cons_iff hp]
      exact exists_congr fun inner => and_congr_right fun _ => ih

theorem eq_of_setAt_self (hd : d.Ordered) (h : d.setAt p v = .ok d')
    (hv : (Value.document d).at? p = some v) : d' = d := by
  induction p generalizing d d' with
  | nil =>
    cases h
    rfl
  | cons s p ih =>
    rw [at?_cons] at hv
    obtain ⟨x, hx, hv⟩ := Option.bind_eq_some_iff.1 hv
    by_cases hp : p = []
    · subst hp
      cases h
      cases hv
      exact hd.sorted.insert_eq_self hx
    · obtain ⟨inner, inner', hinner, hset, rfl⟩ := (setAt_below_eq_ok_iff hp).1 h
      cases eq_document_of_entered hinner hx
      rw [ih (hd.of_find? hx) hset hv]
      exact hd.sorted.insert_eq_self hx

/-! ## Writing in place -/

/-- Puts a value at a path step by step, and gives the document as it stands when the write ends. A document
that is missing on the way is made before it is entered. -/
def writeAt : Document → Path → Value → Document × Except StoreError Unit
  | d, [], _ => (d, .ok ())
  | d, [segment], v => (d.insert segment v, .ok ())
  | d, segment :: rest, v =>
    let made := if d.contains segment then d else d.insert segment (.document ∅)
    match made.find? segment with
    | some (.document inner) =>
      let (inner, outcome) := writeAt inner rest v
      (made.insert segment (.document inner), outcome)
    | _ => (made, .error (.invalidUpdate (.notDocument segment)))

/-- Takes the value at a path through documents out, and gives it with the document that is left. -/
def takeAt : Document → Path → Option Value × Document
  | d, [] => (none, d)
  | d, [segment] => (d.find? segment, d.erase segment)
  | d, segment :: rest =>
    match d.find? segment with
    | some (.document inner) =>
      let (taken, inner) := takeAt inner rest
      (taken, d.insert segment (.document inner))
    | _ => (none, d)

def settle (d : Document) : Except StoreError Document → Document × Except StoreError Unit
  | .ok d' => (d', .ok ())
  | .error e => (d, .error e)

/-- A write that fails has made nothing on its way: below a document that it makes nothing can block it. -/
theorem writeAt_eq (hd : d.Ordered) (p : Path) (v : Value) : d.writeAt p v = d.settle (d.setAt p v) := by
  induction p generalizing d with
  | nil => rfl
  | cons s p ih =>
    by_cases hp : p = []
    · subst hp
      rfl
    · rw [writeAt.eq_3 _ _ _ _ hp, setAt_below d s hp, entered?]
      cases hfind : d.find? s with
      | none =>
        -- the document is made, and in an empty one nothing blocks the rest of the path
        obtain ⟨inner, hset⟩ := exists_setAt_empty p v
        simp only [SortedMap.contains_eq_false_iff.2 hfind, Bool.false_eq_true, if_false,
          SortedMap.find?_insert_self, ih ordered_empty, hset, settle, Except.map,
          hd.sorted.insert_insert]
      | some x =>
        simp only [SortedMap.contains_iff.2 ⟨x, hfind⟩, if_true, hfind]
        cases x with
        | document inner =>
          simp only [ih (hd.of_find? hfind)]
          cases setAt inner p v with
          | ok inner' => rfl
          | error e => simp only [settle, Except.map, hd.sorted.insert_eq_self hfind]
        | _ => rfl

theorem takeAt_eq (d : Document) (p : Path) : d.takeAt p = (d.fieldAt? p, d.removeAt p) := by
  induction p generalizing d with
  | nil => rfl
  | cons s p ih =>
    by_cases hp : p = []
    · subst hp
      rfl
    · rw [takeAt.eq_3 _ _ _ hp, fieldAt?.eq_3 _ _ _ hp, removeAt.eq_3 _ _ _ hp]
      cases d.find? s with
      | none => rfl
      | some x =>
        cases x with
        | document inner => simp only [ih]
        | _ => rfl

theorem removeAt_eq_self (hd : d.Ordered) (h : d.fieldAt? p = none) : d.removeAt p = d := by
  induction p generalizing d with
  | nil => rfl
  | cons s p ih =>
    by_cases hp : p = []
    · subst hp
      exact SortedMap.erase_eq_self h
    · rw [fieldAt?.eq_3 _ _ _ hp] at h
      rw [removeAt.eq_3 _ _ _ hp]
      cases hfind : d.find? s with
      | none => rfl
      | some x =>
        cases x with
        | document inner =>
          rw [hfind] at h
          simp only [ih (hd.of_find? hfind) h]
          exact hd.sorted.insert_eq_self hfind
        | _ => rfl

/-! ## Dotted texts -/

def writePath (d : Document) (path : String) (v : Value) : Document × Except StoreError Unit :=
  d.writeAt (Path.ofString path) v

def takePath (d : Document) (path : String) : Option Value × Document := d.takeAt (Path.ofString path)

/-- The documents read the same at every dotted path that is apart from a given one. -/
def SameApart (path : String) (d d' : Document) : Prop :=
  ∀ other, (Path.ofString path).Apart (Path.ofString other) → d'.getPath? other = d.getPath? other

theorem ChangedAt.sameApart {path : String} (h : ChangedAt (Path.ofString path) d d') :
    SameApart path d d' :=
  fun _ hother => h.at?_eq hother

/-- The laws of dotted paths. A value that was put at a path is read there, and a put that fails leaves the
document; it fails where something else than a document stands on the way. A value that the writers find is the
one that is read, and is found unless the path leads through an array; once it is replaced the new value is
read. A value that is taken out is the one that was read, and the path reads nothing then; where none is found
the document stays. None of this changes what is read apart from the path. -/
theorem paths_read_as_written {d : Document} (hd : d.Ordered) (path : String) (v : Value) :
    (d.setPath path v = (d.writePath path v).2.map (fun _ => (d.writePath path v).1) ∧
      (∀ d', d.writePath path v = (d', .ok ()) → d'.getPath? path = some v ∧ SameApart path d d') ∧
      (∀ d' e, d.writePath path v = (d', .error e) → d' = d) ∧
      ((d.writePath path v).2 = .ok () ↔ d.Free (Path.ofString path))) ∧
    (∀ x, (d.fieldPath? path = some x ↔ d.getPath? path = some x ∧
          ¬(Value.document d).ThroughArray (Path.ofString path)) ∧
        (d.fieldPath? path = some x → (d.replacePath path v).getPath? path = some v ∧
          SameApart path d (d.replacePath path v))) ∧
    (d.takePath path = (d.fieldPath? path, d.removePath path) ∧
      (∀ x d', d.takePath path = (some x, d') →
        d.getPath? path = some x ∧ d'.getPath? path = none ∧ SameApart path d d') ∧
      ∀ d', d.takePath path = (none, d') → d' = d) := by
  have hpath := Path.ofString_ne_nil path
  have hwrite : d.writePath path v = d.settle (d.setPath path v) := writeAt_eq hd _ v
  have htake : d.takePath path = (d.fieldPath? path, d.removePath path) := takeAt_eq d _
  have hfound (x : Value) : d.fieldPath? path = some x ↔ d.getPath? path = some x ∧
      ¬(Value.document d).ThroughArray (Path.ofString path) := fieldAt?_eq_some_iff hpath
  refine ⟨⟨?_, ?_, ?_, ?_⟩, fun x => ⟨hfound x, fun hx => ⟨?_, ?_⟩⟩, htake, ?_, ?_⟩
  · rw [hwrite]
    cases d.setPath path v <;> rfl
  · intro d' hput
    rw [hwrite] at hput
    cases hset : d.setPath path v <;> rw [hset] at hput <;> cases hput
    exact ⟨at?_setAt_self hpath hset, (changedAt_setAt hset).sameApart⟩
  · intro d' e hput
    rw [hwrite] at hput
    cases hset : d.setPath path v <;> rw [hset] at hput <;> cases hput
    rfl
  · rw [← exists_setAt_iff (v := v), hwrite, ← setPath]
    cases d.setPath path v <;> simp [settle]
  · exact at?_replaceAt_self hx v
  · exact (changedAt_replaceAt d _ v).sameApart
  · intro x d' htaken
    rw [htake, Prod.mk.injEq] at htaken
    obtain ⟨hx, rfl⟩ := htaken
    obtain ⟨hread, hthrough⟩ := (hfound x).1 hx
    exact ⟨hread, (at?_removeAt_self hpath).trans (if_neg hthrough),
      (changedAt_removeAt d _).sameApart⟩
  · intro d' htaken
    rw [htake, Prod.mk.injEq] at htaken
    obtain ⟨hx, rfl⟩ := htaken
    exact removeAt_eq_self hd hx

def profile : Document :=
  ⟨[("address", .document (single "city" (.text "Oslo"))), ("tags", .array [.text "new"])]⟩

theorem ordered_profile : profile.Ordered := by
  have haddress : (single "city" (.text "Oslo")).Ordered := ordered_iff.2
    ⟨List.pairwise_singleton _ _, fun e he => by rw [List.mem_singleton.1 he]; trivial⟩
  exact ordered_pair (by decide) haddress ⟨trivial, trivial⟩

theorem paths_read_as_written_profile :
    profile.Ordered ∧
      (∃ d', profile.writePath "address.zip.code" .null = (d', .ok ()) ∧
        d'.getPath? "address.zip.code" = some .null ∧ SameApart "address.zip.code" profile d') ∧
      profile.writePath "tags.0" .null = (profile, .error (.invalidUpdate (.notDocument "tags"))) ∧
      ∃ d', profile.takePath "address.city" = (some (.text "Oslo"), d') ∧
        d'.getPath? "address.city" = none ∧ SameApart "address.city" profile d' := by
  obtain ⟨⟨-, hwritten, -⟩, -⟩ := paths_read_as_written ordered_profile "address.zip.code" .null
  obtain ⟨⟨-, -, hrefused, -⟩, -⟩ := paths_read_as_written ordered_profile "tags.0" .null
  obtain ⟨-, -, -, htaken, -⟩ := paths_read_as_written ordered_profile "address.city" .null
  have herror : (profile.writePath "tags.0" .null).2 = .error (.invalidUpdate (.notDocument "tags")) := by
    rfl
  have hput : (profile.writePath "address.zip.code" .null).2 = .ok () := by rfl
  have hcity : (profile.takePath "address.city").1 = some (.text "Oslo") := by decide +kernel
  refine ⟨ordered_profile, ⟨_, Prod.ext rfl hput, hwritten _ (Prod.ext rfl hput)⟩,
    Prod.ext (hrefused _ _ (Prod.ext rfl herror)) herror, _, Prod.ext hcity rfl, ?_⟩
  exact (htaken _ _ (Prod.ext hcity rfl)).2

end Document

end ScopedStore
