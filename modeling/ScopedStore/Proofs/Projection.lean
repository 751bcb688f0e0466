import Mathlib.Data.List.Basic
import ScopedStore.Proofs.Lens
import ScopedStore.Query

/-!
# What a projection keeps

A projection copies the identifying field and then the listed fields, one after the other, into an empty
document (`project_eq`). Whatever the copy reads lies within a field that is copied, and is what stands there, or
it is a document on the way to such a field (`Copied`). So a field that cannot be put in is blocked by a value
that was copied as it is, and is read inside that one; and a field that is put in later finds its own value where
another field brought it along. That is why no listed field is lost (`project_keeps_fields`).

On the way to a field there may have been an array. The copy has a document there, unless the array lies within a
field that is copied itself (`project_keeps_kinds_iff`).
-/

namespace ScopedStore

open Document (idField)

variable {fields : List String} {f g : String} {p q : Path} {d out out' : Document} {x y v : Value}

/-! ## Dotted texts for parts of a path -/

namespace Path

theorem exists_splitDots_eq {cs : List Char} {l r : List (List Char)} (hl : l ≠ [])
    (h : splitDots cs = l ++ r) : ∃ cs', splitDots cs' = l := by
  induction cs generalizing l with
  | nil =>
    obtain ⟨segment, l, rfl⟩ := List.exists_cons_of_ne_nil hl
    rw [splitDots, List.cons_append, List.cons.injEq] at h
    exact ⟨[], by rw [splitDots, ← h.1, (List.append_eq_nil_iff.1 h.2.symm).1]⟩
  | cons c rest ih =>
    obtain ⟨segment, l, rfl⟩ := List.exists_cons_of_ne_nil hl
    rw [splitDots] at h
    split at h
    · rename_i hdot
      rw [List.cons_append, List.cons.injEq] at h
      obtain ⟨rfl, h⟩ := h
      by_cases hempty : l = []
      · exact ⟨[], by rw [splitDots, hempty]⟩
      · obtain ⟨cs', hcs'⟩ := ih hempty h
        exact ⟨c :: cs', by rw [splitDots, if_pos hdot, hcs']⟩
    · rename_i hdot
      split at h
      · rename_i hnil
        exact absurd hnil (splitDots_ne_nil rest)
      · rename_i first segments hrest
        rw [List.cons_append, List.cons.injEq] at h
        obtain ⟨rfl, rfl⟩ := h
        obtain ⟨cs', hcs'⟩ := ih (List.cons_ne_nil first l) hrest
        exact ⟨c :: cs', by rw [splitDots, if_neg hdot, hcs']⟩

theorem exists_ofString_eq (hq : q ≠ []) (h : q <+: ofString f) : ∃ s, ofString s = q := by
  obtain ⟨r, hr⟩ := h
  obtain ⟨l, l', hsplit, rfl, -⟩ := List.map_eq_append_iff.1 hr.symm
  obtain ⟨cs, hcs⟩ := exists_splitDots_eq (fun hl => hq (by rw [hl]; rfl)) hsplit
  exact ⟨String.ofList cs, by rw [ofString, String.toList_ofList, hcs]⟩

end Path

/-! ## Copying field by field -/

namespace Document

theorem getPath?_idField (d : Document) : d.getPath? idField = d.id? := by
  rw [getPath?, Path.ofString_idField, at?_cons, id?]
  cases d.find? idField <;> rfl

/-- Copies the value at a dotted path, as far as it is there and nothing blocks the path. -/
def copyField (d out : Document) (field : String) : Document :=
  match d.getPath? field with
  | some v => out.setPathIfFree field v
  | none => out

theorem copyField_cases (d out : Document) (f : String) :
    (∃ v, d.getPath? f = some v ∧ out.setAt (Path.ofString f) v = .ok (d.copyField out f)) ∨
      d.copyField out f = out ∧ (d.getPath? f = none ∨ ¬out.Free (Path.ofString f)) := by
  rw [copyField]
  cases d.getPath? f with
  | none => exact .inr ⟨rfl, .inl rfl⟩
  | some v =>
    simp only [setPathIfFree]
    cases hset : out.setPath f v with
    | ok out' => exact .inl ⟨v, rfl, hset⟩
    | error e =>
      refine .inr ⟨rfl, .inr fun hfree => ?_⟩
      obtain ⟨out', hset'⟩ := exists_setAt_iff.2 hfree
      cases hset.symm.trans hset'

end Document

open Document (copyField)

theorem project_eq (fields : List String) (d : Document) :
    project fields d = (idField :: fields).foldl d.copyField ∅ := by
  have hstart : d.copyField ∅ idField =
      match d.id? with
      | some v => Document.single idField v
      | none => ∅ := by
    rw [copyField, Document.getPath?_idField]
    cases d.id? with
    | none => rfl
    | some v =>
      simp only [Document.setPathIfFree, Document.setPath, Path.ofString_idField]
      rfl
  rw [List.foldl_cons, hstart]
  rfl

/-- What each copy keeps is kept by a projection. -/
theorem project_induction {P : Document → Prop} (hempty : P ∅)
    (hstep : ∀ out, P out → ∀ f ∈ idField :: fields, P (d.copyField out f)) : P (project fields d) := by
  rw [project_eq]
  exact List.foldlRecOn _ _ hempty hstep

theorem ordered_copyField (hd : d.Ordered) (hout : out.Ordered) (f : String) :
    (d.copyField out f).Ordered := by
  rcases d.copyField_cases out f with ⟨v, hv, hset⟩ | ⟨hsame, -⟩
  · exact hout.setAt (hd.getPath? hv) hset
  · rwa [hsame]

/-! ## What a copy reads -/

/-- The path leads to a field of the list, or into one. -/
def Covered (fields : List String) (q : Path) : Prop := ∃ f ∈ fields, Path.ofString f <+: q

/-- The path leads to a field of the list that the document has, and ends before it. -/
def OnWay (fields : List String) (d : Document) (q : Path) : Prop :=
  ∃ f ∈ fields, (d.getPath? f).isSome ∧ q.Above (Path.ofString f)

/-- What the second document reads lies within a field of the list, and stands in the first one, too; or it is
a document on the way to such a field. -/
def Copied (fields : List String) (d out : Document) : Prop :=
  ∀ q x, (Value.document out).at? q = some x →
    (Covered fields q ∧ (Value.document d).at? q = some x) ∨
      (q = [] ∨ OnWay fields d q) ∧ ∃ inner, x = .document inner

theorem copied_empty (fields : List String) (d : Document) : Copied fields d ∅ := by
  intro q x hx
  cases q with
  | nil =>
    cases hx
    exact .inr ⟨.inl rfl, ∅, rfl⟩
  | cons s q => cases hx

theorem Copied.copyField (h : Copied fields d out) (hf : f ∈ fields) :
    Copied fields d (d.copyField out f) := by
  rcases d.copyField_cases out f with ⟨v, hv, hset⟩ | ⟨hsame, -⟩
  · intro q x hx
    -- what is read lies apart from the field that was put in, or within it, or on the way to it
    rcases Path.apart_or_prefix_or_above (Path.ofString f) q with hapart | hwithin | habove
    · rw [(Document.changedAt_setAt hset).at?_eq hapart] at hx
      exact h q x hx
    · have hself := Document.at?_setAt_self (Path.ofString_ne_nil f) hset
      have hsame := Value.at?_eq_of_prefix hwithin (hself.trans hv.symm)
      exact .inl ⟨⟨f, hf, hwithin⟩, hsame.symm.trans hx⟩
    · obtain ⟨inner, hinner⟩ := Document.exists_document_of_setAt hset habove
      cases hinner.symm.trans hx
      exact .inr ⟨.inr ⟨f, hf, by rw [hv]; rfl, habove⟩, inner, rfl⟩
  · rwa [hsame]

theorem copied_project (fields : List String) (d : Document) :
    Copied (idField :: fields) d (project fields d) :=
  project_induction (copied_empty _ d) fun _ h _ hf => h.copyField hf

theorem Value.eq_document_or_array (hp : p ≠ []) (h : y.at? p = some x) :
    (∃ d, y = .document d) ∨ ∃ items, y = .array items := by
  obtain ⟨s, p, rfl⟩ := List.exists_cons_of_ne_nil hp
  cases y with
  | document d => exact .inl ⟨d, rfl⟩
  | array items => exact .inr ⟨items, rfl⟩
  | _ => cases h

/-- What a copy reads stands in the document, too, or is a document where a document or an array stands. -/
theorem Copied.exists_at? (h : Copied fields d out) (hx : (Value.document out).at? q = some x) :
    ∃ y, (Value.document d).at? q = some y ∧ (x = y ∨ (∃ inner, x = .document inner) ∧
      ((∃ inner, y = .document inner) ∨ OnWay fields d q ∧ ∃ items, y = .array items)) := by
  rcases h q x hx with ⟨-, hy⟩ | ⟨rfl | hway, hinner⟩
  · exact ⟨x, hy, .inl rfl⟩
  · exact ⟨.document d, rfl, .inr ⟨hinner, .inl ⟨d, rfl⟩⟩⟩
  · obtain ⟨f, hf, hsome, ⟨r, hr⟩, hne⟩ := id hway
    obtain ⟨v, hv⟩ := Option.isSome_iff_exists.1 hsome
    rw [Document.getPath?, ← hr, Value.at?_append] at hv
    obtain ⟨y, hy, hv⟩ := Option.bind_eq_some_iff.1 hv
    have hrest : r ≠ [] := fun hr' => hne (by rw [← hr, hr', List.append_nil])
    exact ⟨y, hy, .inr ⟨hinner, (Value.eq_document_or_array hrest hv).imp_right fun h => ⟨hway, h⟩⟩⟩

/-! ## No field is lost -/

/-- Once a field is copied it reads as in the document: what blocks its path was copied as it is, and the field
is read inside it. -/
theorem Copied.getPath?_copyField_self (h : Copied fields d out) (f : String) :
    (d.copyField out f).getPath? f = d.getPath? f := by
  rcases d.copyField_cases out f with ⟨v, hv, hset⟩ | ⟨hsame, hnone | hblocked⟩
  · rw [hv]
    exact Document.at?_setAt_self (Path.ofString_ne_nil f) hset
  · rw [hsame, hnone, Option.eq_none_iff_forall_ne_some]
    intro x hx
    obtain ⟨y, hy, -⟩ := h.exists_at? hx
    cases hnone.symm.trans hy
  · rw [hsame]
    simp only [Document.Free, not_forall] at hblocked
    obtain ⟨q, ⟨hqf, -⟩, x, hx, hother⟩ := hblocked
    rcases h q x hx with ⟨-, hy⟩ | ⟨-, hinner⟩
    · exact Value.at?_eq_of_prefix hqf (hx.trans hy.symm)
    · exact absurd hinner hother

/-- A field that reads as in the document reads so after another one is copied: that one lies apart from it, or
brings the field along, or has its value already. -/
theorem getPath?_copyField_of_eq (hout : out.Ordered) (hf : out.getPath? f = d.getPath? f) (g : String) :
    (d.copyField out g).getPath? f = d.getPath? f := by
  rcases d.copyField_cases out g with ⟨v, hv, hset⟩ | ⟨hsame, -⟩
  · rcases Path.apart_or_prefix_or_above (Path.ofString g) (Path.ofString f) with
      hapart | hwithin | ⟨habove, -⟩
    · exact ((Document.changedAt_setAt hset).at?_eq hapart).trans hf
    · have hself := Document.at?_setAt_self (Path.ofString_ne_nil g) hset
      exact Value.at?_eq_of_prefix hwithin (hself.trans hv.symm)
    · have hthere := (Value.at?_eq_of_prefix habove hf).trans hv
      rw [Document.eq_of_setAt_self hout hset hthere, hf]
  · rw [hsame, hf]

theorem getPath?_foldl_copyField (hd : d.Ordered) {l : List String} (hl : ∀ g ∈ l, g ∈ fields)
    (hout : out.Ordered) (h : Copied fields d out)
    (hf : out.getPath? f = d.getPath? f ∨ f ∈ l) :
    (l.foldl d.copyField out).getPath? f = d.getPath? f := by
  induction l generalizing out with
  | nil => exact hf.resolve_right List.not_mem_nil
  | cons g rest ih =>
    obtain ⟨hg, hrest⟩ := List.forall_mem_cons.1 hl
    refine ih hrest (ordered_copyField hd hout g) (h.copyField hg) ?_
    rcases hf with hf | hf
    · exact .inl (getPath?_copyField_of_eq hout hf g)
    · rcases List.mem_cons.1 hf with rfl | hf
      · exact .inl (h.getPath?_copyField_self f)
      · exact .inr hf

theorem getPath?_project (hd : d.Ordered) (hf : f ∈ idField :: fields) :
    (project fields d).getPath? f = d.getPath? f := by
  rw [project_eq]
  exact getPath?_foldl_copyField hd (fun _ hg => hg) Document.ordered_empty (copied_empty _ d) (.inr hf)

theorem exists_of_find?_project (fields : List String) (d : Document) : ∀ s x,
    (project fields d).find? s = some x →
      ∃ f ∈ idField :: fields, (d.getPath? f).isSome ∧ (Path.ofString f).head? = some s := by
  apply project_induction (P := fun out => ∀ s x, out.find? s = some x →
    ∃ f ∈ idField :: fields, (d.getPath? f).isSome ∧ (Path.ofString f).head? = some s)
  · intro s x hx
    cases hx
  · intro out h f hf s x hx
    rcases d.copyField_cases out f with ⟨v, hv, hset⟩ | ⟨hsame, -⟩
    · obtain ⟨t, p, hpath⟩ := List.exists_cons_of_ne_nil (Path.ofString_ne_nil f)
      by_cases hst : s = t
      · exact ⟨f, hf, by rw [hv]; rfl, by rw [hpath, hst]; rfl⟩
      · have hchanged := Document.changedAt_setAt hset
        rw [hpath] at hchanged
        exact h s x ((hchanged.find?_of_ne hst).symm.trans hx)
    · rw [hsame] at hx
      exact h s x hx

/-- Looking up a listed field, or the identifying one, gives the same in a projection as in the document, also
where it gives nothing. A projection has no other fields than the identifying one and those at which a listed
field starts that the document has, and projecting once more changes nothing. -/
theorem project_keeps_fields {d : Document} (hd : d.Ordered) (fields : List String) :
    (project fields d).id? = d.id? ∧
      (∀ f ∈ fields, (project fields d).getPath? f = d.getPath? f) ∧
      (∀ s ∈ (project fields d).keys, s = idField ∨
        ∃ f ∈ fields, (d.getPath? f).isSome ∧ (Path.ofString f).head? = some s) ∧
      project fields (project fields d) = project fields d := by
  refine ⟨?_, fun f hf => getPath?_project hd (List.mem_cons_of_mem _ hf), ?_, ?_⟩
  · rw [← Document.getPath?_idField, ← Document.getPath?_idField]
    exact getPath?_project hd List.mem_cons_self
  · intro s hs
    obtain ⟨x, hx⟩ := SortedMap.mem_keys_iff.1 hs
    obtain ⟨f, hf, hsome, hhead⟩ := exists_of_find?_project fields d s x hx
    rcases List.mem_cons.1 hf with rfl | hf
    · rw [Path.ofString_idField, List.head?_cons, Option.some.injEq] at hhead
      exact .inl hhead.symm
    · exact .inr ⟨f, hf, hsome, hhead⟩
  · have hcopy : ∀ out, ∀ f ∈ idField :: fields,
        copyField (project fields d) out f = d.copyField out f := by
      intro out f hf
      rw [copyField, copyField, getPath?_project hd hf]
    calc project fields (project fields d)
        = (idField :: fields).foldl (copyField (project fields d)) ∅ := project_eq _ _
      _ = (idField :: fields).foldl d.copyField ∅ := List.foldl_ext _ _ _ hcopy
      _ = project fields d := (project_eq fields d).symm

def delivery : Document :=
  ⟨[("_id", .integer 7),
    ("stops", .array [.text "depot", .document (Document.single "city" (.text "Oslo"))])]⟩

theorem ordered_delivery : delivery.Ordered := by
  have hcity : (Document.single "city" (.text "Oslo")).Ordered := Document.ordered_iff.2
    ⟨List.pairwise_singleton _ _, fun e he => by rw [List.mem_singleton.1 he]; trivial⟩
  exact Document.ordered_pair (by decide) trivial ⟨trivial, hcity, trivial⟩

theorem project_keeps_fields_delivery :
    delivery.Ordered ∧
      (project ["stops.1.city", "stops.01", "stops.2"] delivery).getPath? "stops.1.city" =
        some (.text "Oslo") ∧
      (project ["stops.1.city", "stops.01", "stops.2"] delivery).getPath? "stops.2" = none ∧
      project ["stops.1.city", "stops.01", "stops.2"]
          (project ["stops.1.city", "stops.01", "stops.2"] delivery) =
        project ["stops.1.city", "stops.01", "stops.2"] delivery := by
  obtain ⟨-, hfields, -, htwice⟩ :=
    project_keeps_fields ordered_delivery ["stops.1.city", "stops.01", "stops.2"]
  refine ⟨ordered_delivery, ?_, ?_, htwice⟩
  · exact (hfields "stops.1.city" (by decide)).trans (by decide +kernel)
  · exact (hfields "stops.2" (by decide)).trans (by decide +kernel)

/-! ## Arrays on the way -/

/-- Whatever the second document reads, the first one reads, too, and a value of the same kind. -/
def KeepsKinds (d out : Document) : Prop :=
  ∀ path x, out.getPath? path = some x → ∃ y, d.getPath? path = some y ∧ x.rank = y.rank

/-- Every array on the way to a listed field that the document has lies within a field that is copied. -/
def ArraysWhole (fields : List String) (d : Document) : Prop :=
  ∀ f ∈ fields, (d.getPath? f).isSome → ∀ q, q.Above (Path.ofString f) →
    (Value.document d).ArrayAt q → Covered (idField :: fields) q

instance (fields : List String) (q : Path) : Decidable (Covered fields q) :=
  inferInstanceAs (Decidable (∃ f ∈ fields, _))

instance (fields : List String) (d : Document) : Decidable (ArraysWhole fields d) :=
  decidable_of_iff
    (∀ f ∈ fields, (d.getPath? f).isSome → ∀ n < (Path.ofString f).length,
      (Value.document d).ArrayAt ((Path.ofString f).take n) →
        Covered (idField :: fields) ((Path.ofString f).take n))
    (by simp only [ArraysWhole, Path.forall_above_iff])

/-- A value within a field that is copied is copied as it is. -/
theorem at?_project_of_covered (hd : d.Ordered) (hq : Covered (idField :: fields) q) :
    (Value.document (project fields d)).at? q = (Value.document d).at? q := by
  obtain ⟨g, hg, hgq⟩ := hq
  exact Value.at?_eq_of_prefix hgq (getPath?_project hd hg)

/-- A projection keeps the kinds of what it reads exactly if every array on the way to a field that it copies
lies within a field that it copies, too. For any other such array it has a document, and this is the only way in
which it reads something else than there was, but for documents that lack fields. -/
theorem project_keeps_kinds_iff {d : Document} (hd : d.Ordered) (fields : List String) :
    (KeepsKinds d (project fields d) ↔ ArraysWhole fields d) ∧
      ∀ path x, (project fields d).getPath? path = some x → ∃ y, d.getPath? path = some y ∧
        (x = y ∨ (∃ inner, x = .document inner) ∧
          ((∃ inner, y = .document inner) ∨ ∃ items, y = .array items)) := by
  have hcopied := copied_project fields d
  refine ⟨⟨fun hkinds f hf hsome q habove hitems => ?_, fun hwhole path x hx => ?_⟩,
    fun path x hx => ?_⟩
  · obtain ⟨items, hitems⟩ := hitems
    have hq : q ≠ [] := by
      rintro rfl
      cases hitems
    obtain ⟨path, rfl⟩ := Path.exists_ofString_eq hq habove.1
    obtain ⟨v, hv⟩ := Option.isSome_iff_exists.1 hsome
    obtain ⟨x, hx⟩ := Value.exists_at?_of_prefix habove.1
      ((getPath?_project hd (List.mem_cons_of_mem _ hf)).trans hv)
    obtain ⟨y, hy, hrank⟩ := hkinds path x hx
    cases hitems.symm.trans hy
    rcases hcopied _ x hx with ⟨hcovered, -⟩ | ⟨-, inner, rfl⟩
    · exact hcovered
    · cases hrank
  · obtain ⟨y, hy, rfl | ⟨⟨inner, rfl⟩, hstood⟩⟩ := hcopied.exists_at? hx
    · exact ⟨x, hy, rfl⟩
    rcases hstood with ⟨inner', rfl⟩ | ⟨⟨f, hf, hsome, habove⟩, items, rfl⟩
    · exact ⟨_, hy, rfl⟩
    · have hcovered : Covered (idField :: fields) (Path.ofString path) := by
        rcases List.mem_cons.1 hf with rfl | hf
        · rw [Path.ofString_idField] at habove
          exact absurd (Path.eq_nil_of_above_single habove) (Path.ofString_ne_nil path)
        · exact hwhole f hf hsome _ habove ⟨items, hy⟩
      have hsame := at?_project_of_covered hd hcovered
      rw [hy] at hsame
      cases hsame.symm.trans hx
  · obtain ⟨y, hy, hxy⟩ := hcopied.exists_at? hx
    exact ⟨y, hy, hxy.imp_right fun ⟨hinner, h⟩ => ⟨hinner, h.imp_right And.right⟩⟩

theorem project_keeps_kinds_iff_delivery :
    delivery.Ordered ∧ ¬KeepsKinds delivery (project ["stops.1.city"] delivery) ∧
      KeepsKinds delivery (project ["stops.1.city", "stops"] delivery) := by
  obtain ⟨hlost, -⟩ := project_keeps_kinds_iff ordered_delivery ["stops.1.city"]
  obtain ⟨hkept, -⟩ := project_keeps_kinds_iff ordered_delivery ["stops.1.city", "stops"]
  exact ⟨ordered_delivery, fun h => absurd (hlost.1 h) (by decide +kernel),
    hkept.2 (by decide +kernel)⟩

/-- The array on the way to an item is a document in the projection to this item, and a filter that compares it
with an array accepts it no more. -/
theorem array_lost_of_project :
    let arrays : Stage := .keep (.range .atLeast "stops" (.array []))
    delivery.getPath? "stops" =
        some (.array [.text "depot", .document (Document.single "city" (.text "Oslo"))]) ∧
      (project ["stops.0"] delivery).getPath? "stops" =
        some (.document (Document.single "0" (.text "depot"))) ∧
      ¬KeepsKinds delivery (project ["stops.0"] delivery) ∧
      runPipeline [arrays, .count "n"] [delivery] = [Document.single "n" (.integer 1)] ∧
      runPipeline [.project ["stops.0"], arrays, .count "n"] [delivery] =
        [Document.single "n" (.integer 0)] := by
  intro arrays
  have hbefore : delivery.getPath? "stops" =
      some (.array [.text "depot", .document (Document.single "city" (.text "Oslo"))]) := by
    decide +kernel
  have hafter : (project ["stops.0"] delivery).getPath? "stops" =
      some (.document (Document.single "0" (.text "depot"))) := by decide +kernel
  refine ⟨hbefore, hafter, fun hkinds => ?_, by decide +kernel, by decide +kernel⟩
  obtain ⟨y, hy, hrank⟩ := hkinds "stops" _ hafter
  cases hbefore.symm.trans hy
  cases hrank

end ScopedStore
