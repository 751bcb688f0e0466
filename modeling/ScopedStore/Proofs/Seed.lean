import ScopedStore.Operation
import ScopedStore.Proofs.FindAndModify
import ScopedStore.Proofs.Path

/-!
# What an upsert inserts

An upsert starts from the terms of equality that its filter requires, put in one after the other (`seed_eq`).
A term that is blocked is left out; where the paths of the terms are apart none is, and the terms put in
later leave it as it is (`meets_seed`). The update then writes at paths of its own, and a new identifier goes
where nothing stood, so apart from the terms both leave them met (`Document.Meets.apply`,
`Document.Meets.withId`). A document that meets all terms is accepted by a filter that requires nothing else
(`accepts_of_meets`).
-/

namespace ScopedStore

/-! ## Terms -/

namespace Filter

mutual

/-- The filter is a term of equality, or a conjunction of such filters; the conjunction of none accepts
everything. -/
def OnlyEqualities : Filter → Prop
  | .all | .eq _ _ => True
  | .allOf filters => AllOnlyEqualities filters
  | _ => False
termination_by structural f => f

def AllOnlyEqualities : List Filter → Prop
  | [] => True
  | f :: rest => f.OnlyEqualities ∧ AllOnlyEqualities rest
termination_by structural l => l

end

mutual

/-- The terms of equality that a filter requires: the path and the value of each, in order. -/
def terms : Filter → List (String × Value)
  | .eq field value => [(field, value)]
  | .allOf filters => termsOfAll filters
  | _ => []
termination_by structural f => f

def termsOfAll : List Filter → List (String × Value)
  | [] => []
  | f :: rest => f.terms ++ termsOfAll rest
termination_by structural l => l

end

def TermsApart (terms : List (String × Value)) : Prop :=
  terms.Pairwise fun a b => (Path.ofString a.1).Apart (Path.ofString b.1)

instance (terms : List (String × Value)) : Decidable (TermsApart terms) :=
  inferInstanceAs (Decidable (List.Pairwise _ _))

end Filter

/-- Each term stands in the document. -/
def Document.Meets (d : Document) (terms : List (String × Value)) : Prop :=
  ∀ t ∈ terms, d.getPath? t.1 = some t.2

/-! ## Putting the terms in -/

namespace Document

variable {d : Document} {path : String} {terms : List (String × Value)}

def putTerms (d : Document) (terms : List (String × Value)) : Document :=
  terms.foldl (fun d t => d.setPathIfFree t.1 t.2) d

theorem getPath?_putTerms_of_apart
    (hpath : ∀ t ∈ terms, (Path.ofString t.1).Apart (Path.ofString path)) (d : Document) :
    (d.putTerms terms).getPath? path = d.getPath? path := by
  induction terms generalizing d with
  | nil => rfl
  | cons t rest ih =>
    obtain ⟨hhead, htail⟩ := List.forall_mem_cons.1 hpath
    have hfirst := (changedAt_setPathIfFree d t.1 t.2).at?_eq hhead
    exact (ih htail (d.setPathIfFree t.1 t.2)).trans hfirst

/-- Terms that are apart and not blocked before the first of them are all met after the last. -/
theorem meets_putTerms (hapart : Filter.TermsApart terms)
    (hfree : ∀ t ∈ terms, ∃ e, d.setPath t.1 t.2 = .ok e) : (d.putTerms terms).Meets terms := by
  induction terms generalizing d with
  | nil => exact fun t ht => absurd ht List.not_mem_nil
  | cons t rest ih =>
    obtain ⟨hothers, hrest⟩ := List.pairwise_cons.1 hapart
    obtain ⟨hhead, htail⟩ := List.forall_mem_cons.1 hfree
    have hchanged := changedAt_setPathIfFree d t.1 t.2
    intro t' ht'
    rcases List.mem_cons.1 ht' with rfl | ht'
    · have hlater := getPath?_putTerms_of_apart (fun t ht => (hothers t ht).symm)
        (d.setPathIfFree t'.1 t'.2)
      exact hlater.trans (getPath?_setPathIfFree_self hhead)
    · have hstill : ∀ t' ∈ rest, ∃ e, (d.setPathIfFree t.1 t.2).setPath t'.1 t'.2 = .ok e :=
        fun t' ht' => hchanged.exists_setAt (hothers t' ht') (htail t' ht')
      exact ih hrest hstill t' ht'

end Document

namespace Filter

variable {f : Filter} {d : Document}

mutual

theorem seedFrom_eq : (f : Filter) → (d : Document) → f.seedFrom d = d.putTerms f.terms
  | .eq _ _, _ => rfl
  | .allOf filters, d => seedFromAll_eq filters d
  | .all, _ | .ne _ _, _ | .range _ _ _, _ | .oneOf _ _, _ | .present _ _, _ | .anyOf _, _
  | .not _, _ => rfl

theorem seedFromAll_eq : (l : List Filter) → (d : Document) →
    seedFromAll l d = d.putTerms (termsOfAll l)
  | [], _ => rfl
  | f :: rest, d => by
    rw [seedFromAll, termsOfAll, seedFrom_eq f, seedFromAll_eq rest, Document.putTerms,
      Document.putTerms, Document.putTerms, List.foldl_append]

end

theorem seed_eq (f : Filter) : f.seed = Document.putTerms ∅ f.terms := seedFrom_eq f ∅

theorem meets_seed (hapart : TermsApart f.terms) : f.seed.Meets f.terms := by
  rw [seed_eq]
  exact Document.meets_putTerms hapart fun t _ => Document.exists_setAt_empty _ t.2

/-! ## Accepting -/

theorem fieldEquals_of_getPath? {path : String} {v : Value} (h : d.getPath? path = some v) :
    fieldEquals d path v = true := by
  simp [fieldEquals, h]

mutual

theorem accepts_of_meets : (f : Filter) → f.OnlyEqualities → d.Meets f.terms → f.accepts d = true
  | .all, _, _ => rfl
  | .eq _ _, _, hmeets => fieldEquals_of_getPath? (hmeets _ List.mem_cons_self)
  | .allOf filters, honly, hmeets => acceptedByAll_of_meets filters honly hmeets

theorem acceptedByAll_of_meets : (l : List Filter) → AllOnlyEqualities l → d.Meets (termsOfAll l) →
    acceptedByAll l d = true
  | [], _, _ => rfl
  | f :: rest, honly, hmeets => by
    have hfirst := accepts_of_meets f honly.1 fun t ht => hmeets t (List.mem_append_left _ ht)
    have hrest := acceptedByAll_of_meets rest honly.2 fun t ht => hmeets t (List.mem_append_right _ ht)
    rw [acceptedByAll, hfirst, hrest, Bool.and_self]

end

end Filter

/-! ## Updating -/

def UpdateOp.field : UpdateOp → String
  | .set field _ | .unset field | .increment field _ | .push field _ => field

theorem UpdateOp.changedAt_apply {op : UpdateOp} {d d' : Document} (h : op.apply d = .ok d') :
    Document.ChangedAt (Path.ofString op.field) d d' := by
  cases op with
  | set field value =>
    rw [UpdateOp.apply] at h
    split at h
    · cases h
    · exact Document.changedAt_setAt h
  | unset field =>
    rw [UpdateOp.apply] at h
    split at h <;> cases h
    exact Document.changedAt_removeAt d _
  | increment field amount =>
    simp only [UpdateOp.apply] at h
    split at h
    · split at h <;> cases h
      exact Document.changedAt_replaceAt d _ _
    · cases h
    · exact Document.changedAt_setAt h
  | push field value =>
    simp only [UpdateOp.apply] at h
    split at h
    · cases h
      exact Document.changedAt_replaceAt d _ _
    · cases h
    · exact Document.changedAt_setAt h

namespace Document

variable {d d' : Document} {terms : List (String × Value)}

theorem Meets.apply {u : Update} (h : d.Meets terms)
    (hapart : ∀ op ∈ u.ops, ∀ t ∈ terms, (Path.ofString op.field).Apart (Path.ofString t.1))
    (hd : u.apply d = .ok d') : d'.Meets terms := by
  refine Update.apply_induction (P := fun d => d.Meets terms) h ?_ hd
  intro op hop d₁ d₂ hmeets happly t ht
  rw [← hmeets t ht]
  exact (UpdateOp.changedAt_apply happly).at?_eq (hapart op hop t ht)

/-! ## Identifying -/

theorem Meets.withId (h : d.Meets terms) (id : Value) : (d.withId id).Meets terms := by
  rw [Document.withId]
  split
  · exact h
  · rename_i hid
    intro t ht
    have hmet := h t ht
    rw [getPath?] at hmet ⊢
    obtain ⟨s, p, hpath⟩ := List.exists_cons_of_ne_nil (Path.ofString_ne_nil t.1)
    rw [hpath] at hmet ⊢
    have hs : s ≠ idField := by
      rintro rfl
      rw [at?_cons, ← id?, Option.not_isSome_iff_eq_none.1 hid] at hmet
      cases hmet
    rw [at?_insert_of_ne d id hs, hmet]

end Document

namespace View

variable {v v' : View} {f : Filter} {u : Update} {multi : Bool}

/-! ## Upserts -/

theorem update_of_found (hfound : v.found f ≠ []) (u : Update) (upsert multi : Bool) :
    v.update f u upsert multi = v.update f u false multi := by
  obtain ⟨e, rest, hcons⟩ := List.exists_cons_of_ne_nil hfound
  cases multi <;> simp [View.update, matching_of_cons hcons]

theorem insert_of_missed {r : UpdateReply} (hfound : v.found f = [])
    (h : v.update f u true multi = .ok (r, v')) :
    ∃ id d, u.apply f.seed = .ok d ∧ v.insert d = .ok (id, v') ∧ r.upsertedId = some id := by
  obtain ⟨_, -, h⟩ := bind_eq_ok.1 h
  have htargets : (if multi then v.matching f else (v.matching f).take 1) = [] := by
    rw [matching_of_nil hfound]
    cases multi <;> rfl
  simp only [htargets, List.isEmpty_nil, Bool.and_self, if_true] at h
  obtain ⟨d, hd, h⟩ := bind_eq_ok.1 h
  obtain ⟨⟨id, v₁⟩, hinsert, h⟩ := bind_eq_ok.1 h
  cases h
  exact ⟨id, d, hd, hinsert, rfl⟩

theorem insert_of_update {r : UpdateReply} {id : Value}
    (h : v.update f u true multi = .ok (r, v')) (hid : r.upsertedId = some id) :
    v.found f = [] ∧ ∃ d, u.apply f.seed = .ok d ∧ v.insert d = .ok (id, v') := by
  have hfound : v.found f = [] := by
    by_contra hfound
    rw [update_of_found hfound] at h
    obtain ⟨_, -, h⟩ := bind_eq_ok.1 h
    simp only [Bool.and_false, Bool.false_eq_true, if_false] at h
    obtain ⟨_, -, h⟩ := bind_eq_ok.1 h
    cases h
    cases hid
  obtain ⟨id', d, hd, hinsert, hid'⟩ := insert_of_missed hfound h
  cases hid.symm.trans hid'
  exact ⟨hfound, d, hd, hinsert⟩

end View

end ScopedStore
