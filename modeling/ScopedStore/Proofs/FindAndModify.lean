import ScopedStore.Proofs.Query
import ScopedStore.Proofs.Selection

/-!
# Finding and changing in one go

Each write of one document has a counterpart that returns the document, too. The two select their target,
seed an upsert and treat an unchanged document each in its own way; `Paired` says what both come to, case
by case, and each pair is shown to be in it (`paired_update`, `paired_replace`, `paired_delete`). Without
keys to sort by, the counterpart takes the first document by identifier, as the write does.
-/

namespace ScopedStore

namespace View

variable {v v' : View} {f : Filter} {returned : Returned} {upsert : Bool}

def choose (returned : Returned) {α : Type} (before after : α) : α :=
  match returned with
  | .before => before
  | .after => after

/-- How a write of one document, which says what it has inserted, and its counterpart, which returns a
document, end on the same view: both fail alike, both miss, or both insert or change the same document. -/
inductive Paired (v : View) (f : Filter) (upsert : Bool) (returned : Returned) :
    Except StoreError (Option Value × View) → Except StoreError (Option Document × View) → Prop
  | failed (e : StoreError) : Paired v f upsert returned (.error e) (.error e)
  | missed (hnone : v.found f = []) (hupsert : upsert = false) :
      Paired v f upsert returned (.ok (none, v)) (.ok (none, v))
  | inserted {id : Value} {d : Document} {v' : View} (hnone : v.found f = []) (hupsert : upsert = true)
      (hd : v'.docs.find? id = some d) :
      Paired v f upsert returned (.ok (some id, v')) (.ok (choose returned none (some d), v'))
  | changed {e : Value × Document} {rest : List (Value × Document)} {d : Document} {v' : View}
      (hfound : v.found f = e :: rest) (hd : v'.docs.find? e.1 = some d) :
      Paired v f upsert returned (.ok (none, v')) (.ok (some (choose returned e.2 d), v'))

/-! ## Targets -/

theorem first?_nil (v : View) (f : Filter) : v.first? f [] = (v.matching f).head? := by
  rw [first?, sortDocuments_nil]

theorem matching_of_nil (hfound : v.found f = []) : v.matching f = [] := by
  rw [matching_eq, hfound, List.map_nil]

theorem matching_of_cons {e : Value × Document} {rest : List (Value × Document)}
    (hfound : v.found f = e :: rest) : v.matching f = e.2 :: rest.map Prod.snd := by
  rw [matching_eq, hfound, List.map_cons]

theorem Valid.of_found (hv : v.Valid) {e : Value × Document} {rest : List (Value × Document)}
    (hfound : v.found f = e :: rest) :
    v.docs.find? e.1 = some e.2 ∧ e.2.Ordered ∧ e.2.id? = some e.1 := by
  have hmem : (e.1, e.2) ∈ v.found f := by
    rw [hfound]
    exact List.mem_cons_self
  have hfind := (hv.mem_found_iff.1 hmem).1
  exact ⟨hfind, hv.own e.1 e.2 hfind⟩

theorem Valid.document?_eq (hv : v.Valid) (id : Value) : v.document? id = v.docs.find? id := by
  refine Option.ext fun d => ?_
  rw [document?]
  constructor
  · intro hd
    obtain ⟨id', hfind, -, hid'⟩ := hv.mem_documents (List.mem_of_find?_eq_some hd)
    have hid := List.find?_some hd
    rw [decide_eq_true_eq, hid', Option.some.injEq] at hid
    exact hid ▸ hfind
  · intro hd
    -- the search finds some document of this identifier, and there is only one
    have hmem : d ∈ v.documents := List.mem_map.2 ⟨(id, d), SortedMap.mem_of_find? hd, rfl⟩
    have hsome : (v.documents.find? fun d => d.id? = some id).isSome :=
      List.find?_isSome.2 ⟨d, hmem, by simpa using (hv.own id d hd).2⟩
    obtain ⟨d', hd'⟩ := Option.isSome_iff_exists.1 hsome
    obtain ⟨id', hfind, -, hid'⟩ := hv.mem_documents (List.mem_of_find?_eq_some hd')
    have hid := List.find?_some hd'
    rw [decide_eq_true_eq, hid', Option.some.injEq] at hid
    rw [hd', ← hd, ← hid, hfind]

/-! ## Upserts -/

theorem paired_insert (hv : v.Valid) (hnone : v.found f = []) {d : Document} (hd : d.Ordered) :
    Paired v f true returned ((v.insert d).map fun r => (some r.1, r.2))
      (v.insertReturning d returned) := by
  rw [insertReturning]
  cases hinsert : v.insert d with
  | error e => exact .failed e
  | ok r =>
    obtain ⟨id, v'⟩ := r
    obtain ⟨-, d', seed, -, -, -, hv'⟩ := exists_of_insert hd hinsert
    have hfind : v'.docs.find? id = some d' := by
      rw [hv']
      exact SortedMap.find?_insert_self _ _ _
    have hdocument : v'.document? id = some d' :=
      ((Step.insert hd hinsert).valid hv).document?_eq id ▸ hfind
    have hpaired : Paired v f true returned (.ok (some id, v'))
        (.ok (choose returned none (some d'), v')) := .inserted hnone rfl hfind
    cases returned with
    | before => exact hpaired
    | after =>
      rw [← hdocument] at hpaired
      exact hpaired

/-! ## The pairs -/

theorem paired_update (hv : v.Valid) (hf : f.Ordered) {u : Update} (hu : u.Ordered)
    (hcheck : u.check = .ok ()) (upsert : Bool) (returned : Returned) :
    Paired v f upsert returned
      ((v.update f u upsert false).map fun r => (r.1.upsertedId, r.2))
      (v.modifyFirst f u { upsert := upsert, returned := returned }) := by
  rw [View.update, hcheck, ok_bind, modifyFirst, first?_nil]
  cases hfound : v.found f with
  | nil =>
    simp only [matching_of_nil hfound, List.head?_nil]
    cases upsert with
    | false => exact .missed hfound rfl
    | true =>
      simp only [if_true, Bool.false_eq_true, if_false, List.take_nil, List.isEmpty_nil, Bool.and_self]
      cases hd : u.apply f.seed with
      | error e => exact .failed e
      | ok d =>
        have hpaired : Paired v f true returned _ (v.insertReturning d returned) :=
          paired_insert hv hfound (hu.apply hf.seed hd)
        rw [ok_bind, ok_bind]
        cases hinsert : v.insert d with
        | error e =>
          rw [hinsert] at hpaired
          exact hpaired
        | ok r =>
          rw [hinsert] at hpaired
          exact hpaired
  | cons e rest =>
    obtain ⟨hfind, -, hid⟩ := hv.of_found hfound
    simp only [matching_of_cons hfound, List.head?_cons, Bool.false_eq_true, if_false,
      List.take_succ_cons, List.take_zero, List.isEmpty_cons, Bool.false_and, updateEach,
      storedId_of_id? hid, ok_bind]
    cases hnew : u.apply e.2 with
    | error e => exact .failed e
    | ok new =>
      simp only [ok_bind]
      split
      · rename_i hsame
        subst hsame
        exact .changed hfound hfind
      · cases hreplace : v.replace e.1 new with
        | error e => exact .failed e
        | ok v₁ =>
          have hput : v₁.docs.find? e.1 = some new := by
            rw [eq_put_of_replace hid hnew hreplace]
            exact SortedMap.find?_insert_self _ _ _
          exact .changed hfound hput

theorem paired_replace (hv : v.Valid) (hf : f.Ordered) {d : Document} (hd : d.Ordered)
    (upsert : Bool) (returned : Returned) :
    Paired v f upsert returned
      ((v.replaceFirst f d upsert).map fun r => (r.1.upsertedId, r.2))
      (v.exchangeFirst f d { upsert := upsert, returned := returned }) := by
  rw [replaceFirst, exchangeFirst, first?_nil]
  cases hfound : v.found f with
  | nil =>
    simp only [matching_of_nil hfound, List.head?_nil]
    cases upsert with
    | false => exact .missed hfound rfl
    | true =>
      have hpaired : Paired v f true returned _
          (v.insertReturning (upsertedReplacement f d) returned) :=
        paired_insert hv hfound (ordered_upsertedReplacement hf hd)
      simp only [if_true]
      cases hinsert : v.insert (upsertedReplacement f d) with
      | error e =>
        rw [hinsert] at hpaired
        exact hpaired
      | ok r =>
        rw [hinsert] at hpaired
        exact hpaired
  | cons e rest =>
    obtain ⟨hfind, hordered, hid⟩ := hv.of_found hfound
    simp only [matching_of_cons hfound, List.head?_cons, storedId_of_id? hid, ok_bind]
    cases hreplace : v.replace e.1 d with
    | error e => exact .failed e
    | ok v₁ =>
      have hstep := Step.replace (hordered.id? hid) hd hreplace
      obtain ⟨d', -, -, -, rfl⟩ := exists_of_replace (hordered.id? hid) hd hreplace
      have hput : (v.put e.1 d').docs.find? e.1 = some d' := SortedMap.find?_insert_self _ _ _
      have hpaired : Paired v f upsert returned (.ok (none, v.put e.1 d'))
          (.ok (some (choose returned e.2 d'), v.put e.1 d')) := .changed hfound hput
      simp only [ok_bind, (hstep.valid hv).document?_eq, hput, Option.getD_some]
      cases returned <;> exact hpaired

theorem paired_delete (hv : v.Valid) (f : Filter) (upsert : Bool) (returned : Returned) :
    ∃ v', v.deleteMatching f false = (((v.found f).take 1).length, v') ∧
      v.removeFirst f { upsert := upsert, returned := returned } =
        .ok ((v.found f).head?.map Prod.snd, v') := by
  rw [hv.deleteMatching_eq, removeFirst, first?_nil, taken, if_neg Bool.false_ne_true]
  cases hfound : v.found f with
  | nil =>
    rw [matching_of_nil hfound]
    exact ⟨v, rfl, rfl⟩
  | cons e rest =>
    obtain ⟨hfind, -, hid⟩ := hv.of_found hfound
    have hpresent : v.docs.contains e.1 = true := SortedMap.contains_iff.2 ⟨e.2, hfind⟩
    refine ⟨v.delete e.1, ?_, ?_⟩
    · simp [deleteEach, hpresent]
    · simp only [matching_of_cons hfound, List.head?_cons, storedId_of_id? hid, ok_bind, hfind]
      rfl

end View

end ScopedStore
