import ScopedStore.Proofs.Operation
import ScopedStore.Proofs.Update

/-!
# What updates and deletions select

The documents that a filter accepts are listed once, in the ascending order of their identifiers; an
operation on one document takes the first of them. While the list is gone through, the view changes under
it, and nothing is looked up again: what carries the loops is that the documents still to come stand where
they stood, as every step puts or deletes a document under its own identifier (`updateEach_spec`,
`deleteEach_spec`).
-/

namespace ScopedStore

namespace View

/-! ## The selection -/

/-- The documents that a filter accepts, with their identifiers in ascending order. -/
def found (v : View) (f : Filter) : List (Value × Document) :=
  v.docs.entries.filter fun e => f.accepts e.2

/-- The documents that an operation takes among those found: all of them, or the first. -/
def taken (multi : Bool) (found : List (Value × Document)) : List (Value × Document) :=
  if multi then found else found.take 1

theorem matching_eq (v : View) (f : Filter) : v.matching f = (v.found f).map Prod.snd :=
  List.filter_map

theorem matching_take_eq (v : View) (f : Filter) (multi : Bool) :
    (if multi then v.matching f else (v.matching f).take 1) =
      (taken multi (v.found f)).map Prod.snd := by
  rw [matching_eq, taken]
  split
  · rfl
  · rw [List.map_take]

theorem taken_sublist (multi : Bool) (found : List (Value × Document)) :
    (taken multi found).Sublist found := by
  rw [taken]
  split
  · exact List.Sublist.refl _
  · exact List.take_sublist 1 _

section Valid

variable {v : View} (hv : v.Valid)
include hv

theorem Valid.mem_found_iff {f : Filter} {id : Value} {d : Document} :
    (id, d) ∈ v.found f ↔ v.docs.find? id = some d ∧ f.accepts d = true := by
  rw [found, List.mem_filter, hv.docs_sorted.find?_eq_some_iff]

theorem Valid.ascending_found (f : Filter) :
    (v.found f).Pairwise fun a b => compare a.1 b.1 = .lt :=
  List.Pairwise.filter _ hv.docs_sorted

/-- What a loop goes through stands in the view, under identifiers that differ. -/
structure Stand (v : View) (targets : List (Value × Document)) : Prop where
  apart : targets.Pairwise fun a b => a.1 ≠ b.1
  own : ∀ e ∈ targets, e.2.id? = some e.1
  stand : ∀ e ∈ targets, v.docs.find? e.1 = some e.2

theorem Valid.stand (multi : Bool) (f : Filter) : v.Stand (taken multi (v.found f)) := by
  have hsub := taken_sublist multi (v.found f)
  have hstand (e : Value × Document) (he : e ∈ taken multi (v.found f)) :
      v.docs.find? e.1 = some e.2 := (hv.mem_found_iff.1 (hsub.subset he)).1
  refine ⟨((hv.ascending_found f).imp fun hlt heq => ?_).sublist hsub,
    fun e he => (hv.own e.1 e.2 (hstand e he)).2, hstand⟩
  rw [heq] at hlt
  simp at hlt

end Valid

theorem Stand.tail {v v' : View} {e : Value × Document} {rest : List (Value × Document)}
    (h : v.Stand (e :: rest)) (hkeeps : ∀ id, id ≠ e.1 → v'.docs.find? id = v.docs.find? id) :
    v'.Stand rest := by
  obtain ⟨hothers, hapart⟩ := List.pairwise_cons.1 h.apart
  refine ⟨hapart, fun e' he' => h.own e' (List.mem_cons_of_mem _ he'), fun e' he' => ?_⟩
  rw [hkeeps e'.1 fun heq => hothers e' he' heq.symm]
  exact h.stand e' (List.mem_cons_of_mem _ he')

/-! ## Updates -/

theorem storedId_of_id? {d : Document} {id : Value} (h : d.id? = some id) :
    d.storedId = .ok id := by
  rw [Document.storedId, h]

/-- A document is replaced by its update as it is: the update has the identifier still. -/
theorem eq_put_of_replace {u : Update} {old new : Document} {id : Value} (hid : old.id? = some id)
    (hnew : u.apply old = .ok new) {v v' : View} (h : v.replace id new = .ok v') :
    v' = v.put id new := by
  have hsome : new.id?.isSome := Update.isSome_id?_apply (by rw [hid]; rfl) hnew
  rw [View.replace] at h
  simp only [hsome, if_true] at h
  split at h
  · cases h
  · obtain ⟨_, -, h⟩ := bind_eq_ok.1 h
    cases h
    rfl

/-- A loop that succeeds has put the update of each document in its place, left the others, and counted
the documents that their update changes. -/
theorem updateEach_spec {u : Update} {targets : List (Value × Document)} {v v' : View}
    (hstand : v.Stand targets) {n : Nat}
    (h : updateEach u (targets.map Prod.snd) v = .ok (n, v')) :
    (∀ e ∈ targets, ∃ d, u.apply e.2 = .ok d ∧ v'.docs.find? e.1 = some d) ∧
      (∀ id, (∀ e ∈ targets, e.1 ≠ id) → v'.docs.find? id = v.docs.find? id) ∧
      n = (targets.filter fun e => u.apply e.2 ≠ .ok e.2).length := by
  induction targets generalizing v n with
  | nil =>
    cases h
    exact ⟨fun _ he => absurd he List.not_mem_nil, fun _ _ => rfl, rfl⟩
  | cons e rest ih =>
    obtain ⟨new, hnew, h⟩ := bind_eq_ok.1 h
    obtain ⟨hothers, -⟩ := List.pairwise_cons.1 hstand.apart
    have hown := hstand.own e List.mem_cons_self
    have hhere := hstand.stand e List.mem_cons_self
    split at h
    · rename_i hsame
      subst hsame
      obtain ⟨hupdated, hkept, hcount⟩ := ih (hstand.tail fun _ _ => rfl) h
      refine ⟨fun e' he' => ?_, fun id hid => ?_, ?_⟩
      · rcases List.mem_cons.1 he' with rfl | he'
        · exact ⟨_, hnew, (hkept _ fun e' he' heq => hothers e' he' heq.symm).trans hhere⟩
        · exact hupdated e' he'
      · exact hkept id fun e' he' => hid e' (List.mem_cons_of_mem _ he')
      · rw [List.filter_cons_of_neg (by simpa using hnew)]
        exact hcount
    · rename_i hchanged
      obtain ⟨id, hid, h⟩ := bind_eq_ok.1 h
      obtain ⟨v₁, hreplace, h⟩ := bind_eq_ok.1 h
      obtain ⟨⟨m, v₂⟩, hlater, h⟩ := bind_eq_ok.1 h
      cases h
      cases (storedId_of_id? hown).symm.trans hid
      rw [eq_put_of_replace hown hnew hreplace] at hlater
      have hkeeps (id : Value) (hne : id ≠ e.1) :
          (v.put e.1 new).docs.find? id = v.docs.find? id := SortedMap.find?_insert_of_ne _ _ hne
      obtain ⟨hupdated, hkept, hcount⟩ := ih (hstand.tail hkeeps) hlater
      refine ⟨fun e' he' => ?_, fun id hid => ?_, ?_⟩
      · rcases List.mem_cons.1 he' with rfl | he'
        · refine ⟨new, hnew, (hkept _ fun e' he' heq => hothers e' he' heq.symm).trans ?_⟩
          exact SortedMap.find?_insert_self _ _ _
        · exact hupdated e' he'
      · rw [hkept id fun e' he' => hid e' (List.mem_cons_of_mem _ he')]
        exact hkeeps id fun heq => hid e List.mem_cons_self heq.symm
      · have hcounted : u.apply e.2 ≠ .ok e.2 := by
          rw [hnew, ne_eq, Except.ok.injEq]
          exact hchanged
        rw [List.filter_cons_of_pos (by simpa using hcounted), List.length_cons, hcount]

theorem Valid.update_spec {v v' : View} (hv : v.Valid) {f : Filter} {u : Update} {multi : Bool}
    {r : UpdateReply} (h : v.update f u false multi = .ok (r, v')) :
    let targets := taken multi (v.found f)
    (∀ e ∈ targets, ∃ d, u.apply e.2 = .ok d ∧ v'.docs.find? e.1 = some d) ∧
      (∀ id, (∀ e ∈ targets, e.1 ≠ id) → v'.docs.find? id = v.docs.find? id) ∧
      r = { matched := targets.length,
            modified := (targets.filter fun e => u.apply e.2 ≠ .ok e.2).length } := by
  intro targets
  obtain ⟨_, -, h⟩ := bind_eq_ok.1 h
  simp only [Bool.and_false, Bool.false_eq_true, if_false, matching_take_eq] at h
  obtain ⟨⟨n, v₁⟩, heach, h⟩ := bind_eq_ok.1 h
  cases h
  obtain ⟨hupdated, hkept, hcount⟩ := updateEach_spec (hv.stand multi f) heach
  exact ⟨hupdated, hkept, by rw [List.length_map, hcount]⟩

/-! ## Deletions -/

theorem deleteEach_spec {targets : List (Value × Document)} {v : View} (hstand : v.Stand targets) :
    (deleteEach (targets.map Prod.fst) v).1 = targets.length ∧
      (∀ e ∈ targets, (deleteEach (targets.map Prod.fst) v).2.docs.find? e.1 = none) ∧
      ∀ id, (∀ e ∈ targets, e.1 ≠ id) →
        (deleteEach (targets.map Prod.fst) v).2.docs.find? id = v.docs.find? id := by
  induction targets generalizing v with
  | nil => exact ⟨rfl, fun _ he => absurd he List.not_mem_nil, fun _ _ => rfl⟩
  | cons e rest ih =>
    have hhere : v.docs.contains e.1 = true :=
      SortedMap.contains_iff.2 ⟨e.2, hstand.stand e List.mem_cons_self⟩
    have hkeeps (id : Value) (hne : id ≠ e.1) :
        (v.delete e.1).docs.find? id = v.docs.find? id := by
      rw [find?_delete, if_neg hne]
    obtain ⟨hothers, -⟩ := List.pairwise_cons.1 hstand.apart
    obtain ⟨hcount, hdeleted, hkept⟩ := ih (hstand.tail hkeeps)
    rw [List.map_cons, deleteEach]
    simp only [hhere, if_true]
    refine ⟨by rw [hcount, List.length_cons], fun e' he' => ?_, fun id hid => ?_⟩
    · rcases List.mem_cons.1 he' with rfl | he'
      · rw [hkept _ fun e' he' heq => hothers e' he' heq.symm, find?_delete, if_pos rfl]
      · exact hdeleted e' he'
    · rw [hkept id fun e' he' => hid e' (List.mem_cons_of_mem _ he')]
      exact hkeeps id fun heq => hid e List.mem_cons_self heq.symm

theorem Valid.deleteMatching_eq {v : View} (hv : v.Valid) (f : Filter) (multi : Bool) :
    v.deleteMatching f multi = deleteEach ((taken multi (v.found f)).map Prod.fst) v := by
  have hids : (v.matching f).filterMap Document.id? = (v.found f).map Prod.fst := by
    rw [matching_eq, List.filterMap_map]
    rw [← List.filterMap_eq_map]
    refine List.filterMap_congr fun e he => ?_
    exact (hv.own e.1 e.2 (hv.mem_found_iff.1 he).1).2
  rw [deleteMatching, hids, taken]
  cases multi with
  | true => rfl
  | false => rw [if_neg Bool.false_ne_true, if_neg Bool.false_ne_true, List.map_take]

end View

end ScopedStore
