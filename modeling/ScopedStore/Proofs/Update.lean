import ScopedStore.Proofs.SortedMap
import ScopedStore.Update

/-!
# Updates keep the identifying field

An operator may set the identifying field to the value it has, and it may change what lies inside, but no
operator takes the field away: only the path that is the field itself would do so (`ofString_eq_single`),
and that one is refused. So a document with an identifier has one after every update
(`isSome_id?_apply`).
-/

namespace ScopedStore

/-! ## Paths of one segment -/

namespace Path

theorem splitDots_ne_nil (cs : List Char) : splitDots cs ≠ [] := by
  cases cs with
  | nil => simp [splitDots]
  | cons c rest =>
    rw [splitDots]
    split
    · simp
    · split <;> simp

theorem splitDots_eq_single {cs segment : List Char} (h : splitDots cs = [segment]) :
    cs = segment := by
  induction cs generalizing segment with
  | nil =>
    rw [splitDots, List.cons.injEq] at h
    exact h.1
  | cons c rest ih =>
    rw [splitDots] at h
    split at h
    · rw [List.cons.injEq] at h
      exact absurd h.2 (splitDots_ne_nil rest)
    · split at h
      · rename_i hnil
        exact absurd hnil (splitDots_ne_nil rest)
      · rename_i first segments hrest
        rw [List.cons.injEq] at h
        obtain ⟨rfl, rfl⟩ := h
        rw [ih hrest]

theorem ofString_eq_single {s segment : String} (h : ofString s = [segment]) : s = segment := by
  obtain ⟨cs, hcs, rfl⟩ := List.map_eq_singleton_iff.1 h
  rw [← splitDots_eq_single hcs, String.ofList_toList]

end Path

/-! ## Fields stay -/

namespace Document

variable {d : Document} {k : String}

theorem isSome_find?_insert (h : (d.find? k).isSome) (segment : String) (v : Value) :
    ((d.insert segment v).find? k).isSome := by
  rw [SortedMap.find?_insert]
  split
  · rfl
  · exact h

theorem isSome_find?_setAt (h : (d.find? k).isSome) {p : Path} {v : Value} {d' : Document}
    (hd : d.setAt p v = .ok d') : (d'.find? k).isSome := by
  rw [setAt.eq_def] at hd
  split at hd
  · cases hd
    exact h
  · cases hd
    exact isSome_find?_insert h _ _
  · split at hd
    · generalize setAt ∅ _ _ = inner at hd
      cases inner <;> cases hd
      exact isSome_find?_insert h _ _
    · generalize setAt _ _ _ = inner at hd
      cases inner <;> cases hd
      exact isSome_find?_insert h _ _
    · cases hd

theorem isSome_find?_replaceAt (h : (d.find? k).isSome) (p : Path) (v : Value) :
    ((d.replaceAt p v).find? k).isSome := by
  rw [replaceAt.eq_def]
  split
  · exact h
  · split
    · exact isSome_find?_insert h _ _
    · exact h
  · split
    · exact isSome_find?_insert h _ _
    · exact h

theorem isSome_find?_removeAt (h : (d.find? k).isSome) {p : Path} (hp : p ≠ [k]) :
    ((d.removeAt p).find? k).isSome := by
  rw [removeAt.eq_def]
  split
  · exact h
  · rename_i segment
    rw [SortedMap.find?_erase_of_ne _ fun hk => hp (by rw [hk])]
    exact h
  · split
    · exact isSome_find?_insert h _ _
    · exact h

end Document

theorem UpdateOp.isSome_id?_apply {op : UpdateOp} {d d' : Document} (h : d.id?.isSome)
    (hd : op.apply d = .ok d') : d'.id?.isSome := by
  cases op with
  | set field value =>
    rw [UpdateOp.apply] at hd
    split at hd
    · cases hd
    · exact Document.isSome_find?_setAt h hd
  | unset field =>
    rw [UpdateOp.apply] at hd
    split at hd
    · cases hd
    · rename_i hfield
      cases hd
      exact Document.isSome_find?_removeAt h fun hp => hfield (Path.ofString_eq_single hp)
  | increment field amount =>
    simp only [UpdateOp.apply] at hd
    split at hd
    · split at hd <;> cases hd
      exact Document.isSome_find?_replaceAt h _ _
    · cases hd
    · exact Document.isSome_find?_setAt h hd
  | push field value =>
    simp only [UpdateOp.apply] at hd
    split at hd
    · cases hd
      exact Document.isSome_find?_replaceAt h _ _
    · cases hd
    · exact Document.isSome_find?_setAt h hd

namespace Update

theorem apply_eq_ok_iff {u : Update} {d d' : Document} :
    u.apply d = .ok d' ↔ runOps u.ops d = (d', .ok ()) := by
  rw [Update.apply, run]
  obtain ⟨e, outcome⟩ := runOps u.ops d
  cases outcome <;> simp

theorem runOps_append_eq_ok_iff {ops ops' : List UpdateOp} {d d' : Document} :
    runOps (ops ++ ops') d = (d', .ok ()) ↔
      ∃ d₁, runOps ops d = (d₁, .ok ()) ∧ runOps ops' d₁ = (d', .ok ()) := by
  induction ops generalizing d with
  | nil => simp [runOps]
  | cons op rest ih =>
    rw [List.cons_append, runOps, runOps]
    cases op.apply d with
    | ok d₁ => exact ih
    | error e => simp

theorem apply_concat_eq_ok_iff {ops : List UpdateOp} {op : UpdateOp} {d d' : Document} :
    (Update.mk (ops ++ [op])).apply d = .ok d' ↔
      ∃ d₁, (Update.mk ops).apply d = .ok d₁ ∧ op.apply d₁ = .ok d' := by
  simp only [apply_eq_ok_iff, runOps_append_eq_ok_iff]
  refine exists_congr fun d₁ => and_congr_right fun _ => ?_
  rw [runOps]
  cases op.apply d₁ <;> simp [runOps]

theorem runOps_induction {P : Document → Prop} {ops : List UpdateOp} {d d' : Document} (h : P d)
    (step : ∀ op ∈ ops, ∀ d d', P d → op.apply d = .ok d' → P d')
    (hd : runOps ops d = (d', .ok ())) : P d' := by
  induction ops generalizing d with
  | nil =>
    cases hd
    exact h
  | cons op rest ih =>
    rw [runOps] at hd
    split at hd
    · rename_i d₁ hop
      have hfirst := step op List.mem_cons_self d d₁ h hop
      exact ih hfirst (fun op' hop' => step op' (List.mem_cons_of_mem _ hop')) hd
    · cases hd

theorem apply_induction {P : Document → Prop} {u : Update} {d d' : Document} (h : P d)
    (step : ∀ op ∈ u.ops, ∀ d d', P d → op.apply d = .ok d' → P d') (hd : u.apply d = .ok d') :
    P d' :=
  runOps_induction h step (apply_eq_ok_iff.1 hd)

theorem isSome_id?_apply {u : Update} {d d' : Document} (h : d.id?.isSome)
    (hd : u.apply d = .ok d') : d'.id?.isSome :=
  apply_induction h (fun op _ _ _ => op.isSome_id?_apply) hd

end Update

end ScopedStore
