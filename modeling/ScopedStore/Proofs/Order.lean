import ScopedStore.Namespace
import ScopedStore.Value.Order

/-!
# Values and namespaces are totally ordered

The order of values is antisymmetric and transitive, at any nesting; the order of namespaces is the
lexicographic one. A kind of a lower rank comes first whatever the contents are (`cmp_of_rank_lt`), so
both inductions only have to look at values of one kind.
-/

namespace ScopedStore

theorem transCmp_of_lt {α : Type} {cmp : α → α → Ordering}
    (hswap : ∀ a b, (cmp a b).swap = cmp b a) (heq : ∀ {a b}, cmp a b = .eq → a = b)
    (hlt : ∀ a b c, cmp a b = .lt → cmp b c = .lt → cmp a c = .lt) : Std.TransCmp cmp where
  eq_swap := by
    intro a b
    rw [hswap]
  isLE_trans := by
    intro a b c hab hbc
    cases hab' : cmp a b with
    | gt => rw [hab'] at hab; cases hab
    | eq => rwa [heq hab']
    | lt =>
      cases hbc' : cmp b c with
      | gt => rw [hbc'] at hbc; cases hbc
      | eq => rwa [← heq hbc']
      | lt => rw [hlt a b c hab' hbc']; rfl

theorem compare_lt_trans {α : Type} [Ord α] [Std.TransOrd α] {a b c : α}
    (hab : compare a b = .lt) (hbc : compare b c = .lt) : compare a c = .lt :=
  Std.TransCmp.lt_trans hab hbc

namespace Value

/-! ## Kinds -/

theorem cmp_of_rank_lt {a b : Value} (h : a.rank < b.rank) : cmp a b = .lt := by
  cases a <;> cases b <;> first | rfl | simp [rank] at h

theorem rank_le_of_cmp_lt {a b : Value} (h : cmp a b = .lt) : a.rank ≤ b.rank := by
  cases a <;> cases b <;> first | simp [rank]; done | cases h

theorem cmp_lt_of_same_rank {a b c : Value} (hab : cmp a b = .lt) (hbc : cmp b c = .lt)
    (h : a.rank = b.rank → b.rank = c.rank → cmp a c = .lt) : cmp a c = .lt := by
  have h₁ := rank_le_of_cmp_lt hab
  have h₂ := rank_le_of_cmp_lt hbc
  by_cases hrank : a.rank < c.rank
  · exact cmp_of_rank_lt hrank
  · exact h (by omega) (by omega)

/-! ## Antisymmetry -/

mutual

theorem cmp_swap : (a b : Value) → (cmp a b).swap = cmp b a
  | .null, b => by cases b <;> rfl
  | .bool x, b => by
    cases b with
    | bool y => exact Std.OrientedOrd.eq_swap.symm
    | _ => rfl
  | .integer x, b => by
    cases b with
    | integer y => exact Std.OrientedOrd.eq_swap.symm
    | _ => rfl
  | .text x, b => by
    cases b with
    | text y => exact Std.OrientedOrd.eq_swap.symm
    | _ => rfl
  | .bytes x, b => by
    cases b with
    | bytes y => exact Std.OrientedOrd.eq_swap.symm
    | _ => rfl
  | .array x, b => by
    cases b with
    | array y => exact cmpItems_swap x y
    | _ => rfl
  | .document ⟨x⟩, b => by
    cases b with
    | document y => exact cmpFields_swap x y.entries
    | _ => rfl

theorem cmpItems_swap : (a b : List Value) → (cmpItems a b).swap = cmpItems b a
  | [], [] => rfl
  | [], _ :: _ => rfl
  | _ :: _, [] => rfl
  | a :: as, b :: bs => by
    rw [cmpItems, Ordering.swap_then, cmp_swap a b, cmpItems_swap as bs, cmpItems]

theorem cmpFields_swap : (a b : List (String × Value)) → (cmpFields a b).swap = cmpFields b a
  | [], [] => rfl
  | [], _ :: _ => rfl
  | _ :: _, [] => rfl
  | (k, a) :: as, (l, b) :: bs => by
    rw [cmpFields, Ordering.swap_then, Ordering.swap_then, cmp_swap a b, cmpFields_swap as bs,
      cmpFields, ← Std.OrientedCmp.eq_swap]

end

/-! ## Transitivity -/

/-- The lexicographic step: transitivity of the head and of the rest gives that of both together. -/
theorem then_lt_trans {α β : Type} {f : α → α → Ordering} {g : β → β → Ordering}
    (hf : ∀ {a b}, f a b = .eq → a = b) {a b c : α} {x y z : β}
    (hlt : f a b = .lt → f b c = .lt → f a c = .lt) (hrest : g x y = .lt → g y z = .lt → g x z = .lt)
    (h₁ : (f a b).then (g x y) = .lt) (h₂ : (f b c).then (g y z) = .lt) :
    (f a c).then (g x z) = .lt := by
  rw [Ordering.then_eq_lt] at h₁ h₂ ⊢
  rcases h₁ with h₁ | ⟨h₁, h₁'⟩
  · rcases h₂ with h₂ | ⟨h₂, -⟩
    · exact .inl (hlt h₁ h₂)
    · exact .inl (hf h₂ ▸ h₁)
  · rcases h₂ with h₂ | ⟨h₂, h₂'⟩
    · exact .inl (hf h₁ ▸ h₂)
    · exact .inr ⟨hf h₁ ▸ h₂, hrest h₁' h₂'⟩

mutual

theorem cmp_lt_trans : (a b c : Value) → cmp a b = .lt → cmp b c = .lt → cmp a c = .lt
  | .null, b, c, hab, hbc => cmp_lt_of_same_rank hab hbc fun h₁ h₂ => by
    cases b <;> cases h₁
    cases hab
  | .bool x, b, c, hab, hbc => cmp_lt_of_same_rank hab hbc fun h₁ h₂ => by
    cases b <;> cases h₁
    cases c <;> cases h₂
    exact compare_lt_trans hab hbc
  | .integer x, b, c, hab, hbc => cmp_lt_of_same_rank hab hbc fun h₁ h₂ => by
    cases b <;> cases h₁
    cases c <;> cases h₂
    exact compare_lt_trans hab hbc
  | .text x, b, c, hab, hbc => cmp_lt_of_same_rank hab hbc fun h₁ h₂ => by
    cases b <;> cases h₁
    cases c <;> cases h₂
    exact compare_lt_trans hab hbc
  | .bytes x, b, c, hab, hbc => cmp_lt_of_same_rank hab hbc fun h₁ h₂ => by
    cases b <;> cases h₁
    cases c <;> cases h₂
    exact compare_lt_trans hab hbc
  | .array x, b, c, hab, hbc => cmp_lt_of_same_rank hab hbc fun h₁ h₂ => by
    cases b <;> cases h₁
    cases c <;> cases h₂
    exact cmpItems_lt_trans x _ _ hab hbc
  | .document ⟨x⟩, b, c, hab, hbc => cmp_lt_of_same_rank hab hbc fun h₁ h₂ => by
    cases b <;> cases h₁
    cases c <;> cases h₂
    exact cmpFields_lt_trans x _ _ hab hbc

theorem cmpItems_lt_trans : (a b c : List Value) → cmpItems a b = .lt → cmpItems b c = .lt →
    cmpItems a c = .lt
  | [], [], _, hab, _ => by simp [cmpItems] at hab
  | [], _ :: _, [], _, hbc => by simp [cmpItems] at hbc
  | [], _ :: _, _ :: _, _, _ => rfl
  | _ :: _, [], _, hab, _ => by simp [cmpItems] at hab
  | _ :: _, _ :: _, [], _, hbc => by simp [cmpItems] at hbc
  | a :: as, b :: bs, c :: cs, hab, hbc =>
    then_lt_trans (eq_of_cmp_eq _ _) (cmp_lt_trans a b c) (cmpItems_lt_trans as bs cs) hab hbc

theorem cmpFields_lt_trans : (a b c : List (String × Value)) → cmpFields a b = .lt →
    cmpFields b c = .lt → cmpFields a c = .lt
  | [], [], _, hab, _ => by simp [cmpFields] at hab
  | [], _ :: _, [], _, hbc => by simp [cmpFields] at hbc
  | [], _ :: _, _ :: _, _, _ => rfl
  | _ :: _, [], _, hab, _ => by simp [cmpFields] at hab
  | _ :: _, _ :: _, [], _, hbc => by simp [cmpFields] at hbc
  | (k, a) :: as, (l, b) :: bs, (m, c) :: cs, hab, hbc => by
    -- Fields go by name, value and rest; `then` is associative, so the name is the outer step.
    rw [cmpFields, Ordering.then_assoc] at hab hbc ⊢
    refine then_lt_trans (f := compare) (g := fun x y => (cmp x.1 y.1).then (cmpFields x.2 y.2))
      (x := (a, as)) (y := (b, bs)) (z := (c, cs)) Std.LawfulEqCmp.eq_of_compare
      compare_lt_trans (fun h₁ h₂ => ?_) hab hbc
    exact then_lt_trans (eq_of_cmp_eq _ _) (cmp_lt_trans a b c) (cmpFields_lt_trans as bs cs) h₁ h₂

end

instance : Std.TransOrd Value := transCmp_of_lt cmp_swap (eq_of_cmp_eq _ _) cmp_lt_trans

end Value

namespace Namespace

theorem cmp_swap (a b : Namespace) : (cmp a b).swap = cmp b a := by
  rw [cmp, cmp, Ordering.swap_then, ← Std.OrientedCmp.eq_swap, ← Std.OrientedCmp.eq_swap]

theorem cmp_lt_trans (a b c : Namespace) (hab : cmp a b = .lt) (hbc : cmp b c = .lt) :
    cmp a c = .lt :=
  Value.then_lt_trans (f := compare) (g := compare) Std.LawfulEqCmp.eq_of_compare compare_lt_trans
    compare_lt_trans hab hbc

instance : Std.TransOrd Namespace := transCmp_of_lt cmp_swap cmp_eq_iff.1 cmp_lt_trans

end Namespace

end ScopedStore
