import ScopedStore.Value.Basic

/-!
# The order of values

Kinds come in the order null, truth value, integer, text, bytes, array, document. Within a kind
false is before true, integers go by size, texts and field names by code points, byte strings,
arrays and documents item by item, where a proper beginning comes first. The order decides equality
(`cmp_eq_iff`), so values with equal order are the same value and equality of values is decidable.
-/

namespace ScopedStore

namespace Value

/-- The place of a value's kind among the kinds. -/
def rank : Value → Nat
  | .null => 0
  | .bool _ => 1
  | .integer _ => 2
  | .text _ => 3
  | .bytes _ => 4
  | .array _ => 5
  | .document _ => 6

mutual

/-- Compares by kind, then by content. -/
def cmp : Value → Value → Ordering
  | .null, .null => .eq
  | .bool a, .bool b => compare a b
  | .integer a, .integer b => compare a b
  | .text a, .text b => compare a b
  | .bytes a, .bytes b => compare a b
  | .array a, .array b => cmpItems a b
  | .document a, .document b => cmpFields a.entries b.entries
  | a, b => compare a.rank b.rank
termination_by structural v => v

/-- Compares item by item; a proper beginning comes first. -/
def cmpItems : List Value → List Value → Ordering
  | [], [] => .eq
  | [], _ :: _ => .lt
  | _ :: _, [] => .gt
  | a :: as, b :: bs => (cmp a b).then (cmpItems as bs)
termination_by structural l => l

/-- Compares field by field, a field by its name and then its value. -/
def cmpFields : List (String × Value) → List (String × Value) → Ordering
  | [], [] => .eq
  | [], _ :: _ => .lt
  | _ :: _, [] => .gt
  | (k, a) :: as, (l, b) :: bs => ((compare k l).then (cmp a b)).then (cmpFields as bs)
termination_by structural l => l

end

instance : Ord Value := ⟨cmp⟩

/-- The order of two values of one kind; nothing for values of different kinds. -/
def compare? (a b : Value) : Option Ordering :=
  if a.rank = b.rank then some (a.cmp b) else none

/-! ## Equality -/

theorem then_eq_eq {a b : Ordering} : a.then b = .eq ↔ a = .eq ∧ b = .eq := by
  cases a <;> simp [Ordering.then]

mutual

theorem cmp_self : (a : Value) → cmp a a = .eq
  | .null => rfl
  | .bool a => by simp [cmp]
  | .integer a => by simp [cmp]
  | .text a => by simp [cmp]
  | .bytes a => by simp [cmp]
  | .array a => cmpItems_self a
  | .document ⟨a⟩ => cmpFields_self a

theorem cmpItems_self : (a : List Value) → cmpItems a a = .eq
  | [] => rfl
  | a :: as => by simp [cmpItems, cmp_self a, cmpItems_self as]

theorem cmpFields_self : (a : List (String × Value)) → cmpFields a a = .eq
  | [] => rfl
  | (k, a) :: as => by
    simp [cmpFields, cmp_self a, cmpFields_self as]

end

mutual

theorem eq_of_cmp_eq : (a b : Value) → cmp a b = .eq → a = b
  | .null, b, h => by cases b <;> simp_all [cmp, rank]
  | .bool a, b, h => by
    cases b <;> simp_all [cmp, rank]
  | .integer a, b, h => by
    cases b <;> simp_all [cmp, rank]
  | .text a, b, h => by
    cases b <;> simp_all [cmp, rank]
  | .bytes a, b, h => by
    cases b <;> simp_all [cmp, rank]
  | .array a, b, h => by
    cases b with
    | array b => rw [eq_of_cmpItems_eq a b h]
    | _ => simp [cmp, rank] at h
  | .document ⟨a⟩, b, h => by
    cases b with
    | document b => rw [eq_of_cmpFields_eq a b.entries h]
    | _ => simp [cmp, rank] at h

theorem eq_of_cmpItems_eq : (a b : List Value) → cmpItems a b = .eq → a = b
  | [], [], _ => rfl
  | [], _ :: _, h => by simp [cmpItems] at h
  | _ :: _, [], h => by simp [cmpItems] at h
  | a :: as, b :: bs, h => by
    rw [cmpItems, then_eq_eq] at h
    rw [eq_of_cmp_eq a b h.1, eq_of_cmpItems_eq as bs h.2]

theorem eq_of_cmpFields_eq : (a b : List (String × Value)) → cmpFields a b = .eq → a = b
  | [], [], _ => rfl
  | [], _ :: _, h => by simp [cmpFields] at h
  | _ :: _, [], h => by simp [cmpFields] at h
  | (k, a) :: as, (l, b) :: bs, h => by
    rw [cmpFields, then_eq_eq, then_eq_eq] at h
    rw [eq_of_cmp_eq a b h.1.2, eq_of_cmpFields_eq as bs h.2,
      Std.LawfulEqCmp.eq_of_compare h.1.1]

end

theorem cmp_eq_iff {a b : Value} : cmp a b = .eq ↔ a = b :=
  ⟨eq_of_cmp_eq a b, fun h => h ▸ cmp_self a⟩

instance : Std.ReflOrd Value := ⟨cmp_self _⟩

instance : Std.LawfulEqOrd Value := ⟨eq_of_cmp_eq _ _⟩

instance : DecidableEq Value := fun _ _ => decidable_of_iff _ cmp_eq_iff

end Value

end ScopedStore
