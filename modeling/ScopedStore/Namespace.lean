/-!
# Namespaces

A collection is named by its database and its name there. Namespaces are ordered by database, then
by collection.
-/

namespace ScopedStore

/-- The full name of a collection. -/
structure Namespace where
  database : String
  collection : String
deriving DecidableEq, Inhabited

namespace Namespace

def display (ns : Namespace) : String := ns.database ++ "." ++ ns.collection

def cmp (a b : Namespace) : Ordering :=
  (compare a.database b.database).then (compare a.collection b.collection)

instance : Ord Namespace := ⟨cmp⟩

theorem cmp_eq_iff {a b : Namespace} : cmp a b = .eq ↔ a = b := by
  obtain ⟨d, c⟩ := a
  obtain ⟨d', c'⟩ := b
  simp only [cmp, mk.injEq]
  constructor
  · intro h
    cases hd : compare d d' with
    | eq =>
      rw [hd] at h
      exact ⟨Std.LawfulEqCmp.eq_of_compare hd, by simpa using h⟩
    | lt => rw [hd] at h; cases h
    | gt => rw [hd] at h; cases h
  · rintro ⟨rfl, rfl⟩
    simp

instance : Std.ReflOrd Namespace := ⟨cmp_eq_iff.2 rfl⟩

instance : Std.LawfulEqOrd Namespace := ⟨cmp_eq_iff.1⟩

end Namespace

end ScopedStore
