/-!
# Key-sorted maps

A finite map is the list of its entries in ascending key order, so that two maps with the same
bindings are equal. `insert` walks to the place of its key and replaces an entry that is there;
`find?` takes the first entry of a key, which makes looking up after an insertion right for every
list, sorted or not. `Sorted` is the invariant that `insert`, `erase` and `ofList` keep.
-/

namespace ScopedStore

universe u v

/-- A finite map as the list of its entries in ascending key order. -/
structure SortedMap (κ : Type u) (α : Type v) where
  entries : List (κ × α)
deriving DecidableEq

namespace SortedMap

variable {κ : Type u} {α : Type v}

def empty : SortedMap κ α := ⟨[]⟩

instance : EmptyCollection (SortedMap κ α) := ⟨empty⟩

instance : Inhabited (SortedMap κ α) := ⟨empty⟩

def keys (m : SortedMap κ α) : List κ := m.entries.map Prod.fst

def values (m : SortedMap κ α) : List α := m.entries.map Prod.snd

def size (m : SortedMap κ α) : Nat := m.entries.length

def isEmpty (m : SortedMap κ α) : Bool := m.entries.isEmpty

section Ordered

variable [Ord κ]

/-- Puts a binding before the first greater key, in place of an entry with an equal key. -/
def insertEntry (k : κ) (v : α) : List (κ × α) → List (κ × α)
  | [] => [(k, v)]
  | e :: rest =>
    match compare k e.1 with
    | .lt => (k, v) :: e :: rest
    | .eq => (k, v) :: rest
    | .gt => e :: insertEntry k v rest

def insert (m : SortedMap κ α) (k : κ) (v : α) : SortedMap κ α := ⟨insertEntry k v m.entries⟩

def findIn? (k : κ) : List (κ × α) → Option α
  | [] => none
  | e :: rest => if compare k e.1 = .eq then some e.2 else findIn? k rest

def find? (m : SortedMap κ α) (k : κ) : Option α := findIn? k m.entries

def contains (m : SortedMap κ α) (k : κ) : Bool := (m.find? k).isSome

def erase (m : SortedMap κ α) (k : κ) : SortedMap κ α :=
  ⟨m.entries.filter fun e => compare k e.1 != .eq⟩

/-- Binds the pairs of a list one after the other, so that the last binding of a key stays. -/
def ofList (l : List (κ × α)) : SortedMap κ α := l.foldl (fun m e => m.insert e.1 e.2) empty

/-- The keys strictly ascend. -/
def Sorted (m : SortedMap κ α) : Prop := m.entries.Pairwise fun a b => compare a.1 b.1 = .lt

/-! ## Lookup -/

section Lookup

variable [Std.LawfulEqOrd κ]

theorem findIn?_insertEntry (k k' : κ) (v : α) (l : List (κ × α)) :
    findIn? k' (insertEntry k v l) =
      if compare k' k = .eq then some v else findIn? k' l := by
  induction l with
  | nil => simp [insertEntry, findIn?]
  | cons e rest ih =>
    by_cases hk : compare k' k = .eq
    · have hk' : k' = k := Std.LawfulEqCmp.eq_of_compare hk
      subst hk'
      simp only [insertEntry]
      split <;> rename_i h <;> simp_all [findIn?]
    · simp only [insertEntry]
      split
      · simp [findIn?, hk]
      · rename_i h
        have h' : k = e.1 := Std.LawfulEqCmp.eq_of_compare h
        simp [findIn?, hk, ← h']
      · simp [findIn?, ih, hk]

@[simp] theorem find?_insert (m : SortedMap κ α) (k k' : κ) (v : α) :
    (m.insert k v).find? k' = if compare k' k = .eq then some v else m.find? k' :=
  findIn?_insertEntry k k' v m.entries

end Lookup

end Ordered

end SortedMap

end ScopedStore
