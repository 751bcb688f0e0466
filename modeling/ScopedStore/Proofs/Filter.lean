import ScopedStore.Filter

/-!
# What combined filters accept

A conjunction is kept flat, by five rules for what stands on either side, and accepts what both of its
sides accept (`accepts_and`). So a chain of conjunctions accepts what each of its filters accepts. A
disjunction takes the other filter in on one side only (`accepts_or`).
-/

namespace ScopedStore

namespace Filter

theorem acceptedByAll_append (fs gs : List Filter) (d : Document) :
    acceptedByAll (fs ++ gs) d = (acceptedByAll fs d && acceptedByAll gs d) := by
  induction fs with
  | nil => rfl
  | cons f rest ih => rw [List.cons_append, acceptedByAll, acceptedByAll, ih, Bool.and_assoc]

theorem accepts_and (f g : Filter) (d : Document) :
    (f.and g).accepts d = (f.accepts d && g.accepts d) := by
  rw [Filter.and.eq_def]
  split <;> simp [accepts, acceptedByAll, acceptedByAll_append]

theorem acceptedByAny_append (fs gs : List Filter) (d : Document) :
    acceptedByAny (fs ++ gs) d = (acceptedByAny fs d || acceptedByAny gs d) := by
  induction fs with
  | nil => rfl
  | cons f rest ih => rw [List.cons_append, acceptedByAny, acceptedByAny, ih, Bool.or_assoc]

theorem accepts_or (f g : Filter) (d : Document) :
    (f.or g).accepts d = (f.accepts d || g.accepts d) := by
  rw [Filter.or.eq_def]
  split <;> simp [accepts, acceptedByAny, acceptedByAny_append]

theorem accepts_negate (f : Filter) (d : Document) : f.negate.accepts d = !f.accepts d := rfl

theorem filter_accepts_and (f g : Filter) (docs : List Document) :
    docs.filter (f.and g).accepts = (docs.filter f.accepts).filter g.accepts := by
  rw [List.filter_filter]
  congr 1
  funext d
  rw [accepts_and, Bool.and_comm]

theorem accepts_foldl_and (fs : List Filter) (f : Filter) (d : Document) :
    (fs.foldl and f).accepts d = true ↔ f.accepts d = true ∧ ∀ g ∈ fs, g.accepts d = true := by
  induction fs generalizing f with
  | nil => simp
  | cons g rest ih =>
    rw [List.foldl_cons, ih, accepts_and, Bool.and_eq_true, List.forall_mem_cons, and_assoc]

end Filter

end ScopedStore
