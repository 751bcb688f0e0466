import ScopedStore.Client.Request
import ScopedStore.Proofs.Filter
import ScopedStore.Proofs.Seed

/-!
# Chains of conjunctions

Filters are joined in a chain in any way that keeps their order. Flattening keeps the terms of equality
in this order too (`terms_and`), and the seed of an upsert is decided by the terms in order, as a later
term may be blocked by an earlier one or take its place. So the documents that are accepted and the seed
depend on the filters of the chain and not on how they were joined (`Chain.accepts_filter_iff`,
`Chain.seed_filter`). A handle that is narrowed again and again, and then asked with one more filter, is
the chain that is joined from the left (`Chain.filter_narrowed`).
-/

namespace ScopedStore

namespace Filter

theorem termsOfAll_append (fs gs : List Filter) :
    termsOfAll (fs ++ gs) = termsOfAll fs ++ termsOfAll gs := by
  induction fs with
  | nil => rfl
  | cons f rest ih => rw [List.cons_append, termsOfAll, termsOfAll, ih, List.append_assoc]

theorem terms_and (f g : Filter) : (f.and g).terms = f.terms ++ g.terms := by
  rw [Filter.and.eq_def]
  split <;> simp [terms, termsOfAll, termsOfAll_append]

/-! ## Chains -/

inductive Chain where
  | one (filter : Filter)
  | join (first second : Chain)

namespace Chain

def parts : Chain → List Filter
  | one f => [f]
  | join first second => first.parts ++ second.parts

def filter : Chain → Filter
  | one f => f
  | join first second => first.filter.and second.filter

theorem accepts_filter_iff (c : Chain) (d : Document) :
    c.filter.accepts d = true ↔ ∀ f ∈ c.parts, f.accepts d = true := by
  induction c with
  | one f => simp [filter, parts]
  | join first second ih₁ ih₂ =>
    rw [filter, parts, accepts_and, Bool.and_eq_true, ih₁, ih₂, List.forall_mem_append]

theorem terms_filter (c : Chain) : c.filter.terms = c.parts.flatMap terms := by
  induction c with
  | one f => simp [filter, parts]
  | join first second ih₁ ih₂ => rw [filter, parts, terms_and, ih₁, ih₂, List.flatMap_append]

theorem seed_filter (c : Chain) : c.filter.seed = Document.putTerms ∅ (c.parts.flatMap terms) := by
  rw [seed_eq, terms_filter]

/-- The chain of a handle that is narrowed by one filter after the other and asked with one more. -/
def narrowed (h : Handle) (fs : List Filter) (asked : Filter) : Chain :=
  join (fs.foldl (fun c f => join c (one f)) (one h.narrow)) (one asked)

theorem filter_narrowed (h : Handle) (fs : List Filter) (asked : Filter) :
    (narrowed h fs asked).filter = (fs.foldl Handle.withFilter h).narrow.and asked := by
  have hnarrow (c : Chain) (h : Handle) (hc : c.filter = h.narrow) :
      (fs.foldl (fun c f => join c (one f)) c).filter = (fs.foldl Handle.withFilter h).narrow := by
    induction fs generalizing c h with
    | nil => exact hc
    | cons f rest ih => exact ih (join c (one f)) (h.withFilter f) (congrArg (·.and f) hc)
  exact congrArg (·.and asked) (hnarrow (one h.narrow) h rfl)

theorem parts_narrowed (h : Handle) (fs : List Filter) (asked : Filter) :
    (narrowed h fs asked).parts = h.narrow :: fs ++ [asked] := by
  have hparts (c : Chain) : (fs.foldl (fun c f => join c (one f)) c).parts = c.parts ++ fs := by
    induction fs generalizing c with
    | nil => exact (List.append_nil _).symm
    | cons f rest ih => rw [List.foldl_cons, ih, parts, parts, List.append_assoc, List.singleton_append]
  exact congrArg (· ++ [asked]) (hparts (one h.narrow))

end Chain

/-! ## The laws -/

/-- Combined filters mean what they say: a conjunction accepts what both filters accept, a disjunction what
at least one accepts, a negation what the filter does not accept. The seed of a conjunction is made of
the terms of the first filter and then those of the second. So two chains of the same filters accept the
same documents and have the same seed, however they were joined; and one of them is what a handle that was
narrowed step by step searches with. -/
theorem combinators_lawful (f g : Filter) :
    (∀ d, ((f.and g).accepts d = true ↔ f.accepts d = true ∧ g.accepts d = true) ∧
      ((f.or g).accepts d = true ↔ f.accepts d = true ∨ g.accepts d = true) ∧
      (f.negate.accepts d = true ↔ ¬f.accepts d = true)) ∧
    (f.and g).seed = Document.putTerms (Document.putTerms ∅ f.terms) g.terms ∧
    (∀ c c' : Chain, c.parts = c'.parts →
      (∀ d, c.filter.accepts d = c'.filter.accepts d) ∧ c.filter.seed = c'.filter.seed) ∧
    ∀ (c : Chain) (h : Handle) (fs : List Filter), c.parts = h.narrow :: fs ++ [g] →
      (∀ d, c.filter.accepts d = ((fs.foldl Handle.withFilter h).narrow.and g).accepts d) ∧
        c.filter.seed = ((fs.foldl Handle.withFilter h).narrow.and g).seed := by
  have hchains (c c' : Chain) (hparts : c.parts = c'.parts) :
      (∀ d, c.filter.accepts d = c'.filter.accepts d) ∧ c.filter.seed = c'.filter.seed := by
    refine ⟨fun d => Bool.eq_iff_iff.2 ?_, ?_⟩
    · rw [c.accepts_filter_iff, c'.accepts_filter_iff, hparts]
    · rw [c.seed_filter, c'.seed_filter, hparts]
  refine ⟨fun d => ⟨?_, ?_, ?_⟩, ?_, hchains, fun c h fs hparts => ?_⟩
  · rw [accepts_and, Bool.and_eq_true]
  · rw [accepts_or, Bool.or_eq_true]
  · rw [accepts_negate, Bool.not_eq_true', Bool.not_eq_true]
  · rw [seed_eq, terms_and, Document.putTerms, List.foldl_append]
    rfl
  · rw [← Chain.filter_narrowed]
    exact hchains c (.narrowed h fs g) (hparts.trans (Chain.parts_narrowed h fs g).symm)

def stock : Handle := { ns := ⟨"shop", "stock"⟩, narrow := .eq "count" (.ofInt 1) }

def recount : Filter := .allOf [.eq "count" (.ofInt 2), .eq "count.of" (.text "boxes")]

/-- Joined from the left or from the right, the later number stays and the field below it is blocked. -/
theorem combinators_lawful_stock :
    let left : Chain := .join (.join (.one stock.narrow) (.one recount)) (.one (.present "sold" false))
    let right : Chain := .join (.one stock.narrow) (.join (.one recount) (.one (.present "sold" false)))
    left.parts = right.parts ∧ left.filter.seed = right.filter.seed ∧
      right.filter.seed = ((stock.withFilter recount).narrow.and (.present "sold" false)).seed ∧
      right.filter.seed = .single "count" (.ofInt 2) := by
  intro left right
  have hparts : left.parts = right.parts := rfl
  obtain ⟨-, -, hchains, hhandle⟩ := combinators_lawful recount (.present "sold" false)
  exact ⟨hparts, (hchains left right hparts).2, (hhandle right stock [recount] rfl).2,
    by decide +kernel⟩

end Filter

end ScopedStore
