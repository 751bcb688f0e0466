import ScopedStore.Value.Path

/-!
# Filters

A filter accepts or refuses documents. Equality finds a missing field equal to null and an array
equal to each of its items; a range test compares values of one kind only, and reaches the items of
an array when it is not itself about an array. `and`, `or` and `negate` combine filters; a
conjunction stays flat and drops the filter that accepts everything.
-/

namespace ScopedStore

inductive RangeTest where
  | above
  | atLeast
  | below
  | atMost
deriving DecidableEq

/-- Whether an order of a value to the bound passes the test. -/
def RangeTest.accepts : RangeTest → Ordering → Bool
  | .above, o => o == .gt
  | .atLeast, o => o != .lt
  | .below, o => o == .lt
  | .atMost, o => o != .gt

/-- A condition on documents. -/
inductive Filter where
  /-- Every document. -/
  | all
  | eq (field : String) (value : Value)
  | ne (field : String) (value : Value)
  | range (test : RangeTest) (field : String) (bound : Value)
  | oneOf (field : String) (values : List Value)
  /-- The field is there, or is not. -/
  | present (field : String) (expected : Bool)
  | allOf (filters : List Filter)
  | anyOf (filters : List Filter)
  | not (filter : Filter)
deriving Inhabited

namespace Filter

def id (value : Value) : Filter := .eq Document.idField value

/-! ## Matching -/

/-- Whether the value at a path equals the given one; nothing equals null, an array its items. -/
def fieldEquals (d : Document) (field : String) (value : Value) : Bool :=
  match d.getPath? field with
  | none => value.isNull
  | some found =>
    if found = value then true
    else
      match found with
      | .array items => items.contains value
      | _ => false

/-- Whether two values are of one kind and in an order that passes the test. -/
def inRange (test : RangeTest) (bound found : Value) : Bool :=
  match found.compare? bound with
  | some o => test.accepts o
  | none => false

/-- Whether the value at a path, or an item of it, passes a range test. -/
def fieldInRange (test : RangeTest) (d : Document) (field : String) (bound : Value) : Bool :=
  match d.getPath? field with
  | none => false
  | some found =>
    match found, bound with
    | .array _, .array _ => inRange test bound found
    | .array items, _ => items.any (inRange test bound)
    | _, _ => inRange test bound found

mutual

def accepts : Filter → Document → Bool
  | .all, _ => true
  | .eq field value, d => fieldEquals d field value
  | .ne field value, d => !fieldEquals d field value
  | .range test field bound, d => fieldInRange test d field bound
  | .oneOf field values, d => values.any (fieldEquals d field)
  | .present field expected, d => (d.getPath? field).isSome == expected
  | .allOf filters, d => acceptedByAll filters d
  | .anyOf filters, d => acceptedByAny filters d
  | .not filter, d => !filter.accepts d
termination_by structural f => f

def acceptedByAll : List Filter → Document → Bool
  | [], _ => true
  | f :: rest, d => f.accepts d && acceptedByAll rest d
termination_by structural l => l

def acceptedByAny : List Filter → Document → Bool
  | [], _ => false
  | f :: rest, d => f.accepts d || acceptedByAny rest d
termination_by structural l => l

end

/-! ## Combining -/

/-- Both filters, as one flat conjunction. -/
def and : Filter → Filter → Filter
  | .all, g => g
  | f, .all => f
  | .allOf fs, .allOf gs => .allOf (fs ++ gs)
  | .allOf fs, g => .allOf (fs ++ [g])
  | f, .allOf gs => .allOf (f :: gs)
  | f, g => .allOf [f, g]

/-- At least one of the filters; a disjunction on the left takes the other in. -/
def or : Filter → Filter → Filter
  | .anyOf fs, g => .anyOf (fs ++ [g])
  | f, g => .anyOf [f, g]

def negate (f : Filter) : Filter := .not f

/-! ## The seed of an upsert -/

mutual

/-- Puts the terms of equality that the filter requires into a document, in order; a term whose path
is blocked is left out. -/
def seedFrom : Filter → Document → Document
  | .eq field value, d => d.setPathIfFree field value
  | .allOf filters, d => seedFromAll filters d
  | _, d => d
termination_by structural f => f

def seedFromAll : List Filter → Document → Document
  | [], d => d
  | f :: rest, d => seedFromAll rest (f.seedFrom d)
termination_by structural l => l

end

/-- The document that an upsert starts from: the terms of equality that the filter requires. -/
def seed (f : Filter) : Document := f.seedFrom ∅

end Filter

end ScopedStore
