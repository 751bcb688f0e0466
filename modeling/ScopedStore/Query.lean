import ScopedStore.Filter

/-!
# Shaping results

Found documents are sorted by keys, cut to a page and projected to fields; a pipeline applies such
stages one after the other. Sorting is stable: documents that agree on every key keep their order.
A projection keeps the identifying field and the listed fields.
-/

namespace ScopedStore

inductive SortOrder where
  | ascending
  | descending
deriving DecidableEq

abbrev SortKey := String × SortOrder

def Document.pathOrNull (d : Document) (path : String) : Value := (d.getPath? path).getD .null

def SortKey.cmp (key : SortKey) (a b : Document) : Ordering :=
  let o := (a.pathOrNull key.1).cmp (b.pathOrNull key.1)
  match key.2 with
  | .ascending => o
  | .descending => o.swap

/-- Compares two documents by the first key in which they differ. -/
def compareBy : List SortKey → Document → Document → Ordering
  | [], _, _ => .eq
  | key :: rest, a, b => (key.cmp a b).then (compareBy rest a b)

/-- Sorts documents by keys, stably. -/
def sortDocuments (keys : List SortKey) (docs : List Document) : List Document :=
  docs.mergeSort fun a b => (compareBy keys a b).isLE

/-- The identifying field and the listed fields of a document, as far as they are there. -/
def project (fields : List String) (d : Document) : Document :=
  let start : Document :=
    match d.id? with
    | some v => Document.single Document.idField v
    | none => ∅
  fields.foldl
    (fun out field =>
      match d.getPath? field with
      | some v => out.setPathIfFree field v
      | none => out)
    start

/-- How found documents are shaped. -/
structure FindOptions where
  sort : List SortKey := []
  skip : Option Nat := none
  limit : Option Nat := none
  /-- The fields to keep; all of them when nothing is said. -/
  projection : Option (List String) := none
deriving DecidableEq, Inhabited

/-- Sorts, skips, limits and projects. -/
def FindOptions.shape (o : FindOptions) (docs : List Document) : List Document :=
  let page := (sortDocuments o.sort docs).drop (o.skip.getD 0)
  let page :=
    match o.limit with
    | some n => page.take n
    | none => page
  match o.projection with
  | some fields => page.map (project fields)
  | none => page

inductive Stage where
  /-- Keeps the documents that the filter accepts. -/
  | keep (filter : Filter)
  | sort (keys : List SortKey)
  | skip (n : Nat)
  | limit (n : Nat)
  | project (fields : List String)
  /-- Replaces the documents by one that holds their number. -/
  | count (field : String)

def Stage.apply : Stage → List Document → List Document
  | .keep filter, docs => docs.filter filter.accepts
  | .sort keys, docs => sortDocuments keys docs
  | .skip n, docs => docs.drop n
  | .limit n, docs => docs.take n
  | .project fields, docs => docs.map (ScopedStore.project fields)
  | .count field, docs => [Document.single field (.ofCount docs.length)]

def runPipeline (stages : List Stage) (docs : List Document) : List Document :=
  stages.foldl (fun docs stage => stage.apply docs) docs

end ScopedStore
