import ScopedStore.SortedMap

/-!
# Values and documents

A value is null, a truth value, a 64-bit integer, a text, a byte string, an array of values or an
embedded document; there are no fractions. A document is a key-sorted map from field names to
values. Its field `_id` identifies it within a collection.
-/

namespace ScopedStore

/-- A dynamic value. -/
inductive Value where
  | null
  | bool (b : Bool)
  | integer (n : Int64)
  | text (s : String)
  | bytes (b : List UInt8)
  | array (items : List Value)
  | document (fields : SortedMap String Value)
deriving Inhabited

/-- A map from field names to values. -/
abbrev Document := SortedMap String Value

/-- Integers lie below this bound and not below its opposite. -/
def integerBound : Int := 0x8000000000000000

namespace Value

/-- The value that stands for a whole number given as an integer, modulo the word. -/
def ofInt (n : Int) : Value := .integer (Int64.ofInt n)

/-- The value that stands for a number of things; the greatest integer stands for all that lie beyond. -/
def ofCount (n : Nat) : Value :=
  if (n : Int) < integerBound then .ofInt n else .ofInt (integerBound - 1)

def ofOption : Option Value → Value
  | none => .null
  | some v => v

def isNull : Value → Bool
  | .null => true
  | _ => false

def asBool? : Value → Option Bool
  | .bool b => some b
  | _ => none

def asInteger? : Value → Option Int64
  | .integer n => some n
  | _ => none

def asText? : Value → Option String
  | .text s => some s
  | _ => none

def asArray? : Value → Option (List Value)
  | .array items => some items
  | _ => none

def asDocument? : Value → Option Document
  | .document fields => some fields
  | _ => none

mutual

/-- Every embedded document lists its fields in strictly ascending order. -/
def Ordered : Value → Prop
  | .array items => OrderedItems items
  | .document fields => fields.Sorted ∧ OrderedFields fields.entries
  | _ => True
termination_by structural v => v

def OrderedItems : List Value → Prop
  | [] => True
  | v :: rest => v.Ordered ∧ OrderedItems rest
termination_by structural l => l

def OrderedFields : List (String × Value) → Prop
  | [] => True
  | (_, v) :: rest => v.Ordered ∧ OrderedFields rest
termination_by structural l => l

end

end Value

namespace Document

/-- The name of the field that identifies a document. -/
def idField : String := "_id"

def id? (d : Document) : Option Value := d.find? idField

def single (field : String) (v : Value) : Document := ⟨[(field, v)]⟩

/-- The fields of the document and of every document inside it strictly ascend. -/
def Ordered (d : Document) : Prop := (Value.document d).Ordered

end Document

end ScopedStore
