import ScopedStore.Cbor.Head
import ScopedStore.Value.Basic

/-!
# Documents as bytes

A document is a map from texts to tagged values. A tagged value is a map with one entry, the name of
the kind and the content; null has no content and is its name alone. A byte string is an array of
small integers. Every head takes the fewest bytes, so a document has one encoding.
-/

namespace ScopedStore

namespace Cbor

def utf8 (s : String) : Bytes := s.toUTF8.data.toList

def text (s : String) : Bytes := write 3 (utf8 s).length ++ utf8 s

def integer (n : Int64) : Bytes :=
  if 0 ≤ n.toInt then write 0 n.toInt.toNat else write 1 (-1 - n.toInt).toNat

def truth (b : Bool) : Bytes := [if b then 0xf5 else 0xf4]

/-- The head of a map with one entry, and the name of a kind as its key. -/
def kind (name : String) : Bytes := write 5 1 ++ text name

mutual

def value : Value → Bytes
  | .null => text "Null"
  | .bool b => kind "Bool" ++ truth b
  | .integer n => kind "Integer" ++ integer n
  | .text s => kind "Text" ++ text s
  | .bytes b => kind "Bytes" ++ (write 4 b.length ++ b.flatMap fun x => write 0 x.toNat)
  | .array items => kind "Array" ++ (write 4 items.length ++ values items)
  | .document fields => kind "Document" ++ (write 5 fields.entries.length ++ entries fields.entries)
termination_by structural v => v

def values : List Value → Bytes
  | [] => []
  | v :: rest => value v ++ values rest
termination_by structural l => l

def entries : List (String × Value) → Bytes
  | [] => []
  | (k, v) :: rest => text k ++ (value v ++ entries rest)
termination_by structural l => l

end

end Cbor

/-- The bytes that stand for a document. -/
def Document.encode (d : Document) : Bytes :=
  Cbor.write 5 d.entries.length ++ Cbor.entries d.entries

end ScopedStore
