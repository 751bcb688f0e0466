import ScopedStore.Cbor.Encode

/-!
# Documents from bytes

The reader accepts more than the writer writes: arguments of any width, tags in front of items,
texts, byte strings, arrays and maps of open length, integers as big numbers of up to 16 bytes, byte
strings in place of arrays of small integers, names of kinds as byte strings, and the name of a kind
followed by its content without the map around them. A field that occurs twice keeps its last value,
and bytes after the document are ignored.

Nesting is limited: a map, a tagged value and an array take one level each, of `depthLimit` levels.
Loops run at most `fuel` times; the number of bytes is enough, because each turn takes a byte.
-/

namespace ScopedStore

namespace Cbor

/-- The number of levels that a document may take. -/
def depthLimit : Nat := 256

/-! ## Heads and segments -/

/-- Reads the next head that is not a tag. -/
def untagged? : Nat → Bytes → Option (Head × Bytes)
  | 0, _ => none
  | fuel + 1, bytes =>
    match read? bytes with
    | some (.tag _, rest) => untagged? fuel rest
    | found => found

def bytesLength? : Head → Option (Option Nat)
  | .bytes length => some length
  | _ => none

def textLength? : Head → Option (Option Nat)
  | .text length => some length
  | _ => none

/-- The segments up to the end of an open string that lies `nested` strings deep. -/
def openSegments? (length? : Head → Option (Option Nat)) :
    Nat → Nat → Bytes → Option (List Bytes × Bytes)
  | 0, _, _ => none
  | fuel + 1, nested, bytes =>
    match read? bytes with
    | none => none
    | some (.stop, rest) =>
      if nested ≤ 1 then some ([], rest) else openSegments? length? fuel (nested - 1) rest
    | some (head, rest) =>
      match length? head with
      | none => none
      | some none => openSegments? length? fuel (nested + 1) rest
      | some (some n) => do
        let (segment, rest) ← take? n rest
        let (segments, rest) ← openSegments? length? fuel nested rest
        return (segment :: segments, rest)

/-- The segments of a string whose head is read: one of known length, or those up to the end. -/
def segments? (length? : Head → Option (Option Nat)) (fuel : Nat) :
    Option Nat → Bytes → Option (List Bytes × Bytes)
  | some n, bytes => (take? n bytes).map fun r => ([r.1], r.2)
  | none, bytes => openSegments? length? fuel 1 bytes

def ofUtf8? (bytes : Bytes) : Option String := String.fromUTF8? ⟨bytes.toArray⟩

/-! ## Items -/

def text? (fuel : Nat) (bytes : Bytes) : Option (String × Bytes) := do
  let (head, rest) ← untagged? fuel bytes
  let length ← textLength? head
  let (segments, rest) ← segments? textLength? fuel length rest
  let parts ← segments.mapM ofUtf8?
  return (String.join parts, rest)

def truth? (fuel : Nat) (bytes : Bytes) : Option (Bool × Bytes) := do
  let (head, rest) ← untagged? fuel bytes
  match head with
  | .simple 20 => some (false, rest)
  | .simple 21 => some (true, rest)
  | _ => none

/-- The bytes of a big number, which has at most 16 bytes after leading zeros. -/
def bigNumber? (fuel : Nat) (bytes : Bytes) : Option (Nat × Bytes) := do
  let (head, rest) ← read? bytes
  let length ← bytesLength? head
  let (segments, rest) ← segments? bytesLength? fuel length rest
  let digits := segments.flatten.dropWhile (· = 0)
  if digits.length ≤ 16 then some (ofBigEndian digits, rest) else none

/-- Reads an integer as its sign (true below zero) and its argument, past tags. -/
def signed? : Nat → Bytes → Option ((Bool × Nat) × Bytes)
  | 0, _ => none
  | fuel + 1, bytes =>
    match read? bytes with
    | some (.unsigned n, rest) => some ((false, n), rest)
    | some (.negative n, rest) => some ((true, n), rest)
    | some (.tag 2, rest) => (bigNumber? fuel rest).map fun r => ((false, r.1), r.2)
    | some (.tag 3, rest) => (bigNumber? fuel rest).map fun r => ((true, r.1), r.2)
    | some (.tag _, rest) => signed? fuel rest
    | _ => none

def integer? (fuel : Nat) (bytes : Bytes) : Option (Int64 × Bytes) := do
  let ((negative, n), rest) ← signed? fuel bytes
  if n < integerBound.toNat then
    some (Int64.ofInt (if negative then -1 - (n : Int) else (n : Int)), rest)
  else none

def byte? (fuel : Nat) (bytes : Bytes) : Option (UInt8 × Bytes) := do
  let ((negative, n), rest) ← signed? fuel bytes
  if !negative && n < 256 then some (UInt8.ofNat n, rest) else none

/-- Reads as many items as a head announces, or up to the end of an open sequence. -/
def many? {α : Type} (item? : Bytes → Option (α × Bytes)) :
    Nat → Option Nat → Bytes → Option (List α × Bytes)
  | _, some 0, bytes => some ([], bytes)
  | 0, _, _ => none
  | fuel + 1, some (n + 1), bytes => do
    let (x, rest) ← item? bytes
    let (xs, rest) ← many? item? fuel (some n) rest
    return (x :: xs, rest)
  | fuel + 1, none, bytes =>
    match read? bytes with
    | some (.stop, rest) => some ([], rest)
    | _ => do
      let (x, rest) ← item? bytes
      let (xs, rest) ← many? item? fuel none rest
      return (x :: xs, rest)

/-! ## Values -/

/-- A reader of one nested value; nothing when no level is left for it. -/
abbrev Nested := Option (Bytes → Option (Value × Bytes))

def name? (fuel : Nat) (bytes : Bytes) : Option (Bytes × Bytes) := do
  let (head, rest) ← untagged? fuel bytes
  match head with
  | .text (some n) => take? n rest
  | .bytes (some n) => take? n rest
  | _ => none

/-- Reads the name of the kind of a tagged value: the key of a map with one entry, or a text. -/
def kind? (fuel : Nat) (bytes : Bytes) : Option (Bytes × Bytes) := do
  let (head, rest) ← untagged? fuel bytes
  match head with
  | .map (some 1) => name? fuel rest
  | .text (some n) => take? n rest
  | _ => none

/-- Reads the bytes of a byte string: an array of small integers, or a byte string. -/
def byteString? (nested : Nested) (fuel : Nat) (bytes : Bytes) : Option (Bytes × Bytes) := do
  let (head, rest) ← untagged? fuel bytes
  match head with
  | .array length => if nested.isSome then many? (byte? fuel) fuel length rest else none
  | .bytes length =>
    let (segments, rest) ← segments? bytesLength? fuel length rest
    return (segments.flatten, rest)
  | _ => none

/-- Reads the items of an array; a byte string without bytes is an array without items. -/
def items? (nested : Nested) (fuel : Nat) (bytes : Bytes) : Option (List Value × Bytes) := do
  let (head, rest) ← untagged? fuel bytes
  match head with
  | .array length =>
    let item? ← nested
    many? item? fuel length rest
  | .bytes length =>
    let (segments, rest) ← segments? bytesLength? fuel length rest
    if segments.flatten.isEmpty then some ([], rest) else none
  | _ => none

def field? (item? : Bytes → Option (Value × Bytes)) (fuel : Nat) (bytes : Bytes) :
    Option ((String × Value) × Bytes) := do
  let (k, rest) ← text? fuel bytes
  let (v, rest) ← item? rest
  return ((k, v), rest)

def fields? (nested : Nested) (fuel : Nat) (bytes : Bytes) : Option (Document × Bytes) := do
  let (head, rest) ← untagged? fuel bytes
  match head with
  | .map length =>
    let item? ← nested
    let (fields, rest) ← many? (field? item? fuel) fuel length rest
    return (SortedMap.ofList fields, rest)
  | _ => none

def content? (nested : Nested) (fuel : Nat) (name bytes : Bytes) : Option (Value × Bytes) :=
  if name = utf8 "Null" then some (.null, bytes)
  else if name = utf8 "Bool" then (truth? fuel bytes).map fun r => (.bool r.1, r.2)
  else if name = utf8 "Integer" then (integer? fuel bytes).map fun r => (.integer r.1, r.2)
  else if name = utf8 "Text" then (text? fuel bytes).map fun r => (.text r.1, r.2)
  else if name = utf8 "Bytes" then
    (byteString? nested fuel bytes).map fun r => (.bytes r.1, r.2)
  else if name = utf8 "Array" then (items? nested fuel bytes).map fun r => (.array r.1, r.2)
  else if name = utf8 "Document" then
    (fields? nested fuel bytes).map fun r => (.document r.1, r.2)
  else none

def tagged? (nested : Nested) (fuel : Nat) (bytes : Bytes) : Option (Value × Bytes) := do
  let (name, rest) ← kind? fuel bytes
  content? nested fuel name rest

/-- Reads a value that may take so many levels: one for itself and one for its array or map. -/
def value? (fuel : Nat) : Nat → Bytes → Option (Value × Bytes)
  | 0 => fun _ => none
  | 1 => tagged? none fuel
  | depth + 2 => tagged? (some (value? fuel depth)) fuel

end Cbor

def Document.decode? (bytes : Bytes) : Option Document :=
  (Cbor.fields? (some (Cbor.value? bytes.length (Cbor.depthLimit - 1))) bytes.length bytes).map
    Prod.fst

end ScopedStore
