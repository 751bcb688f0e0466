import ScopedStore.Error
import ScopedStore.Value.Order

/-!
# Dotted paths

A path is the list of its segments, written with dots between them; a text without dots is one
segment, and segments may be empty. Reading follows fields of documents and, by decimal number,
items of arrays. The three writers enter documents only: `set` creates the documents that are
missing on the way, `replace` changes a value that is there, `remove` takes it out.
-/

namespace ScopedStore

abbrev Path := List String

namespace Path

def splitDots : List Char → List (List Char)
  | [] => [[]]
  | c :: rest =>
    if c = '.' then [] :: splitDots rest
    else
      match splitDots rest with
      | [] => [[c]]
      | segment :: segments => (c :: segment) :: segments

/-- The segments of a dotted text. -/
def ofString (s : String) : Path := (splitDots s.toList).map String.ofList

/-- Reads a decimal number, digit by digit, onto the digits read so far. -/
def digits? (acc : Nat) : List Char → Option Nat
  | [] => some acc
  | c :: rest =>
    if '0' ≤ c && c ≤ '9' then digits? (10 * acc + (c.toNat - '0'.toNat)) rest else none

/-- The place in an array that a segment names: decimal digits, after a plus sign or none. -/
def index? (segment : String) : Option Nat :=
  match segment.toList with
  | [] => none
  | ['+'] => none
  | '+' :: rest => digits? 0 rest
  | cs => digits? 0 cs

end Path

/-! ## Reading -/

namespace Value

def step? : Value → String → Option Value
  | .document fields, segment => fields.find? segment
  | .array items, segment => (Path.index? segment).bind fun i => items[i]?
  | _, _ => none

def at? : Value → Path → Option Value
  | v, [] => some v
  | v, segment :: rest => (v.step? segment).bind fun next => next.at? rest

end Value

namespace Document

/-- The value at a dotted path; array items are named by their number. -/
def getPath? (d : Document) (path : String) : Option Value :=
  (Value.document d).at? (Path.ofString path)

/-- The value at a path that leads through documents only. -/
def fieldAt? : Document → Path → Option Value
  | _, [] => none
  | d, [segment] => d.find? segment
  | d, segment :: rest =>
    match d.find? segment with
    | some (.document inner) => fieldAt? inner rest
    | _ => none

/-! ## Writing -/

/-- Puts a value at a path, creating the documents that are missing on the way. -/
def setAt : Document → Path → Value → Except StoreError Document
  | d, [], _ => .ok d
  | d, [segment], v => .ok (d.insert segment v)
  | d, segment :: rest, v =>
    match d.find? segment with
    | none => do
      let inner ← setAt ∅ rest v
      return d.insert segment (.document inner)
    | some (.document inner) => do
      let inner ← setAt inner rest v
      return d.insert segment (.document inner)
    | some _ => .error (.invalidUpdate (.notDocument segment))

/-- Replaces the value at a path through documents; without such a value nothing changes. -/
def replaceAt : Document → Path → Value → Document
  | d, [], _ => d
  | d, [segment], v => if d.contains segment then d.insert segment v else d
  | d, segment :: rest, v =>
    match d.find? segment with
    | some (.document inner) => d.insert segment (.document (replaceAt inner rest v))
    | _ => d

/-- Takes the value at a path through documents out; without such a value nothing changes. -/
def removeAt : Document → Path → Document
  | d, [] => d
  | d, [segment] => d.erase segment
  | d, segment :: rest =>
    match d.find? segment with
    | some (.document inner) => d.insert segment (.document (removeAt inner rest))
    | _ => d

def setPath (d : Document) (path : String) (v : Value) : Except StoreError Document :=
  d.setAt (Path.ofString path) v

/-- Puts a value at a dotted path, or leaves the document as it is when the path is blocked. -/
def setPathIfFree (d : Document) (path : String) (v : Value) : Document :=
  match d.setPath path v with
  | .ok d => d
  | .error _ => d

def fieldPath? (d : Document) (path : String) : Option Value := d.fieldAt? (Path.ofString path)

def replacePath (d : Document) (path : String) (v : Value) : Document :=
  d.replaceAt (Path.ofString path) v

def removePath (d : Document) (path : String) : Document := d.removeAt (Path.ofString path)

end Document

end ScopedStore
