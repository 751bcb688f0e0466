import ScopedStore.Value.Basic

/-!
# Snapshots

The documents of a collection as an indented JSON text. A value is written with its kind: null as
the text `"Null"`, every other value as an object whose only member is named by the kind and holds
the content. A byte string is an array of numbers. Each level is indented by two blanks; an array or
object without members takes one line.
-/

namespace ScopedStore

namespace Snapshot

/-! ## Layout -/

/-- The shape of a JSON text; an atom is written as it is. -/
inductive Shape where
  | atom (text : String)
  | list (items : List Shape)
  | object (members : List (String × Shape))

def indent (depth : Nat) : String := "".pushn ' ' (2 * depth)

def hexDigit (n : Nat) : Char := Nat.digitChar (n % 16)

/-- The characters that one character of a JSON string is written with. -/
def escapeChar (c : Char) : List Char :=
  if c = '"' then ['\\', '"']
  else if c = '\\' then ['\\', '\\']
  else if c = '\x08' then ['\\', 'b']
  else if c = '\x0c' then ['\\', 'f']
  else if c = '\n' then ['\\', 'n']
  else if c = '\r' then ['\\', 'r']
  else if c = '\t' then ['\\', 't']
  else if c.toNat < 0x20 then ['\\', 'u', '0', '0', hexDigit (c.toNat / 16), hexDigit c.toNat]
  else [c]

def string (s : String) : String :=
  String.ofList ('"' :: s.toList.flatMap escapeChar ++ ['"'])

mutual

/-- The text of a shape whose first line is indented already. -/
def Shape.render (depth : Nat) : Shape → String
  | .atom text => text
  | .list [] => "[]"
  | .list items => "[\n" ++ renderItems (depth + 1) items ++ "\n" ++ indent depth ++ "]"
  | .object [] => "\x7b\x7d"
  | .object members =>
    "\x7b\n" ++ renderMembers (depth + 1) members ++ "\n" ++ indent depth ++ "\x7d"
termination_by structural s => s

def renderItems (depth : Nat) : List Shape → String
  | [] => ""
  | [s] => indent depth ++ s.render depth
  | s :: rest => indent depth ++ s.render depth ++ ",\n" ++ renderItems depth rest
termination_by structural l => l

def renderMembers (depth : Nat) : List (String × Shape) → String
  | [] => ""
  | [(k, s)] => indent depth ++ string k ++ ": " ++ s.render depth
  | (k, s) :: rest =>
    indent depth ++ string k ++ ": " ++ s.render depth ++ ",\n" ++ renderMembers depth rest
termination_by structural l => l

end

/-! ## Values -/

/-- A value under the name of its kind. -/
def tagged (kind : String) (content : Shape) : Shape := .object [(kind, content)]

mutual

def ofValue : Value → Shape
  | .null => .atom (string "Null")
  | .bool b => tagged "Bool" (.atom (if b then "true" else "false"))
  | .integer n => tagged "Integer" (.atom (toString n.toInt))
  | .text s => tagged "Text" (.atom (string s))
  | .bytes b => tagged "Bytes" (.list (b.map fun x => .atom (toString x.toNat)))
  | .array items => tagged "Array" (.list (ofValues items))
  | .document fields => tagged "Document" (.object (ofFields fields.entries))
termination_by structural v => v

def ofValues : List Value → List Shape
  | [] => []
  | v :: rest => ofValue v :: ofValues rest
termination_by structural l => l

def ofFields : List (String × Value) → List (String × Shape)
  | [] => []
  | (k, v) :: rest => (k, ofValue v) :: ofFields rest
termination_by structural l => l

end

/-- The text of a list of documents. -/
def render (docs : List Document) : String :=
  (Shape.list (docs.map fun d => .object (ofFields d.entries))).render 0

end Snapshot

end ScopedStore
