import ScopedStore.Text.Quoted
import ScopedStore.Value.Basic

/-!
# The text of values

How messages show a value: words for null and truth values, decimal integers, quoted texts, the
length of a byte string, items between brackets and fields between braces. Field names stand as they
are.
-/

namespace ScopedStore

def commaSeparated (parts : List String) : String := ", ".intercalate parts

namespace Value

mutual

def display : Value → String
  | .null => "null"
  | .bool b => if b then "true" else "false"
  | .integer n => toString n.toInt
  | .text s => Text.quoted s
  | .bytes b => "<" ++ toString b.length ++ " bytes>"
  | .array items => "[" ++ commaSeparated (displayItems items) ++ "]"
  | .document fields => "\x7b" ++ commaSeparated (displayFields fields.entries) ++ "\x7d"
termination_by structural v => v

def displayItems : List Value → List String
  | [] => []
  | v :: rest => v.display :: displayItems rest
termination_by structural l => l

/-- The texts of the fields: the name, a colon and the value. -/
def displayFields : List (String × Value) → List String
  | [] => []
  | (k, v) :: rest => (k ++ ": " ++ v.display) :: displayFields rest
termination_by structural l => l

end

end Value

def Document.display (d : Document) : String := (Value.document d).display

end ScopedStore
