import ScopedStore.Scope.Facade

/-!
# Descriptions

The one-line descriptions of contexts, scopes, handles, sessions, leases, enlistments and facades. A
record shows its name and its fields between braces, and two dots when it has more to it; a tuple
shows its name and its items between parentheses.
-/

namespace ScopedStore

namespace Describe

/-! ## Shapes -/

def record (name : String) (fields : List (String × String)) : String :=
  name ++ " \x7b " ++ commaSeparated (fields.map fun f => f.1 ++ ": " ++ f.2) ++ " \x7d"

/-- A record that has more than the shown fields. -/
def openRecord (name : String) (fields : List (String × String)) : String :=
  name ++ " \x7b " ++ commaSeparated (fields.map fun f => f.1 ++ ": " ++ f.2) ++ ", .. \x7d"

def tuple (name : String) (items : List String) : String :=
  name ++ "(" ++ commaSeparated items ++ ")"

def list (items : List String) : String := "[" ++ commaSeparated items ++ "]"

def bool (b : Bool) : String := if b then "true" else "false"

def option : Option String → String
  | none => "None"
  | some item => tuple "Some" [item]

/-! ## Values and filters -/

mutual

def value : Value → String
  | .null => "Null"
  | .bool b => tuple "Bool" [bool b]
  | .integer n => tuple "Integer" [toString n.toInt]
  | .text s => tuple "Text" [Text.quoted s]
  | .bytes b => tuple "Bytes" [list (b.map fun x => toString x.toNat)]
  | .array items => tuple "Array" [list (values items)]
  | .document d =>
    tuple "Document"
      [tuple "Document" ["\x7b" ++ commaSeparated (fields d.entries) ++ "\x7d"]]
termination_by structural v => v

def values : List Value → List String
  | [] => []
  | v :: rest => value v :: values rest
termination_by structural l => l

def fields : List (String × Value) → List String
  | [] => []
  | (k, v) :: rest => (Text.quoted k ++ ": " ++ value v) :: fields rest
termination_by structural l => l

end

def rangeTest : RangeTest → String
  | .above => "Gt"
  | .atLeast => "Gte"
  | .below => "Lt"
  | .atMost => "Lte"

mutual

def filter : Filter → String
  | .all => "All"
  | .eq field v => tuple "Eq" [Text.quoted field, value v]
  | .ne field v => tuple "Ne" [Text.quoted field, value v]
  | .range test field v => tuple (rangeTest test) [Text.quoted field, value v]
  | .oneOf field vs => tuple "In" [Text.quoted field, list (values vs)]
  | .present field expected => tuple "Exists" [Text.quoted field, bool expected]
  | .allOf fs => tuple "And" [list (filters fs)]
  | .anyOf fs => tuple "Or" [list (filters fs)]
  | .not f => tuple "Not" [filter f]
termination_by structural f => f

def filters : List Filter → List String
  | [] => []
  | f :: rest => filter f :: filters rest
termination_by structural l => l

end

/-! ## Handles and sessions -/

def ns (n : Namespace) : String :=
  record "Namespace"
    [("database", Text.quoted n.database), ("collection", Text.quoted n.collection)]

def handle (h : Handle) : String :=
  record "MemoryCollection" [("namespace", ns h.ns), ("view_filter", filter h.narrow)]

def sessionId (s : SessionId) : String := tuple "SessionId" [toString s.number]

def txId (id : TxId) : String := tuple "AmbientTxId" [id.uuid.display]

def session (sys : System) (s : SessionRef) : String :=
  record "MemorySession"
    [("id", sessionId s.id), ("in_transaction", bool (sys.inTransaction s))]

/-! ## Transactions and scopes -/

def transaction (sys : System) (key : TxKey) : String :=
  let t := sys.transaction key
  record "AmbientTransaction"
    [("id", txId (sys.txId key)), ("status", t.status.display),
      ("doomed", option (t.doomed.map Text.quoted)),
      ("participants", toString t.participants.length)]

def context (sys : System) (cx : Context) : String :=
  openRecord "Ambient" [("transaction", option (cx.transaction.map (transaction sys)))]

def scopeOption : ScopeOption → String
  | .required => "Required"
  | .requiresNew => "RequiresNew"
  | .suppress => "Suppress"

/-- A scope that is not closed. -/
def scope (sys : System) (s : Scope) : String :=
  record "TransactionScope"
    [("ambient", context sys s.context), ("option", scopeOption s.option),
      ("owns_transaction", bool s.owns), ("completed", bool s.completed),
      ("closed", bool false)]

/-! ## Registries and facades -/

def registry (sys : System) (key : RegistryKey) : String :=
  openRecord "SessionRegistry" [("sessions", toString (sys.leaseCount key))]

def lease (sys : System) (key : LeaseKey) : String :=
  let l := sys.lease key
  record "SessionHandle"
    [("tx", txId (sys.txId l.tx)), ("session", sessionId l.session.id),
      ("completed", bool l.completed), ("disposed", bool l.disposed)]

def enlistment (sys : System) (key : EnlistmentKey) : String :=
  let e := sys.enlistment key
  record "Enlistment"
    [("handle", lease sys e.lease), ("unregistered", bool e.unregistered)]

def binding (sys : System) : Binding → String
  | .byRegistry key => tuple "Ambient" [registry sys key]
  | .pinned s => tuple "Pinned" [sessionId s.id]

def facade (sys : System) (f : Facade) : String :=
  match f.reach with
  | .client => openRecord "TxClient" [("binding", binding sys f.binding)]
  | .database name =>
    record "TxDatabase" [("name", Text.quoted name), ("binding", binding sys f.binding)]
  | .collection h =>
    record "TxCollection" [("namespace", ns h.ns), ("binding", binding sys f.binding)]

end Describe

end ScopedStore
