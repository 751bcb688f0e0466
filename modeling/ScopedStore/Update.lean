import ScopedStore.Value.Path

/-!
# Updates

An update is a list of operators that apply one after the other. Each operator applies as a whole or
not at all; `run` keeps what the operators before a failing one did, `apply` keeps the outcome only
when every operator applied. The identifying field can be set to the value it has, and never
removed.
-/

namespace ScopedStore

inductive UpdateOp where
  | set (field : String) (value : Value)
  | unset (field : String)
  /-- Adds to an integer; a missing field counts from zero. -/
  | increment (field : String) (amount : Int64)
  /-- Appends to an array; a missing field becomes an array of one item. -/
  | push (field : String) (value : Value)
deriving DecidableEq

structure Update where
  ops : List UpdateOp
deriving DecidableEq, Inhabited

/-- The sum of two integers, if it fits the word. -/
def addWithin? (a b : Int64) : Option Int64 :=
  let sum := a.toInt + b.toInt
  if -integerBound ≤ sum && sum < integerBound then some (Int64.ofInt sum) else none

def UpdateOp.apply : UpdateOp → Document → Except StoreError Document
  | .set field value, d =>
    if field = Document.idField && d.id?.any (· ≠ value) then
      .error (.invalidUpdate .immutableId)
    else d.setPath field value
  | .unset field, d =>
    if field = Document.idField then .error (.invalidUpdate .immutableId)
    else .ok (d.removePath field)
  | .increment field amount, d =>
    match d.fieldPath? field with
    | some (.integer n) =>
      match addWithin? n amount with
      | some sum => .ok (d.replacePath field (.integer sum))
      | none => .error (.invalidUpdate (.overflow field))
    | some _ => .error (.invalidUpdate (.notInteger field))
    | none => d.setPath field (.integer amount)
  | .push field value, d =>
    match d.fieldPath? field with
    | some (.array items) => .ok (d.replacePath field (.array (items ++ [value])))
    | some _ => .error (.invalidUpdate (.notArray field))
    | none => d.setPath field (.array [value])

namespace Update

def isEmpty (u : Update) : Bool := u.ops.isEmpty

/-- Applies operators up to the first that fails, and gives the document reached. -/
def runOps : List UpdateOp → Document → Document × Except StoreError Unit
  | [], d => (d, .ok ())
  | op :: rest, d =>
    match op.apply d with
    | .ok d => runOps rest d
    | .error e => (d, .error e)

def run (u : Update) (d : Document) : Document × Except StoreError Unit := runOps u.ops d

/-- The document after every operator, if all of them apply. -/
def apply (u : Update) (d : Document) : Except StoreError Document :=
  match u.run d with
  | (d, .ok ()) => .ok d
  | (_, .error e) => .error e

/-- Refuses an update without operators. -/
def check (u : Update) : Except StoreError Unit :=
  if u.isEmpty then .error (.invalidUpdate .noOperator) else .ok ()

end Update

end ScopedStore
