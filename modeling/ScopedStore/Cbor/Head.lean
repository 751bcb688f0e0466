/-!
# Heads of data items

A binary data item starts with a head: a major type in the upper three bits of the first byte and an
argument, which stands in the lower five bits when it is below 24 and otherwise in the 1, 2, 4 or 8
bytes that follow, the most significant byte first. `write` uses the fewest bytes; `read?` accepts
every width. The lower bits 31 mark an item of open length, or its end.
-/

namespace ScopedStore

abbrev Bytes := List UInt8

namespace Cbor

/-- What the head of an item announces; an open length is no number. -/
inductive Head where
  | unsigned (n : Nat)
  | negative (n : Nat)
  | bytes (length : Option Nat)
  | text (length : Option Nat)
  | array (length : Option Nat)
  | map (length : Option Nat)
  | tag (n : Nat)
  | simple (n : Nat)
  | float
  | stop
deriving DecidableEq

/-! ## Writing -/

/-- The lowest `width` bytes of a number, the most significant first. -/
def bigEndian : Nat → Nat → Bytes
  | 0, _ => []
  | width + 1, n => UInt8.ofNat (n >>> (8 * width)) :: bigEndian width n

/-- Arguments lie below this bound: they have 64 bits. -/
def argumentBound : Nat := 0x10000000000000000

/-- The head of a major type with an argument, in the fewest bytes. An argument beyond the
bound has no form; the lower bits 28, which no reader accepts, stand in its place. -/
def write (major n : Nat) : Bytes :=
  if n < 24 then [UInt8.ofNat (32 * major + n)]
  else if n < 0x100 then UInt8.ofNat (32 * major + 24) :: bigEndian 1 n
  else if n < 0x10000 then UInt8.ofNat (32 * major + 25) :: bigEndian 2 n
  else if n < 0x100000000 then UInt8.ofNat (32 * major + 26) :: bigEndian 4 n
  else if n < argumentBound then UInt8.ofNat (32 * major + 27) :: bigEndian 8 n
  else [UInt8.ofNat (32 * major + 28)]

/-! ## Reading -/

def take? : Nat → Bytes → Option (Bytes × Bytes)
  | 0, rest => some ([], rest)
  | _ + 1, [] => none
  | n + 1, b :: rest => (take? n rest).map fun r => (b :: r.1, r.2)

def ofBigEndian (bytes : Bytes) : Nat := bytes.foldl (fun n b => 256 * n + b.toNat) 0

/-- The argument that the lower five bits of a first byte announce; nothing for an open length. -/
def argument? (low : Nat) (rest : Bytes) : Option (Option Nat × Bytes) :=
  if low < 24 then some (some low, rest)
  else if low = 31 then some (none, rest)
  else if low ≤ 27 then (take? (1 <<< (low - 24)) rest).map fun r => (some (ofBigEndian r.1), r.2)
  else none

def Head.ofParts? (major low : Nat) (argument : Option Nat) : Option Head :=
  match major, argument with
  | 0, some n => some (.unsigned n)
  | 1, some n => some (.negative n)
  | 2, length => some (.bytes length)
  | 3, length => some (.text length)
  | 4, length => some (.array length)
  | 5, length => some (.map length)
  | 6, some n => some (.tag n)
  | 7, some n => some (if low ≤ 24 then .simple n else .float)
  | 7, none => some .stop
  | _, _ => none

def read? : Bytes → Option (Head × Bytes)
  | [] => none
  | first :: rest =>
    match argument? (first.toNat % 32) rest with
    | none => none
    | some (argument, rest) =>
      (Head.ofParts? (first.toNat / 32) (first.toNat % 32) argument).map fun head => (head, rest)

end Cbor

end ScopedStore
