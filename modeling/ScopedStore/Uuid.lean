import ScopedStore.Text.Hex

/-!
# Universally unique identifiers

A 128-bit number, written as 32 lower-case hexadecimal digits in groups of 8, 4, 4, 4 and 12. The
identifiers made here have the layout of version 4: 122 free bits, which are the bits of a seed, so
different seeds below `2 ^ 122` give different identifiers. `seedAvoiding` chooses a seed from which
on no identifier occurs in a given text, as no random one would.
-/

namespace ScopedStore

structure Uuid where
  number : Nat
deriving DecidableEq, Inhabited

namespace Uuid

/-- The identifier of version 4 whose free bits are the bits of a seed. -/
def ofSeed (seed : Nat) : Uuid :=
  ⟨(seed >>> 74 % 1 <<< 48) <<< 80 + 4 <<< 76 + (seed >>> 62 % 1 <<< 12) <<< 64
    + 2 <<< 62 + seed % 1 <<< 62⟩

def grouped (digits : List Char) : List Char :=
  digits.take 8 ++ '-' :: (digits.drop 8).take 4 ++ '-' :: (digits.drop 12).take 4
    ++ '-' :: (digits.drop 16).take 4 ++ '-' :: digits.drop 20

def display (u : Uuid) : String := String.ofList (grouped (Text.hexDigits 32 u.number))

/-- Whether a character may stand at a place of the written form of version 4. -/
def mayStandAt (place : Nat) (c : Char) : Bool :=
  if place = 8 || place = 13 || place = 18 || place = 23 then c = '-'
  else if place = 14 then c = '4'
  else if place = 19 then c = '8' || c = '9' || c = 'a' || c = 'b'
  else ('0' ≤ c && c ≤ '9') || ('a' ≤ c && c ≤ 'f')

def takeFrom? : Nat → Nat → List Char → Option (List Char × List Char)
  | 0, _, cs => some ([], cs)
  | _ + 1, _, [] => none
  | n + 1, place, c :: cs =>
    if mayStandAt place c then
      (takeFrom? n (place + 1) cs).map fun (taken, rest) => (c :: taken, rest)
    else none

/-- Takes the written form of an identifier of version 4 from the front of a text. -/
def take? (cs : List Char) : Option (List Char × List Char) := takeFrom? 36 0 cs

/-! ## Reading -/

/-- What stands after `urn:uuid:`, whose letters may be of either case, or between braces; another
text is left alone. -/
def unwrapped (cs : List Char) : List Char :=
  if (cs.take 9).map Char.toLower = "urn:uuid:".toList then cs.drop 9
  else if cs.head? = some '\x7b' && cs.getLast? = some '\x7d' then (cs.drop 1).dropLast
  else cs

/-- Reads 32 hexadecimal digits of either case: without dashes, or in groups, which may stand after
`urn:uuid:` or between braces. -/
def ofString? (s : String) : Option Uuid := do
  let cs := s.toList
  let inner := unwrapped cs
  let digits := inner.filter (· ≠ '-')
  if digits.length ≠ 32 then none
  else if cs ≠ digits && inner ≠ grouped digits then none
  else
    let values ← digits.mapM Text.hexValue?
    return ⟨values.foldl (fun n d => 16 * n + d) 0⟩

/-! ## Seeds -/

/-- The first seed of a family. The identifiers of a family share their first 13 characters; those of
different families differ there. -/
def family (k : Nat) : Nat := (0x7c3e5a9d16b4 + k) <<< 74

def familyName (k : Nat) : List Char := (ofSeed (family k)).display.toList.take 13

def occursIn (part : List Char) : List Char → Bool
  | [] => part.isEmpty
  | c :: cs => part.isPrefixOf (c :: cs) || occursIn part cs

/-- The first seed of the first family of which no identifier occurs in a text. A text has fewer than
its length of the names of families as parts, so one of so many families is free. -/
def seedAvoiding (text : String) : Nat :=
  let cs := text.toList
  family (((List.range cs.length).find? fun k => !occursIn (familyName k) cs).getD cs.length)

end Uuid

end ScopedStore
