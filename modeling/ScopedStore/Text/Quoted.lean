import ScopedStore.Text.Unprintable

/-!
# Quoted text

A text is written between double quotes. A double quote, a backslash, a tab, a line feed, a carriage
return and a null character are written with a backslash and one letter; a character that is not
printable, extends the grapheme before it or is shown as nothing is written by its code point in
lower-case hexadecimal between braces; every other character stands for itself.
-/

namespace ScopedStore.Text

/-- The characters that one character is written with. -/
def escapeChar (c : Char) : List Char :=
  if c = '\x00' then ['\\', '0']
  else if c = '\t' then ['\\', 't']
  else if c = '\n' then ['\\', 'n']
  else if c = '\r' then ['\\', 'r']
  else if c = '"' then ['\\', '"']
  else if c = '\\' then ['\\', '\\']
  else if isExtending c || isFiller c || !isPrintable c then
    ['\\', 'u', '\x7b'] ++ Nat.toDigits 16 c.toNat ++ ['\x7d']
  else [c]

def quoted (s : String) : String :=
  String.ofList ('"' :: s.toList.flatMap escapeChar ++ ['"'])

end ScopedStore.Text
