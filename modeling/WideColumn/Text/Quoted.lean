import WideColumn.Text.Combining
import WideColumn.Text.Unprintable
/-!
Text between quotes, as messages show it: the quote, the backslash and the usual control characters have
short escapes, every other character that would not show by itself is given by its code point.
-/

namespace WideColumn.Text

/-- Escape by code point, in the fewest lowercase hexadecimal digits. -/
def codePointEscape (c : Char) : List Char :=
  ['\\', 'u', '\x7b'] ++ Nat.toDigits 16 c.toNat ++ ['\x7d']

/-- How a character is written between two `quote` characters. -/
def escape (quote c : Char) : List Char :=
  if c = '\x00' then ['\\', '0']
  else if c = '\t' then ['\\', 't']
  else if c = '\n' then ['\\', 'n']
  else if c = '\r' then ['\\', 'r']
  else if c = '\\' ∨ c = quote then ['\\', c]
  else if isCombining c ∨ isUnprintable c then codePointEscape c
  else [c]

/-- A text between double quotes. -/
def quoted (s : String) : String := String.ofList ('"' :: s.toList.flatMap (escape '"') ++ ['"'])

/-- A character between single quotes. -/
def quotedChar (c : Char) : String := String.ofList ('\x27' :: escape '\x27' c ++ ['\x27'])

end WideColumn.Text
