import WideColumn.Bytes
import WideColumn.Text.Quoted
/-!
Byte strings as hexadecimal text, with the mark `0x` in front.
-/

namespace WideColumn

/-- Why a text is not hexadecimal. -/
inductive HexError where
  /-- A digit is left without a partner. -/
  | oddLength
  /-- A byte, shown as the character of its number, that is no digit. -/
  | badDigit (c : Char) (position : Nat)
  deriving DecidableEq

def HexError.message : HexError → String
  | .oddLength => "Odd number of digits"
  | .badDigit c position => s!"Invalid character {Text.quotedChar c} at position {position}"

namespace Blob

/-- The bytes of a text as characters, without a leading `0x` or `0X`. -/
def digitsOf (s : String) : List Char :=
  match (Text.utf8 s).map fun b => Char.ofNat b.toNat with
  | '0' :: 'x' :: cs => cs
  | '0' :: 'X' :: cs => cs
  | cs => cs

/-- The first thing wrong with digits that denote no bytes. -/
def fault (cs : List Char) : HexError :=
  if cs.length % 2 = 1 then .oddLength
  else
    let position := cs.findIdx fun c => (Bytes.hexValue? c).isNone
    .badDigit (cs.getD position ' ') position

/-- The bytes that hexadecimal text denotes. -/
def ofText (s : String) : Except HexError Bytes :=
  match Bytes.ofHexDigits? (digitsOf s) with
  | some bytes => .ok bytes
  | none => .error (fault (digitsOf s))

/-- The text of a byte string, in lower case and with its mark. -/
def text (bs : Bytes) : String := "0x" ++ bs.hex

end Blob

end WideColumn
