import WideColumn.Calendar
import WideColumn.Integer
/-!
Instants as milliseconds since 1970, in 64 bits, and their text as dates and times of day.
-/

namespace WideColumn

/-- Milliseconds since the start of 1970, negative before it. -/
structure Timestamp where
  millis : BitVec 64
  deriving DecidableEq

namespace Timestamp

def value (t : Timestamp) : Int := t.millis.toInt

/-- The instant of whole seconds and microseconds, the latter cut off to milliseconds toward zero; none if a
step does not fit. -/
def ofParts? (seconds micros : BitVec 64) : Option Timestamp :=
  match Integer.mul seconds 1000 with
  | .ok millis => (Integer.add millis (micros.sdiv 1000)).toOption.map Timestamp.mk
  | .error _ => none

/-- Whole seconds since 1970, rounded down. -/
def seconds (t : Timestamp) : Int := t.value / 1000

def text (t : Timestamp) : String := Integer.text t.millis

/-! ## Dates -/

/-- At least `n` digits, with zeros in front. -/
def padded (n k : Nat) : List Char :=
  let digits := Numeral.digits k
  List.replicate (n - digits.length) '0' ++ digits

/-- A year of four digits; one outside 0 to 9999 has a sign. -/
def yearText (year : Int) : List Char :=
  if 0 ≤ year ∧ year ≤ 9999 then padded 4 year.toNat
  else (if year < 0 then '-' else '+') :: padded 4 year.natAbs

/-- First and last instant that has a date. -/
def datedRange : Int × Int := (-8334601228800000, 8210266876799999)

/-- Date, time of day and zero offset, with three decimals of a second unless they are zero; none beyond the
dated range. -/
def dateText? (t : Timestamp) : Option String :=
  let millis := t.value
  if millis < datedRange.1 ∨ datedRange.2 < millis then none
  else
    let date := Date.ofDayNumber (millis / 86400000)
    let inDay := (millis % 86400000).toNat
    let fraction := if inDay % 1000 = 0 then [] else '.' :: padded 3 (inDay % 1000)
    some <| String.ofList <| yearText date.year ++ '-' :: padded 2 date.month ++ '-' :: padded 2 date.day ++
      'T' :: padded 2 (inDay / 3600000) ++ ':' :: padded 2 (inDay / 60000 % 60) ++
      ':' :: padded 2 (inDay / 1000 % 60) ++ fraction ++ "+00:00".toList

/-! ## Reading -/

/-- Exactly `n` digits from the front, and what follows them. -/
def digits? (n : Nat) (cs : List Char) : Option (Nat × List Char) :=
  if (cs.take n).length = n then (Numeral.natural? (cs.take n)).map (·, cs.drop n) else none

/-- The rest after one of the given characters. -/
def after? (allowed : List Char) : List Char → Option (List Char)
  | [] => none
  | c :: cs => if c ∈ allowed then some cs else none

/-- Milliseconds of a fraction of a second, of which later digits are dropped, and what follows it. -/
def fraction? : List Char → Option (Nat × List Char)
  | '.' :: cs =>
    let digits := cs.takeWhile Numeral.isDigit
    if digits = [] then none
    else some (Nat.ofDigitChars 10 ((digits ++ ['0', '0']).take 3) 0, cs.dropWhile Numeral.isDigit)
  | cs => some (0, cs)

/-- Minutes of an offset from universal time, which ends the text. -/
def offset? (cs : List Char) : Option Int :=
  match cs with
  | ['Z'] => some 0
  | ['z'] => some 0
  | c :: cs => do
    let sign : Int ← if c = '+' then some 1 else if c = '-' ∨ c = '\u2212' then some (-1) else none
    let (hours, cs) ← digits? 2 cs
    let cs ← after? [':'] cs
    let (minutes, cs) ← digits? 2 cs
    if cs = [] ∧ hours ≤ 23 ∧ minutes ≤ 59 then some (sign * (hours * 60 + minutes)) else none
  | [] => none

/-- Milliseconds since 1970 of a date, a time of day and an offset. The 60th second of a minute follows the
59th. -/
def dateTime? (cs : List Char) : Option Int := do
  let (year, cs) ← digits? 4 cs
  let cs ← after? ['-'] cs
  let (month, cs) ← digits? 2 cs
  let cs ← after? ['-'] cs
  let (day, cs) ← digits? 2 cs
  let cs ← after? ['T', 't', ' '] cs
  let (hour, cs) ← digits? 2 cs
  let cs ← after? [':'] cs
  let (minute, cs) ← digits? 2 cs
  let cs ← after? [':'] cs
  let (second, cs) ← digits? 2 cs
  let (millis, cs) ← fraction? cs
  let offset ← offset? cs
  let date : Date := ⟨year, month, day⟩
  if date.isValid ∧ hour ≤ 23 ∧ minute ≤ 59 ∧ second ≤ 60 then
    some (((date.dayNumber * 1440 + hour * 60 + minute - offset) * 60 + second) * 1000 + millis)
  else none

/-- The instant written as milliseconds, or as a date and a time of day. -/
def ofText? (s : String) : Option Timestamp :=
  match Integer.ofText? 64 s with
  | some millis => some ⟨millis⟩
  | none => (dateTime? s.toList).map fun n => ⟨BitVec.ofInt 64 n⟩

end Timestamp

end WideColumn
