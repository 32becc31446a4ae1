import Compositing.Number.Decimal
import Compositing.Number.Numeral

/-! # Dates and times

    A moment is a date, a time of day or both, and may tell its distance from
    universal time.  In a document its form is strict; given as a text it is
    taken more loosely: hour 24 passes, and so does a distance after a date
    alone or one with any digits up to a day. -/

namespace Compositing.Settings

/-! ## Parts -/

/-- A number of exactly `count` digits from `least` to `most`, and what follows. -/
def fixed? (count least most : Nat) (text : List Char) : Option (Nat × List Char) :=
  let digits := text.take count
  let n := Number.digitsValue digits
  if digits.length = count && digits.all Char.isDigit && least ≤ n && n ≤ most then
    some (n, text.drop count)
  else none

/-- What follows a character. -/
def after? (c : Char) : List Char → Option (List Char)
  | [] => none
  | d :: rest => if d = c then some rest else none

/-- A number with leading zeros. -/
def padded (width n : Nat) : List Char :=
  let digits := Nat.toDigits 10 n
  List.replicate (width - digits.length) '0' ++ digits

/-! ## Dates -/

/-- A day of the calendar. -/
structure Date where
  year : Nat
  month : Nat
  day : Nat

namespace Date

/-- The days of a month. -/
def monthDays (year month : Nat) : Nat :=
  if month = 2 then
    if year % 4 = 0 && (year % 100 != 0 || year % 400 = 0) then 29 else 28
  else if [4, 6, 9, 11].contains month then 30
  else 31

/-- The date a text begins with, and what follows. -/
def read? (text : List Char) : Option (Date × List Char) := do
  let (year, rest) ← fixed? 4 0 9999 text
  let (month, rest) ← fixed? 2 1 12 (← after? '-' rest)
  let (day, rest) ← fixed? 2 1 (monthDays year month) (← after? '-' rest)
  return (⟨year, month, day⟩, rest)

/-- A date as it is written. -/
def chars (d : Date) : List Char :=
  padded 4 d.year ++ '-' :: padded 2 d.month ++ '-' :: padded 2 d.day

end Date

/-! ## Times of day -/

/-- A time of day; a second 60 is a leap second. -/
structure Clock where
  hour : Nat
  minute : Nat
  second : Nat
  /-- Digits of the fraction of a second: at most nine, no zero at the end. -/
  fraction : List Char

namespace Clock

/-- The fraction of a second a text may begin with, and what follows. -/
def readFraction? (text : List Char) : Option (List Char × List Char) :=
  match text with
  | '.' :: rest =>
    let digits := rest.takeWhile Char.isDigit
    if digits.isEmpty then none
    else some (Number.dropTrailingZeros (digits.take 9), rest.dropWhile Char.isDigit)
  | text => some ([], text)

/-- The time of day a text begins with, whose hour is at most `lastHour`, and what follows. -/
def read? (lastHour : Nat) (text : List Char) : Option (Clock × List Char) := do
  let (hour, rest) ← fixed? 2 0 lastHour text
  let (minute, rest) ← fixed? 2 0 59 (← after? ':' rest)
  let (second, rest) ← fixed? 2 0 60 (← after? ':' rest)
  let (fraction, rest) ← readFraction? rest
  return (⟨hour, minute, second, fraction⟩, rest)

/-- A time of day as it is written. -/
def chars (c : Clock) : List Char :=
  padded 2 c.hour ++ ':' :: padded 2 c.minute ++ ':' :: padded 2 c.second
    ++ if c.fraction.isEmpty then [] else '.' :: c.fraction

end Clock

/-! ## Distances from universal time -/

/-- How far a time of day is from universal time. -/
inductive Offset where
  /-- Universal time itself. -/
  | zulu
  /-- Ahead of universal time, or behind it if negative. -/
  | minutes (ahead : Int)

namespace Offset

/-- A distance that is the whole text, of at most `lastHour` hours and `lastMinute` minutes and
    no more than a day. -/
def read? (lastHour lastMinute : Nat) (text : List Char) : Option Offset :=
  match text with
  | 'Z' :: [] | 'z' :: [] => some .zulu
  | sign :: rest =>
    if Number.isSign sign then do
      let (hour, rest) ← fixed? 2 0 lastHour rest
      let (minute, rest) ← fixed? 2 0 lastMinute (← after? ':' rest)
      let total := 60 * hour + minute
      if rest.isEmpty && total ≤ 24 * 60 then
        some (.minutes (if sign = '-' then -total else total))
      else none
    else none
  | [] => none

/-- A distance as it is written; none at all is ahead. -/
def chars : Offset → List Char
  | .zulu => ['Z']
  | .minutes ahead =>
    let total := ahead.natAbs
    (if ahead < 0 then '-' else '+') :: padded 2 (total / 60) ++ ':' :: padded 2 (total % 60)

end Offset

/-! ## Moments -/

/-- A date, a time of day or both, with or without a distance from universal time. -/
structure Moment where
  date : Option Date
  clock : Option Clock
  offset : Option Offset

namespace Moment

/-- May `c` stand between a date and a time? -/
def isDelimiter (c : Char) : Bool := c == 'T' || c == 't' || c == ' '

/-- A distance that may be left out. -/
def readOffset? (lastHour lastMinute : Nat) (text : List Char) : Option (Option Offset) :=
  if text.isEmpty then some none else (Offset.read? lastHour lastMinute text).map some

/-- The moment that a word of a document is. -/
def ofWord? (word : List Char) : Option Moment :=
  match Date.read? word with
  | some (date, []) => some ⟨date, none, none⟩
  | some (date, c :: rest) =>
    if isDelimiter c then do
      let (clock, rest) ← Clock.read? 23 rest
      return ⟨date, clock, ← readOffset? 23 59 rest⟩
    else none
  | none =>
    match Clock.read? 23 word with
    | some (clock, []) => some ⟨none, clock, none⟩
    | _ => none

/-- The moment that a text is, taken loosely. -/
def ofText? (text : List Char) : Option Moment :=
  if (text.drop 2).head? = some ':' then
    match Clock.read? 24 text with
    | some (clock, []) => some ⟨none, clock, none⟩
    | _ => none
  else
    (Date.read? text).bind fun (date, rest) =>
      if rest.head?.any isDelimiter then do
        let (clock, rest) ← Clock.read? 24 (rest.drop 1)
        return ⟨date, clock, ← readOffset? 99 99 rest⟩
      else (readOffset? 99 99 rest).map (⟨date, none, ·⟩)

/-- A moment as it is written. -/
def text (m : Moment) : String :=
  let delimiter := if m.date.isSome && m.clock.isSome then ['T'] else []
  String.ofList ((m.date.map Date.chars).getD [] ++ delimiter
    ++ (m.clock.map Clock.chars).getD [] ++ (m.offset.map Offset.chars).getD [])

end Moment
end Compositing.Settings
