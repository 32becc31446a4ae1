import Compositing.Number.Binary

/-! # Decimal text of a number

    The digits written for a number are the fewest that read back to it, and
    of those the nearest to its value.  Which digits those are is arithmetic
    on the interval of values that round to the number; how they are laid out
    is a record of decisions, `Layout`, that belongs to each kind of output. -/

namespace Compositing.Number

/-! ## The fewest digits that read back -/

/-- Which of two equally near candidates is taken. -/
inductive Tie where
  | up
  | even

/-- The positive decimal `0.d₁d₂d₃… * 10 ^ point`. -/
structure Decimal where
  digits : List Char
  point : Int

/-- The values that round to a number, scaled by a power of ten to naturals: the number
    itself, the two ends, and whether the ends belong to it. -/
structure Interval where
  value : Nat
  low : Nat
  high : Nat
  closed : Bool

/-- Does a value of the interval's scale round to the number? -/
def Interval.contains (i : Interval) (n : Nat) : Bool :=
  if i.closed then i.low ≤ n && n ≤ i.high else i.low < n && n < i.high

/-- The interval of `mantissa * 2 ^ exponent`, and the power of ten it is scaled by.  It ends
    halfway to the neighbours; below a power of two the neighbour is only half as far. -/
def interval (f : Format) (mantissa : Nat) (exponent : Int) : Interval × Nat :=
  let quarter := exponent - 2
  -- a quarter of the unit in the last place, as a natural once scaled
  let unit := power 2 quarter.toNat * power 5 (-quarter).toNat
  let below := if mantissa = power 2 (f.precision - 1) && f.least < exponent then 1 else 2
  ({ value := 4 * mantissa * unit
     low := (4 * mantissa - below) * unit
     high := (4 * mantissa + 2) * unit
     closed := mantissa % 2 == 0 },
   (-quarter).toNat)

/-- The multiple of `grid` inside the interval nearest to its value, as a multiplier. -/
def Interval.nearestMultiple? (i : Interval) (tie : Tie) (grid : Nat) : Option Nat :=
  let down := i.value / grid
  let up := down + 1
  match i.contains (down * grid), i.contains (up * grid) with
  | false, false => none
  | true, false => some down
  | false, true => some up
  | true, true =>
    match compare (2 * i.value) ((down + up) * grid), tie with
    | .lt, _ => some down
    | .gt, _ => some up
    | .eq, .up => some up
    | .eq, .even => some (if down % 2 = 0 then down else up)

/-- The coarsest grid of powers of ten, from `10 ^ places` down, with a hit: the multiplier
    and the power.  The grid of ones always has one, the value itself. -/
def Interval.coarsest (i : Interval) (tie : Tie) : Nat → Nat × Nat
  | 0 => ((i.nearestMultiple? tie 1).getD i.value, 0)
  | places + 1 =>
    match i.nearestMultiple? tie (power 10 (places + 1)) with
    | some multiple => (multiple, places + 1)
    | none => i.coarsest tie places

/-- `digits` without its trailing zeros. -/
def dropTrailingZeros (digits : List Char) : List Char :=
  (digits.reverse.dropWhile (· == '0')).reverse

/-- The fewest digits that read back to the positive number `mantissa * 2 ^ exponent`. -/
def shortest (f : Format) (tie : Tie) (mantissa : Nat) (exponent : Int) : Decimal :=
  let (i, scale) := interval f mantissa exponent
  let (multiple, power) := i.coarsest tie ((Nat.toDigits 10 i.value).length - 1)
  let digits := Nat.toDigits 10 multiple
  { digits := dropTrailingZeros digits
    point := (digits.length : Int) + power - scale }

/-! ## Layout -/

/-- The decisions of a way to write numbers. -/
structure Layout where
  /-- The format whose numbers are written. -/
  format : Format
  /-- Which of two equally near digit strings is taken. -/
  tie : Tie
  /-- Is a number whose first digit stands for this power of ten written without exponent? -/
  positional : Int → Bool
  /-- What follows a whole number written without exponent. -/
  wholeEnd : String
  /-- The sign written before an exponent that is not negative. -/
  exponentPlus : String
  /-- The text of an infinity; the argument says whether it is negative. -/
  infinity : Bool → String
  /-- The text of what is not a number. -/
  nan : String

namespace Layout

/-- A run of `n` zeros. -/
def zeros (n : Nat) : String := String.ofList (List.replicate n '0')

/-- The text of a positive decimal. -/
def decimal (layout : Layout) (d : Decimal) : String :=
  let first := d.point - 1
  let count := d.digits.length
  if layout.positional first then
    if d.point ≤ 0 then "0." ++ zeros (-d.point).toNat ++ String.ofList d.digits
    else
      let point := d.point.toNat
      if count ≤ point then
        String.ofList d.digits ++ zeros (point - count) ++ layout.wholeEnd
      else String.ofList (d.digits.take point) ++ "." ++ String.ofList (d.digits.drop point)
  else
    let fraction := if count ≤ 1 then "" else "." ++ String.ofList (d.digits.drop 1)
    let sign := if first < 0 then "-" else layout.exponentPlus
    String.ofList (d.digits.take 1) ++ fraction ++ "e" ++ sign ++ toString first.natAbs

/-- The text of a number. -/
def write (layout : Layout) : Number → String
  | .finite negative mantissa exponent =>
    let sign := if negative then "-" else ""
    if mantissa = 0 then sign ++ "0" ++ layout.wholeEnd
    else sign ++ layout.decimal (shortest layout.format layout.tie mantissa exponent)
  | .infinite negative => layout.infinity negative
  | .nan => layout.nan

/-- Doubles as they stand in messages: no exponent, and no point after a whole number. -/
def plain : Layout where
  format := double
  tie := .up
  positional _ := true
  wholeEnd := ""
  exponentPlus := ""
  infinity negative := if negative then "-inf" else "inf"
  nan := "NaN"

end Layout
end Compositing.Number
