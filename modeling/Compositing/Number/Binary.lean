/-! # Binary floating-point numbers

    A number is a sign, a mantissa and an exponent of two, or an infinity, or
    not a number.  A format says how many digits the mantissa has and how wide
    the exponent is; rounding a quotient of naturals into a format is exact
    arithmetic, to the nearest value and on a tie to the even mantissa. -/

namespace Compositing

/-- A binary floating-point number; a finite one is `± mantissa * 2 ^ exponent`. -/
inductive Number where
  | finite (negative : Bool) (mantissa : Nat) (exponent : Int)
  | infinite (negative : Bool)
  | nan
  deriving DecidableEq

namespace Number

/-- `base ^ exponent`. -/
def power (base exponent : Nat) : Nat := Nat.pow base exponent

/-! ## Formats -/

/-- Binary digits of the mantissa and bits of the exponent field. -/
structure Format where
  precision : Nat
  exponentBits : Nat

/-- Double precision. -/
def double : Format := ⟨53, 11⟩

/-- Single precision. -/
def single : Format := ⟨24, 8⟩

namespace Format

/-- The exponent field of the number one. -/
def bias (f : Format) : Nat := power 2 (f.exponentBits - 1) - 1

/-- The exponent of the least positive number. -/
def least (f : Format) : Int := 2 - (f.bias : Int) - f.precision

/-- The exponent of the greatest finite number. -/
def greatest (f : Format) : Int := (f.bias : Int) + 1 - f.precision

/-- Bits of an encoded number. -/
def width (f : Format) : Nat := f.precision + f.exponentBits

end Format

/-! ## Rounding -/

/-- `n / d` rounded to the nearest natural number, a half to the even one. -/
def divideToEven (n d : Nat) : Nat :=
  let quotient := n / d
  match compare (2 * (n % d)) d with
  | .lt => quotient
  | .gt => quotient + 1
  | .eq => if quotient % 2 = 0 then quotient else quotient + 1

/-- The exponent that the format's numbers nearest to `n / d` have. -/
def unitExponent (f : Format) (n d : Nat) : Int :=
  -- the binary logarithm of the quotient is the estimate or one less
  let estimate : Int := (n.log2 : Int) - d.log2
  let magnitude :=
    if n * power 2 (-estimate).toNat < d * power 2 estimate.toNat then estimate - 1 else estimate
  max f.least (magnitude - (f.precision - 1))

/-- `± n / d` rounded into the format. -/
def ofRatio (f : Format) (negative : Bool) (n d : Nat) : Number :=
  if n = 0 then .finite negative 0 f.least
  else
    let exponent := unitExponent f n d
    let mantissa := divideToEven (n * power 2 (-exponent).toNat) (d * power 2 exponent.toNat)
    -- rounding up to a power of two moves on to the next exponent
    let carried := mantissa = power 2 f.precision
    let exponent := if carried then exponent + 1 else exponent
    let mantissa := if carried then power 2 (f.precision - 1) else mantissa
    if f.greatest < exponent then .infinite negative else .finite negative mantissa exponent

/-- `± coefficient * 10 ^ exponent` rounded into the format.  An exponent that puts the value
    beyond every finite number, or below half the least one, is not raised to its power. -/
def ofDecimal (f : Format) (negative : Bool) (coefficient : Nat) (exponent : Int) : Number :=
  if coefficient = 0 then .finite negative 0 f.least
  else if f.greatest + f.precision ≤ 3 * exponent then .infinite negative
  else if coefficient.log2 + 1 + 3 * exponent < f.least then .finite negative 0 f.least
  else ofRatio f negative (coefficient * power 10 exponent.toNat) (power 10 (-exponent).toNat)

/-- The number rounded into another format. -/
def convert (f : Format) : Number → Number
  | .finite negative mantissa exponent =>
    ofRatio f negative (mantissa * power 2 exponent.toNat) (power 2 (-exponent).toNat)
  | other => other

/-! ## Whole numbers -/

/-- The whole part, with 0 for everything negative and `most` for everything above it. -/
def truncate (most : Nat) : Number → Nat
  | .finite negative mantissa exponent =>
    if negative then 0
    else min most (mantissa * power 2 exponent.toNat / power 2 (-exponent).toNat)
  | .infinite negative => if negative then 0 else most
  | .nan => 0

/-- The nearest natural number up to `most`, a half upwards; 0 for everything negative. -/
def nearest (most : Nat) : Number → Nat
  | .finite negative mantissa exponent =>
    let n := mantissa * power 2 exponent.toNat
    let d := power 2 (-exponent).toNat
    if negative then 0 else min most ((2 * n + d) / (2 * d))
  | .infinite negative => if negative then 0 else most
  | .nan => 0

/-- Zero of either sign. -/
def isZero : Number → Bool
  | .finite _ mantissa _ => mantissa == 0
  | _ => false

/-- Equality of values: the two zeros are equal, and what is not a number equals nothing. -/
def sameValue (x y : Number) : Bool :=
  match x, y with
  | .nan, _ => false
  | x, y => x == y || (x.isZero && y.isZero)

/-- Zero. -/
def zero (f : Format) : Number := .finite false 0 f.least

/-- A natural number in the format. -/
def ofNat (f : Format) (n : Nat) : Number := ofRatio f false n 1

/-! ## Encoding -/

/-- The number encoded by a bit pattern. -/
def ofBits (f : Format) (bits : Nat) : Number :=
  let negative := bits / power 2 (f.width - 1) % 2 == 1
  let field := bits / power 2 (f.precision - 1) % power 2 f.exponentBits
  let fraction := bits % power 2 (f.precision - 1)
  if field = power 2 f.exponentBits - 1 then
    if fraction = 0 then .infinite negative else .nan
  else if field = 0 then .finite negative fraction f.least
  else .finite negative (power 2 (f.precision - 1) + fraction) (f.least + field - 1)

/-- The bit pattern of a number of the format. -/
def toBits (f : Format) : Number → Nat
  | .finite negative mantissa exponent =>
    let field := if mantissa < power 2 (f.precision - 1) then 0 else (exponent - f.least + 1).toNat
    signBit negative + field * power 2 (f.precision - 1) + mantissa % power 2 (f.precision - 1)
  | .infinite negative =>
    signBit negative + (power 2 f.exponentBits - 1) * power 2 (f.precision - 1)
  | .nan => (power 2 f.exponentBits - 1) * power 2 (f.precision - 1) + power 2 (f.precision - 2)
where
  signBit (negative : Bool) : Nat := if negative then power 2 (f.width - 1) else 0

end Number
end Compositing
