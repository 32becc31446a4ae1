import Compositing.Number.Binary

/-! # Numerals

    How numbers are written.  `scan` finds the numeral a text begins with and
    refuses one that runs into a word or a second point; `read?` is the value
    of a text that is a number as a whole.  `read?` also takes the words for
    infinity and for what is not a number, which `scan` never accepts. -/

namespace Compositing.Number

/-- The value of a run of digits. -/
def digitsValue (digits : List Char) : Nat :=
  digits.foldl (fun value d => 10 * value + (d.toNat - '0'.toNat)) 0

/-- Is `c` a sign? -/
def isSign (c : Char) : Bool := c == '+' || c == '-'

/-- Splits an optional sign off: is it a minus, and what follows. -/
def splitSign : List Char → Bool × List Char
  | [] => (false, [])
  | c :: rest => if isSign c then (c == '-', rest) else (false, c :: rest)

/-- How many digits `text` begins with. -/
def digitCount (text : List Char) : Nat := (text.takeWhile Char.isDigit).length

/-! ## Scanning -/

/-- How many characters of `text` form an exponent: `e` or `E`, an optional sign and at least
    one digit; 0 if it begins with none. -/
def exponentLength : List Char → Nat
  | [] => 0
  | c :: rest =>
    if c == 'e' || c == 'E' then
      let sign := if rest.head?.any isSign then 1 else 0
      match digitCount (rest.drop sign) with
      | 0 => 0
      | digits => 1 + sign + digits
    else 0

/-- How many characters of `text` form an unsigned numeral without exponent: digits with an
    optional point and fraction, or a point and a fraction; 0 if it begins with none. -/
def mantissaLength (text : List Char) : Nat :=
  let whole := digitCount text
  match text.drop whole with
  | '.' :: rest =>
    let fraction := digitCount rest
    if whole + fraction = 0 then 0 else whole + 1 + fraction
  | _ => whole

/-- May `c` not follow a numeral? -/
def continuesWord (c : Char) : Bool := c.isAlphanum || c == '_' || c == '.'

/-- How many characters of `text` the numeral it begins with takes: an optional sign, the
    mantissa and the exponent, as long as possible and not followed by a letter, digit,
    underscore or point. -/
def scan (text : List Char) : Option Nat :=
  let sign := if text.head?.any isSign then 1 else 0
  let mantissa := mantissaLength (text.drop sign)
  if mantissa = 0 then none
  else
    let length := sign + mantissa
    let length := length + exponentLength (text.drop length)
    if (text.drop length).head?.any continuesWord then none else some length

/-! ## Reading -/

/-- The value of an exponent that is a text as a whole; an empty text is no exponent. -/
def readExponent? : List Char → Option Int
  | [] => some 0
  | c :: rest =>
    if c == 'e' || c == 'E' then
      let (negative, digits) := splitSign rest
      if digits.isEmpty || !digits.all Char.isDigit then none
      else
        let value : Int := digitsValue digits
        some (if negative then -value else value)
    else none

/-- The value of an unsigned decimal numeral. -/
def readDecimal? (f : Format) (negative : Bool) (text : List Char) : Option Number :=
  let whole := text.takeWhile Char.isDigit
  let (fraction, tail) :=
    match text.dropWhile Char.isDigit with
    | '.' :: rest => (rest.takeWhile Char.isDigit, rest.dropWhile Char.isDigit)
    | rest => ([], rest)
  if whole.isEmpty && fraction.isEmpty then none
  else (readExponent? tail).map fun exponent =>
    ofDecimal f negative (digitsValue (whole ++ fraction)) (exponent - fraction.length)

/-- The value of a text that is a number as a whole: an optional sign, then a decimal numeral
    or, in letters of any case, `inf`, `infinity` or `nan`. -/
def read? (f : Format) (text : List Char) : Option Number :=
  let (negative, body) := splitSign text
  let word := String.ofList (body.map Char.toLower)
  if word = "inf" || word = "infinity" then some (.infinite negative)
  else if word = "nan" then some .nan
  else readDecimal? f negative body

end Compositing.Number
