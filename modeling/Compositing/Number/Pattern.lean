import Compositing.Number.Binary

/-! # Bit patterns as texts

    The encoding of a number in its format, in hexadecimal digits of full
    width, so that no two numbers have the same text. -/

namespace Compositing.Number

/-- The value of a hexadecimal digit in small letters. -/
def hexValue? (c : Char) : Option Nat :=
  if c.isDigit then some (c.toNat - '0'.toNat)
  else if 'a' ≤ c && c ≤ 'f' then some (c.toNat - 'a'.toNat + 10)
  else none

/-- The number with a bit pattern. -/
def ofPattern? (f : Format) (text : String) : Option Number :=
  (text.toList.foldlM (fun n c => (hexValue? c).map (16 * n + ·)) 0).map (ofBits f)

/-- The bit pattern of a number. -/
def pattern (f : Format) (x : Number) : String :=
  let digits := Nat.toDigits 16 (x.toBits f)
  String.ofList (List.replicate (f.width / 4 - digits.length) '0' ++ digits)

end Compositing.Number
