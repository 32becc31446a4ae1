import Compositing.Number.Decimal
import Compositing.Number.Numeral

/-! # Values of settings

    What a settings file or an override gives for a key, before it is known
    what type the key has.  A value is read leniently: a switch can be a
    number, a number can be a word. -/

namespace Compositing.Settings

/-- A value of no particular type. -/
inductive Value where
  /-- An element that was never given. -/
  | nothing
  | bool (on : Bool)
  | integer (n : Int)
  | float (x : Number)
  | text (s : String)
  /-- A date, a time or both, as it is written. -/
  | date (s : String)
  | list (items : List Value)
  | table (entries : List (String × Value))

/-! ## Tables -/

/-- The entry of a key. -/
def lookup {α : Type} (key : String) (entries : List (String × α)) : Option α :=
  (entries.find? (·.1 == key)).map (·.2)

/-- Gives a key an entry, in place of the one it has. -/
def insert {α : Type} (key : String) (x : α) : List (String × α) → List (String × α)
  | [] => [(key, x)]
  | (other, y) :: rest =>
    if other = key then (key, x) :: rest else (other, y) :: insert key x rest

namespace Value

/-- The entries of a table; nothing else has any. -/
def entries : Value → List (String × Value)
  | table entries => entries
  | _ => []

/-- The items of a list; nothing else has any. -/
def items : Value → List Value
  | list items => items
  | _ => []

/-! ## Reading -/

/-- The switch that a word in any case stands for. -/
def switchWord? (s : String) : Option Bool :=
  let word := String.ofList (s.toList.map Char.toLower)
  if ["true", "on", "yes"].contains word then some true
  else if ["false", "off", "no"].contains word then some false
  else none

/-- A natural number of 64 bits in decimal digits, with or without a plus. -/
def natural? (s : String) : Option Nat :=
  let digits :=
    match s.toList with
    | '+' :: rest => rest
    | digits => digits
  if digits.isEmpty || !digits.all Char.isDigit then none
  else
    let n := Number.digitsValue digits
    if n < UInt64.size then some n else none

/-- The value as a switch. -/
def asBool? : Value → Option Bool
  | bool on => some on
  | integer n => some (n != 0)
  | float x => some !x.isZero
  | text "1" => some true
  | text "0" => some false
  | text s => switchWord? s
  | _ => none

/-- The value as a natural number of 64 bits.  A fraction is rounded, a half upwards, and a
    negative fraction is 0; a negative integer is refused. -/
def asNatural? : Value → Option Nat
  | bool on => some on.toNat
  | integer n => if 0 ≤ n then some n.toNat else none
  | float x => some (x.nearest (UInt64.size - 1))
  | text s =>
    match switchWord? s with
    | some on => some on.toNat
    | none => natural? s
  | _ => none

/-- The value as a natural number below `size`. -/
def asBounded? (size : Nat) (v : Value) : Option Nat := v.asNatural?.filter (· < size)

/-- The value as a number in double precision. -/
def asNumber? : Value → Option Number
  | bool on => some (.ofNat Number.double on.toNat)
  | integer n => some (.ofRatio Number.double (n < 0) n.natAbs 1)
  | float x => some x
  | text s =>
    match switchWord? s with
    | some on => some (.ofNat Number.double on.toNat)
    | none => Number.read? Number.double s.toList
  | _ => none

/-- The value as a text. -/
def asText? : Value → Option String
  | bool on => some (if on then "true" else "false")
  | integer n => some (toString n)
  | float x => some (Number.Layout.plain.write x)
  | text s | date s => some s
  | _ => none

end Value
end Compositing.Settings
