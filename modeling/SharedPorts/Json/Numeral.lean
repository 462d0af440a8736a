/-!
# `SharedPorts.Json.Numeral` — numbers as they are written

A document's numbers are kept digit by digit. Their value matters for one thing only: a number too large
for a double is no number at all.

## Contents
- **Numerals.** `Digit`, `Numeral`, and `Numeral.ofNat` for a natural number.
- **Doubles.** `roundToDouble`, a natural number rounded to the 53 bits of a double, ties to even.
- **Range.** `Numeral.scaled`, the 64-bit significand and power of ten that a numeral is read as, and
  `Numeral.inRange`, whether their product is a finite double.
-/

namespace SharedPorts.Json

/-! ## Numerals -/

/-- A decimal digit. -/
abbrev Digit := Fin 10

/-- The digit that an ASCII byte writes. -/
def Digit.ofByte? (b : UInt8) : Option Digit :=
  if h : 0x30 ≤ b.toNat ∧ b.toNat ≤ 0x39 then some ⟨b.toNat - 0x30, by omega⟩ else none

/-- The ASCII byte of a digit. -/
def Digit.toByte (d : Digit) : UInt8 := UInt8.ofNat (0x30 + d.val)

/-- The power of ten written behind a number. -/
structure Exponent where
  negative : Bool
  digits : List Digit
  deriving DecidableEq, Repr

/-- A number as it is written. -/
structure Numeral where
  negative : Bool
  integer : List Digit
  fraction : List Digit
  exponent : Option Exponent
  deriving DecidableEq, Repr

/-- The value of some digits. -/
def valueOf (ds : List Digit) : Nat := ds.foldl (fun n d => 10 * n + d.val) 0

/-- The decimal digits of a number, first digit first. -/
def digitsOf (n : Nat) : List Digit :=
  if n < 10 then [Fin.ofNat 10 n] else digitsOf (n / 10) ++ [Fin.ofNat 10 n]
termination_by n
decreasing_by omega

/-- A natural number, written without sign, fraction or exponent. -/
def Numeral.ofNat (n : Nat) : Numeral := ⟨false, digitsOf n, [], none⟩

/-! ## Doubles -/

/-- A natural number rounded to 53 significant bits, a tie going to the even neighbour. -/
def roundToDouble (n : Nat) : Nat :=
  let unit := Nat.pow 2 (n.log2 - 52)
  let down := n / unit
  let rest := 2 * (n % unit)
  if rest < unit ∨ (rest = unit ∧ down % 2 = 0) then down * unit else (down + 1) * unit

/-- The least power of two that no double reaches. -/
def doubleLimit : Nat := Nat.pow 2 1024

/-! ## Range -/

/-- The greatest significand of 64 bits. -/
def greatestSignificand : Nat := 18446744073709551615

/-- Digits taken onto a significand while it fits 64 bits: the significand, and the digits left over
    from the first that does not fit. -/
def takeFitting : Nat → List Digit → Nat × List Digit
  | n, [] => (n, [])
  | n, d :: ds =>
    if 10 * n + d.val ≤ greatestSignificand then takeFitting (10 * n + d.val) ds else (n, d :: ds)

/-- The significand and the power of ten that a numeral is read as. Integer digits beyond 64 bits only
    raise the power; fraction digits beyond them are dropped. -/
def Numeral.scaled (x : Numeral) : Nat × Int :=
  let (n, surplus) := takeFitting 0 x.integer
  let (m, dropped) := takeFitting n x.fraction
  let written : Int :=
    match x.exponent with
    | none => 0
    | some e => if e.negative then -(valueOf e.digits : Int) else valueOf e.digits
  (m, written + surplus.length - (x.fraction.length - dropped.length : Nat))

/-- Whether a numeral's value is a finite double. -/
def Numeral.inRange (x : Numeral) : Bool :=
  match x.scaled with
  | (0, _) => true
  | (_, .negSucc _) => true
  | (m, .ofNat e) =>
    e ≤ 308 && roundToDouble (roundToDouble m * roundToDouble (Nat.pow 10 e)) < doubleLimit

end SharedPorts.Json
