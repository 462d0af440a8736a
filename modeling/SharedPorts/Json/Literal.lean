import SharedPorts.Text.Utf8

/-!
# `SharedPorts.Json.Literal` — string literals as they are written

A string literal is kept as the pieces between its quotes. Whether it denotes a text is a question of its
own: a reader that only skips a member never asks it.

## Contents
- **Pieces.** `Escape`, `Piece`, `Literal`, and the surrogate halves among 16-bit units.
- **Meaning.** `Literal.text?`, the text that a literal denotes, if any.
- **Writing.** `Literal.ofString`, the literal written for a text, and `Literal.render`, its bytes.
-/

namespace SharedPorts.Json

/-! ## Pieces -/

/-- The escapes of one letter or sign. -/
inductive Escape
  | quote
  | backslash
  | slash
  | backspace
  | formFeed
  | lineFeed
  | carriageReturn
  | tab
  deriving DecidableEq, Repr

/-- The byte behind the backslash. -/
def Escape.mark : Escape → UInt8
  | .quote => 0x22
  | .backslash => 0x5C
  | .slash => 0x2F
  | .backspace => 0x62
  | .formFeed => 0x66
  | .lineFeed => 0x6E
  | .carriageReturn => 0x72
  | .tab => 0x74

/-- The byte that an escape denotes. -/
def Escape.value : Escape → UInt8
  | .quote => 0x22
  | .backslash => 0x5C
  | .slash => 0x2F
  | .backspace => 0x08
  | .formFeed => 0x0C
  | .lineFeed => 0x0A
  | .carriageReturn => 0x0D
  | .tab => 0x09

/-- Every escape. -/
def Escape.all : List Escape :=
  [.quote, .backslash, .slash, .backspace, .formFeed, .lineFeed, .carriageReturn, .tab]

/-- The escape with a given mark. -/
def Escape.ofMark? (b : UInt8) : Option Escape := Escape.all.find? (·.mark == b)

/-- A piece of a string literal: a byte that stands for itself, an escape, or a 16-bit unit in four
    hexadecimal digits. -/
inductive Piece
  | byte (b : UInt8)
  | escape (e : Escape)
  | unit (u : UInt16)
  deriving DecidableEq, Repr

/-- A string literal, without its quotes. -/
abbrev Literal := List Piece

/-- The first half of a surrogate pair. -/
def isHighHalf (u : UInt16) : Bool := 0xD800 ≤ u && u ≤ 0xDBFF

/-- The second half of a surrogate pair. -/
def isLowHalf (u : UInt16) : Bool := 0xDC00 ≤ u && u ≤ 0xDFFF

/-- The character of a surrogate pair. -/
def joinHalves (high low : UInt16) : Char :=
  Char.ofNat (0x10000 + (high.toNat - 0xD800) * 0x400 + (low.toNat - 0xDC00))

/-! ## Meaning -/

/-- The bytes of the text that a literal denotes; a half without its other half denotes nothing. -/
def Literal.bytes? : Literal → Option Bytes
  | [] => some []
  | .byte b :: rest => (b :: ·) <$> Literal.bytes? rest
  | .escape e :: rest => (e.value :: ·) <$> Literal.bytes? rest
  | .unit u :: rest =>
    if isHighHalf u then
      match rest with
      | .unit v :: rest =>
        if isLowHalf v then (String.utf8EncodeChar (joinHalves u v) ++ ·) <$> Literal.bytes? rest
        else none
      | _ => none
    else if isLowHalf u then none
    else (String.utf8EncodeChar (Char.ofNat u.toNat) ++ ·) <$> Literal.bytes? rest

/-- The text that a literal denotes: its bytes have to be valid. -/
def Literal.text? (l : Literal) : Option String := l.bytes?.bind Utf8.decode?

/-- The bytes of a literal that is written without escapes. -/
def Literal.plain? : Literal → Option Bytes
  | [] => some []
  | .byte b :: rest => (b :: ·) <$> Literal.plain? rest
  | _ => none

/-! ## Writing -/

/-- The pieces written for one character: quotes, backslashes and controls are escaped, with the short
    escape where there is one. -/
def Literal.ofChar (c : Char) : Literal :=
  match Escape.all.find? fun e => e != .slash && e.value.toNat == c.toNat with
  | some e => [.escape e]
  | none =>
    if c.toNat < 0x20 then [.unit (UInt16.ofNat c.toNat)]
    else (String.utf8EncodeChar c).map .byte

/-- The literal written for a text. -/
def Literal.ofString (s : String) : Literal := s.toList.flatMap Literal.ofChar

/-- The byte of a hexadecimal digit, in lower case. -/
def hexByte (n : Nat) : UInt8 := if n < 10 then UInt8.ofNat (0x30 + n) else UInt8.ofNat (0x57 + n)

/-- The value of a hexadecimal digit of either case. -/
def hexValue? (b : UInt8) : Option Nat :=
  if 0x30 ≤ b ∧ b ≤ 0x39 then some (b.toNat - 0x30)
  else if 0x41 ≤ b ∧ b ≤ 0x46 then some (b.toNat - 0x37)
  else if 0x61 ≤ b ∧ b ≤ 0x66 then some (b.toNat - 0x57)
  else none

/-- The unit that four hexadecimal digits write. -/
def unitOfHex? : Bytes → Option UInt16
  | [a, b, c, d] => do
    let a ← hexValue? a
    let b ← hexValue? b
    let c ← hexValue? c
    let d ← hexValue? d
    return UInt16.ofNat (((a * 16 + b) * 16 + c) * 16 + d)
  | _ => none

/-- The bytes of a piece. -/
def Piece.render : Piece → Bytes
  | .byte b => [b]
  | .escape e => [0x5C, e.mark]
  | .unit u =>
    [0x5C, 0x75, hexByte (u.toNat / 4096), hexByte (u.toNat / 256 % 16),
      hexByte (u.toNat / 16 % 16), hexByte (u.toNat % 16)]

/-- The bytes of a literal, with its quotes. -/
def Literal.render (l : Literal) : Bytes := 0x22 :: l.flatMap Piece.render ++ [0x22]

end SharedPorts.Json
