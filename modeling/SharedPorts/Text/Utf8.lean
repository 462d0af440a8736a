/-!
# `SharedPorts.Text.Utf8` — texts as bytes

Files and program outputs are bytes; names, labels and levels are texts. This module crosses between the
two, and says where and how badly a byte string fails to be text.

## Contents
- **Bytes.** `Bytes`, and `encode` for the bytes of a text.
- **One character.** `Width.ofLead` reads the first byte of a character, `secondFits` narrows the second.
- **Whole texts.** `decode` reads a byte string, or reports the `Fault` that ends its longest valid part.
-/

namespace SharedPorts

/-- The content of a file, or what a program printed. -/
abbrev Bytes := List UInt8

namespace Utf8

/-- The bytes of a text. -/
def encode (s : String) : Bytes := s.toList.flatMap String.utf8EncodeChar

/-! ## One character -/

/-- How many bytes a character takes. -/
inductive Width
  | one
  | two
  | three
  | four
  deriving DecidableEq, Repr

/-- The width that a first byte announces; bytes that start no character announce none. -/
def Width.ofLead (a : UInt8) : Option Width :=
  if a < 0x80 then some .one
  else if 0xC2 ≤ a ∧ a ≤ 0xDF then some .two
  else if 0xE0 ≤ a ∧ a ≤ 0xEF then some .three
  else if 0xF0 ≤ a ∧ a ≤ 0xF4 then some .four
  else none

/-- A byte that continues a character. -/
def isTail (b : UInt8) : Bool := 0x80 ≤ b && b ≤ 0xBF

/-- Whether `b` may follow the first byte `a`: beyond being a tail, it may not make the character
    overlong, a surrogate, or larger than U+10FFFF. -/
def secondFits (a b : UInt8) : Bool :=
  isTail b && !(a == 0xE0 && b < 0xA0) && !(a == 0xED && 0xA0 ≤ b)
    && !(a == 0xF0 && b < 0x90) && !(a == 0xF4 && 0x90 ≤ b)

/-- The six bits that a tail byte carries. -/
def tailBits (b : UInt8) : Nat := b.toNat % 64

/-! ## Whole texts -/

/-- Why a byte string is no text: the length of its longest valid part, and the length of the bad
    sequence after it, or `none` when the input ends within a sequence that could still be valid. -/
structure Fault where
  index : Nat
  length : Option Nat
  deriving DecidableEq, Repr

/-- What a fault says. -/
def Fault.message (f : Fault) : String :=
  match f.length with
  | some n => s!"invalid utf-8 sequence of {n} bytes from index {f.index}"
  | none => s!"incomplete utf-8 byte sequence from index {f.index}"

/-- The characters of a byte string whose first byte stands at `index`. -/
def decodeFrom (index : Nat) : Bytes → Except Fault (List Char)
  | [] => .ok []
  | a :: rest =>
    match Width.ofLead a with
    | none => .error ⟨index, some 1⟩
    | some .one => (Char.ofNat a.toNat :: ·) <$> decodeFrom (index + 1) rest
    | some .two =>
      match rest with
      | [] => .error ⟨index, none⟩
      | b :: rest =>
        if secondFits a b then
          (Char.ofNat (a.toNat % 32 * 64 + tailBits b) :: ·) <$> decodeFrom (index + 2) rest
        else .error ⟨index, some 1⟩
    | some .three =>
      match rest with
      | [] => .error ⟨index, none⟩
      | b :: rest =>
        if secondFits a b then
          match rest with
          | [] => .error ⟨index, none⟩
          | c :: rest =>
            if isTail c then
              (Char.ofNat ((a.toNat % 16 * 64 + tailBits b) * 64 + tailBits c) :: ·)
                <$> decodeFrom (index + 3) rest
            else .error ⟨index, some 2⟩
        else .error ⟨index, some 1⟩
    | some .four =>
      match rest with
      | [] => .error ⟨index, none⟩
      | b :: rest =>
        if secondFits a b then
          match rest with
          | [] => .error ⟨index, none⟩
          | c :: rest =>
            if isTail c then
              match rest with
              | [] => .error ⟨index, none⟩
              | d :: rest =>
                if isTail d then
                  (Char.ofNat (((a.toNat % 8 * 64 + tailBits b) * 64 + tailBits c) * 64 + tailBits d)
                    :: ·) <$> decodeFrom (index + 4) rest
                else .error ⟨index, some 3⟩
            else .error ⟨index, some 2⟩
        else .error ⟨index, some 1⟩

/-- The text that a byte string holds. -/
def decode (bs : Bytes) : Except Fault String := String.ofList <$> decodeFrom 0 bs

/-- The text that a byte string holds, if it holds one. -/
def decode? (bs : Bytes) : Option String := (decode bs).toOption

end Utf8

end SharedPorts
