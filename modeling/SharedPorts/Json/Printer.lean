import SharedPorts.Json.Tree

/-!
# `SharedPorts.Json.Printer` — documents to bytes

Documents are written for people: one item or member a line, two spaces deeper than its container. Empty
containers stay on one line.

## Contents
- `Numeral.render`: the bytes of a number.
- `Tree.render`: the bytes of a document at a given depth.
-/

namespace SharedPorts.Json

/-- The bytes of a number. -/
def Numeral.render (x : Numeral) : Bytes :=
  (if x.negative then [0x2D] else []) ++ x.integer.map Digit.toByte
    ++ (if x.fraction.isEmpty then [] else 0x2E :: x.fraction.map Digit.toByte)
    ++ match x.exponent with
      | none => []
      | some e => 0x65 :: (if e.negative then [0x2D] else []) ++ e.digits.map Digit.toByte

/-- A line feed, and the indentation of a depth. -/
def newLine (depth : Nat) : Bytes := 0x0A :: List.replicate (2 * depth) 0x20

/-- Pieces with a comma between them, each on a line of its own. -/
def commaLines (depth : Nat) : List Bytes → Bytes
  | [] => []
  | [piece] => newLine depth ++ piece
  | piece :: pieces => newLine depth ++ piece ++ [0x2C] ++ commaLines depth pieces

mutual

/-- The bytes of a document inside `depth` containers. -/
def Tree.render (depth : Nat) : Tree → Bytes
  | .null => [0x6E, 0x75, 0x6C, 0x6C]
  | .bool true => [0x74, 0x72, 0x75, 0x65]
  | .bool false => [0x66, 0x61, 0x6C, 0x73, 0x65]
  | .number x => x.render
  | .string l => l.render
  | .array [] => [0x5B, 0x5D]
  | .array (item :: items) =>
    0x5B :: commaLines (depth + 1) (item.render (depth + 1) :: renderItems (depth + 1) items)
      ++ newLine depth ++ [0x5D]
  | .object [] => [0x7B, 0x7D]
  | .object (m :: members) =>
    0x7B :: commaLines (depth + 1) (renderMember (depth + 1) m :: renderMembers (depth + 1) members)
      ++ newLine depth ++ [0x7D]

/-- The bytes of each item of an array. -/
def renderItems (depth : Nat) : List Tree → List Bytes
  | [] => []
  | item :: items => item.render depth :: renderItems depth items

/-- The bytes of a key and its value. -/
def renderMember (depth : Nat) : Literal × Tree → Bytes
  | (key, value) => key.render ++ [0x3A, 0x20] ++ value.render depth

/-- The bytes of each member of an object. -/
def renderMembers (depth : Nat) : List (Literal × Tree) → List Bytes
  | [] => []
  | m :: members => renderMember depth m :: renderMembers depth members

end

end SharedPorts.Json
