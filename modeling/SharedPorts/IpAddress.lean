import SharedPorts.Text.Integer
import SharedPorts.Text.Quoted

/-!
# `SharedPorts.IpAddress` — internet addresses as text

The address that local listeners bind to is written in the usual ways: four decimal numbers, or eight
hexadecimal groups, of which one run of zeros may be left out.

## Contents
- **Addresses.** `IpAddress`.
- **Four numbers.** `readOctet`, `readFour`: no leading zeros, nothing above 255.
- **Eight groups.** `readGroup`, `readGroups`, `readEight`: up to four digits a group, the last two groups
  possibly as four numbers, and at most one `::`.
- **Reading.** `IpAddress.parse?`.
- **Writing.** `longestZeros`, `IpAddress.text`: the longest run of zeros is left out, the first of several,
  and mapped addresses end in four numbers.
-/

namespace SharedPorts

/-! ## Addresses -/

/-- An internet address of either version. -/
inductive IpAddress
  | v4 (a b c d : UInt8)
  | v6 (groups : Vector UInt16 8)
  deriving DecidableEq, Repr

namespace IpAddress

/-- The address of this machine itself. -/
def loopback : IpAddress := .v4 127 0 0 1

/-! ## Four numbers -/

/-- The digits that a text begins with, and the rest of it. -/
def takeDigits (digit? : Char → Option Nat) : List Char → List Nat × List Char
  | [] => ([], [])
  | c :: cs =>
    match digit? c with
    | none => ([], c :: cs)
    | some d =>
      let (ds, rest) := takeDigits digit? cs
      (d :: ds, rest)

/-- A number of at most 255 without leading zeros, at the beginning of a text. -/
def readOctet (cs : List Char) : Option (UInt8 × List Char) :=
  match takeDigits Integer.digit? cs with
  | ([], _) => none
  | (0 :: _ :: _, _) => none
  | (ds, rest) =>
    let n := ds.foldl (fun n d => 10 * n + d) 0
    if n ≤ 255 then some (UInt8.ofNat n, rest) else none

/-- A character that a text has to begin with. -/
def readMark (c : Char) : List Char → Option (List Char)
  | [] => none
  | d :: cs => if d = c then some cs else none

/-- Four numbers with points between them, at the beginning of a text. -/
def readFour (cs : List Char) : Option ((UInt8 × UInt8 × UInt8 × UInt8) × List Char) := do
  let (a, cs) ← readOctet cs
  let (b, cs) ← readOctet (← readMark '.' cs)
  let (c, cs) ← readOctet (← readMark '.' cs)
  let (d, cs) ← readOctet (← readMark '.' cs)
  return ((a, b, c, d), cs)

/-! ## Eight groups -/

/-- The value of a hexadecimal digit of either case. -/
def hexadecimal? (c : Char) : Option Nat :=
  if 'a' ≤ c ∧ c ≤ 'f' then some (c.toNat - 'a'.toNat + 10)
  else if 'A' ≤ c ∧ c ≤ 'F' then some (c.toNat - 'A'.toNat + 10)
  else Integer.digit? c

/-- A group of up to four hexadecimal digits, at the beginning of a text. -/
def readGroup (cs : List Char) : Option (UInt16 × List Char) :=
  match takeDigits hexadecimal? cs with
  | ([], _) => none
  | (ds, rest) =>
    if ds.length ≤ 4 then some (UInt16.ofNat (ds.foldl (fun n d => 16 * n + d) 0), rest) else none

/-- The group that two numbers make. -/
def joinOctets (a b : UInt8) : UInt16 := UInt16.ofNat (a.toNat * 256 + b.toNat)

/-- The colon in front of a group, unless it is the first. -/
def readColon (first : Bool) (cs : List Char) : Option (List Char) :=
  if first then some cs else readMark ':' cs

/-- Groups with colons between them, as many as there are but at most `room`, at the beginning of a
    text. Where two more fit, four numbers may end them; the flag says whether they did. -/
def readGroups : Nat → Bool → List Char → List UInt16 × Bool × List Char
  | 0, _, cs => ([], false, cs)
  | room + 1, first, cs =>
    match if room = 0 then none else (readColon first cs).bind readFour with
    | some ((a, b, c, d), rest) => ([joinOctets a b, joinOctets c d], true, rest)
    | none =>
      match (readColon first cs).bind readGroup with
      | none => ([], false, cs)
      | some (g, rest) =>
        let (gs, four, rest) := readGroups room false rest
        (g :: gs, four, rest)

/-- An address of eight groups, from the groups on both sides of `::`. -/
def ofSides (head tail : List UInt16) : Option IpAddress :=
  let groups := head ++ List.replicate (8 - head.length - tail.length) 0 ++ tail
  if h : groups.length = 8 then some (.v6 ⟨groups.toArray, by simp [h]⟩) else none

/-- An address of eight groups, and the rest of the text. Four numbers may not stand before `::`, which
    leaves out at least one group. -/
def readEight (cs : List Char) : Option (IpAddress × List Char) :=
  let (head, four, rest) := readGroups 8 true cs
  if head.length = 8 then (ofSides head []).map (·, rest)
  else if four then none
  else do
    let rest ← readMark ':' (← readMark ':' rest)
    let (tail, _, rest) := readGroups (7 - head.length) true rest
    let address ← ofSides head tail
    return (address, rest)

/-! ## Reading -/

/-- Read an address, which is the whole text. -/
def parse? (s : String) : Option IpAddress :=
  match readFour s.toList with
  | some ((a, b, c, d), []) => some (.v4 a b c d)
  | _ =>
    match readEight s.toList with
    | some (address, []) => some address
    | _ => none

/-! ## Writing -/

/-- How many zeros some groups begin with. -/
def leadingZeros (groups : List UInt16) : Nat := (groups.takeWhile (· == 0)).length

/-- The longest run of zeros among some groups, the first of several: its start and its length. -/
def longestZeros : List UInt16 → Nat × Nat
  | [] => (0, 0)
  | g :: gs =>
    let here := leadingZeros (g :: gs)
    let (start, length) := longestZeros gs
    if length ≤ here then (0, here) else (start + 1, length)

/-- Groups in hexadecimal digits, with colons between them. -/
def groupsText (groups : List UInt16) : String :=
  ":".intercalate (groups.map fun g => Text.hex g.toNat)

/-- The text of an address. -/
def text : IpAddress → String
  | .v4 a b c d => s!"{a}.{b}.{c}.{d}"
  | .v6 groups =>
    match groups.toList with
    | [0, 0, 0, 0, 0, 0xFFFF, g, h] =>
      s!"::ffff:{g.toNat / 256}.{g.toNat % 256}.{h.toNat / 256}.{h.toNat % 256}"
    | gs =>
      let (start, length) := longestZeros gs
      if length ≤ 1 then groupsText gs
      else groupsText (gs.take start) ++ "::" ++ groupsText (gs.drop (start + length))

end IpAddress

end SharedPorts
