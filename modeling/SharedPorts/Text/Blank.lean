import SharedPorts.Text.Ranges

/-!
# `SharedPorts.Text.Blank` — blank space, words and lines

Listings of sockets are columns separated by blank space, one socket a line. Both cuts work on lists of
characters, so that they can be followed by recursion.

## Contents
- **Blank characters.** `isBlank`, the Unicode property White_Space.
- **Words.** `words`, the longest blank-free pieces.
- **Lines.** `lines`, the pieces between line feeds, a carriage return before a line feed belonging to it.
-/

namespace SharedPorts.Text

/-! ## Blank characters -/

/-- The ranges of the Unicode property White_Space. -/
def blankRanges : List (Nat × Nat) :=
  [(0x9, 0xD), (0x20, 0x20), (0x85, 0x85), (0xA0, 0xA0), (0x1680, 0x1680), (0x2000, 0x200A),
    (0x2028, 0x2029), (0x202F, 0x202F), (0x205F, 0x205F), (0x3000, 0x3000)]

/-- Whether a character is blank space. -/
def isBlank (c : Char) : Bool := inRanges blankRanges c.toNat

/-! ## Words -/

/-- Put a character in front of the first word; `touching` says whether that word already touches it. -/
def joinWord (c : Char) (touching : Bool) (ws : List (List Char)) : List (List Char) :=
  match touching, ws with
  | true, w :: ws => (c :: w) :: ws
  | _, ws => [c] :: ws

/-- Whether a text begins with a character that is not blank. -/
def startsWord : List Char → Bool
  | [] => false
  | c :: _ => !isBlank c

/-- The longest blank-free pieces of a text, in order. -/
def words : List Char → List (List Char)
  | [] => []
  | c :: cs => if isBlank c then words cs else joinWord c (startsWord cs) (words cs)

/-! ## Lines -/

/-- The pieces between the characters `sep`: one more than there are separators. -/
def fields (sep : Char) : List Char → List (List Char)
  | [] => [[]]
  | c :: cs =>
    if c = sep then [] :: fields sep cs
    else
      match fields sep cs with
      | [] => [[c]]
      | f :: fs => (c :: f) :: fs

/-- A line without the carriage return that stood before its line feed. -/
def chomp (line : List Char) : List Char :=
  if line.getLast? = some '\r' then line.dropLast else line

/-- Lines from the pieces between line feeds: the last piece ends without a line feed, and is no line
    when nothing stands in it. -/
def linesOfFields : List (List Char) → List (List Char)
  | [] => []
  | [last] => if last.isEmpty then [] else [last]
  | line :: rest => chomp line :: linesOfFields rest

/-- The lines of a text. -/
def lines (cs : List Char) : List (List Char) := linesOfFields (fields '\n' cs)

end SharedPorts.Text
