import SharedPorts.Json.Numeral
import SharedPorts.Json.Literal

/-!
# `SharedPorts.Json.Tree` — documents as they are written

A document is kept as its author wrote it: members in their order, with repetitions, and numbers and
strings in their own spelling. What a member means, and which of two equal keys counts, is decided by the
reader of the document's content.

## Contents
- `Tree`: a document.
- `Tree.ofString`, `Tree.ofNat`, `member`: the documents that this library writes.
- `lastOfEach`: members by the text of their keys, the last of equal keys counting.
-/

namespace SharedPorts.Json

/-- A document, as it is written. -/
inductive Tree
  | null
  | bool (b : Bool)
  | number (x : Numeral)
  | string (l : Literal)
  | array (items : List Tree)
  | object (members : List (Literal × Tree))
  deriving Repr

/-- The members of an object. -/
abbrev Members := List (Literal × Tree)

/-- The document that writes a text. -/
def Tree.ofString (s : String) : Tree := .string (Literal.ofString s)

/-- The document that writes a number. -/
def Tree.ofNat (n : Nat) : Tree := .number (Numeral.ofNat n)

/-- A member with a text for its key. -/
def member (key : String) (value : Tree) : Literal × Tree := (Literal.ofString key, value)

/-- The members whose keys are texts, under those texts; of equal keys only the last is kept. -/
def lastOfEach : Members → List (String × Tree)
  | [] => []
  | (key, value) :: rest =>
    match key.text? with
    | none => lastOfEach rest
    | some k =>
      let later := lastOfEach rest
      if later.any (·.1 == k) then later else (k, value) :: later

end SharedPorts.Json
