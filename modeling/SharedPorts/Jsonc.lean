import SharedPorts.Text.Utf8

/-!
# `SharedPorts.Jsonc` — documents with comments, made plain

A file that people edit may hold comments and a comma before a closing brace. Two passes over its bytes
turn it into a plain document: the first takes the comments out, the second the commas. Each pass keeps
track of string literals on its own, since neither markers nor commas count within them.

## Contents
- **Comments.** `withoutComments`: a line comment goes up to its line feed, a block comment becomes one
  space.
- **Commas.** `withoutCommas`: a comma goes if nothing but blanks stands between it and a closing
  brace.
- **Both.** `normalize`.
-/

namespace SharedPorts.Jsonc

/-! ## Comments -/

/-- What a byte stands in, as far as comments go. -/
inductive Region
  | code
  | string
  | lineComment
  | blockComment
  deriving DecidableEq, Repr

/-- The bytes outside comments, beginning in a given region. Within a string a backslash takes the next
    byte with it; a comment that is not closed takes all the rest. -/
def strip : Region → Bytes → Bytes
  | _, [] => []
  | .code, 0x22 :: rest => 0x22 :: strip .string rest
  | .code, 0x2F :: 0x2F :: rest => strip .lineComment rest
  | .code, 0x2F :: 0x2A :: rest => 0x20 :: strip .blockComment rest
  | .code, c :: rest => c :: strip .code rest
  | .string, 0x5C :: c :: rest => 0x5C :: c :: strip .string rest
  | .string, 0x22 :: rest => 0x22 :: strip .code rest
  | .string, c :: rest => c :: strip .string rest
  | .lineComment, 0x0A :: rest => 0x0A :: strip .code rest
  | .lineComment, _ :: rest => strip .lineComment rest
  | .blockComment, 0x2A :: 0x2F :: rest => strip .code rest
  | .blockComment, _ :: rest => strip .blockComment rest

/-- A text without its comments. -/
def withoutComments (bs : Bytes) : Bytes := strip .code bs

/-! ## Commas -/

/-- What a byte stands in, as far as commas go. -/
inductive Quoting
  | outside
  | inside
  | escaped
  deriving DecidableEq, Repr

/-- The region behind a byte. -/
def Quoting.after (q : Quoting) (b : UInt8) : Quoting :=
  match q with
  | .outside => if b == 0x22 then .inside else .outside
  | .inside => if b == 0x5C then .escaped else if b == 0x22 then .outside else .inside
  | .escaped => .inside

/-- The blanks that may stand between a comma and a brace: space, tab, line feed, form feed and carriage
    return. -/
def isBlankByte (b : UInt8) : Bool :=
  b == 0x20 || b == 0x09 || b == 0x0A || b == 0x0C || b == 0x0D

/-- Whether a closing brace comes next, blanks aside. -/
def closesNext (rest : Bytes) : Bool := (rest.dropWhile isBlankByte).head? == some 0x7D

/-- The bytes without trailing commas, beginning in a given region. -/
def dropCommas : Quoting → Bytes → Bytes
  | _, [] => []
  | q, b :: rest =>
    if q = .outside ∧ b = 0x2C ∧ closesNext rest then dropCommas q rest
    else b :: dropCommas (q.after b) rest

/-- A text without the commas before closing braces. -/
def withoutCommas (bs : Bytes) : Bytes := dropCommas .outside bs

/-! ## Both -/

/-- The plain document in a text with comments. -/
def normalize (bs : Bytes) : Bytes := withoutCommas (withoutComments bs)

end SharedPorts.Jsonc
