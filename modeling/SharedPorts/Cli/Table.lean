/-!
# `SharedPorts.Cli.Table` — columns of a table

Columns have a width in characters. A text that is too long is cut, and its last place says so.

## Contents
- `shorten`: a text of at most a given number of characters.
- `pad`: a text filled up with spaces.
- `rule`: the line below a header.
-/

namespace SharedPorts.Cli

/-- A text of at most `width` characters: where something is cut off, an ellipsis takes the last
    place. -/
def shorten (s : String) (width : Nat) : String :=
  if s.length ≤ width then s
  else if width = 0 then ""
  else String.ofList (s.toList.take (width - 1)) ++ "…"

/-- A text filled up with spaces to a width. -/
def pad (s : String) (width : Nat) : String :=
  s ++ String.ofList (List.replicate (width - s.length) ' ')

/-- The line below a header. -/
def rule : String := String.ofList (List.replicate 80 '-')

end SharedPorts.Cli
