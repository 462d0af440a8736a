import SharedPorts.Text.Printable

/-!
# `SharedPorts.Text.Quoted` — texts quoted in messages

A message that blames a text shows it between double quotes, with everything unreadable in it spelled out.

## Contents
- `hex`: a number in lower-case hexadecimal digits, without leading zeros.
- `quoteChar`, `quoted`: the quotation of a character and of a text.
-/

namespace SharedPorts.Text

/-- A number in lower-case hexadecimal digits, without leading zeros. -/
def hex (n : Nat) : String := String.ofList (Nat.toDigits 16 n)

/-- A character as it is written between double quotes. -/
def quoteChar (c : Char) : String :=
  match c with
  | '\x00' => "\\0"
  | '\t' => "\\t"
  | '\r' => "\\r"
  | '\n' => "\\n"
  | '"' => "\\\""
  | '\\' => "\\\\"
  | c => if isShown c then c.toString else "\\u\x7b" ++ hex c.toNat ++ "\x7d"

/-- A text between double quotes. -/
def quoted (s : String) : String := "\"" ++ String.join (s.toList.map quoteChar) ++ "\""

end SharedPorts.Text
