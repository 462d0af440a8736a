/-!
# `SharedPorts.Text.Integer` — integers in decimal text

A literal is an optional sign and at least one ASCII digit, and nothing else; leading zeros are fine. A
literal is read against a range: its digits are taken one by one, so a text with two faults reports the one
met first.

## Contents
- `Integer.Fault`: what can be wrong with a literal, and its wording.
- `Integer.readDigits`: digits against a bound.
- `Integer.read`: a literal in a range, with or without the sign `-`.
-/

namespace SharedPorts.Integer

/-- What can be wrong with an integer literal. -/
inductive Fault
  | empty
  | badDigit
  | tooLarge
  | tooSmall
  deriving DecidableEq, Repr

/-- What a fault says. -/
def Fault.message : Fault → String
  | .empty => "cannot parse integer from empty string"
  | .badDigit => "invalid digit found in string"
  | .tooLarge => "number too large to fit in target type"
  | .tooSmall => "number too small to fit in target type"

/-- The value of an ASCII digit. -/
def digit? (c : Char) : Option Nat :=
  if '0' ≤ c ∧ c ≤ '9' then some (c.toNat - '0'.toNat) else none

/-- Take digits onto the value `n` while it stays within `bound`; the first digit that leads beyond it
    is the fault `excess`. -/
def readDigits (bound : Nat) (excess : Fault) : Nat → List Char → Except Fault Nat
  | n, [] => .ok n
  | n, c :: cs =>
    match digit? c with
    | none => .error .badDigit
    | some d =>
      if 10 * n + d ≤ bound then readDigits bound excess (10 * n + d) cs else .error excess

/-- Digits, at least one. -/
def readSome (bound : Nat) (excess : Fault) : List Char → Except Fault Nat
  | [] => .error .badDigit
  | cs => readDigits bound excess 0 cs

/-- A literal between `-below` and `above`. Where nothing lies below zero, `-` is no sign but a bad
    digit. -/
def read (below above : Nat) : List Char → Except Fault Int
  | [] => .error .empty
  | '+' :: cs => Int.ofNat <$> readSome above .tooLarge cs
  | '-' :: cs =>
    if below = 0 then .error .badDigit
    else (fun n : Nat => -(n : Int)) <$> readSome below .tooSmall cs
  | cs => Int.ofNat <$> readSome above .tooLarge cs

/-- A literal of a 64-bit signed integer. -/
def readWide (s : String) : Except Fault Int :=
  read 9223372036854775808 9223372036854775807 s.toList

end SharedPorts.Integer
