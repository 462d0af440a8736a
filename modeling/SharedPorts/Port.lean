import SharedPorts.Text.Integer

/-!
# `SharedPorts.Port` — port numbers

A port is one of 65536 numbers. Requests may name any integer, so the step from an integer to a port can
fail.

## Contents
- `Port`: a port number.
- `Port.ofInt?`: the port with a given number.
- `Port.parse?`: the port that a text writes.
-/

namespace SharedPorts

/-- A port of a machine, 0 to 65535. -/
abbrev Port := UInt16

namespace Port

/-- The port with a given number, if there is one. -/
def ofInt? (n : Int) : Option Port :=
  if 0 ≤ n ∧ n ≤ 65535 then some (UInt16.ofNat n.toNat) else none

theorem ofInt?_eq_some_iff {n : Int} {p : Port} : ofInt? n = some p ↔ n = (p.toNat : Int) := by
  have hp : p.toNat < 65536 := p.toNat_lt
  unfold ofInt?
  split
  · rename_i h
    rw [Option.some.injEq, ← UInt16.toNat_inj, UInt16.toNat_ofNat']
    omega
  · rename_i h
    constructor
    · intro h'
      cases h'
    · intro h'
      omega

theorem ofInt?_eq_none_iff {n : Int} : ofInt? n = none ↔ n < 0 ∨ 65535 < n := by
  unfold ofInt?
  split <;> simp <;> omega

/-- The port that a text writes in decimal digits. -/
def parse? (cs : List Char) : Option Port :=
  match Integer.read 0 65535 cs with
  | .ok n => ofInt? n
  | .error _ => none

end Port

end SharedPorts
