import SharedPorts.Text.Integer

/-!
# `SharedPorts.Proofs.Text.Digits` — numbers through their digits and back

Ports, addresses and their groups are written in digits, of base ten or sixteen, and read digit by digit.
Both readers follow the same sum, so what is said here about the digits that are written serves both.

## Contents
- **Digits.** `Writes`, characters that write some digits, with `Writes.unique`; and `toDigits_writes`.
- **Decimal numbers.** `digit?_digitChar`, `readDigits_append` and `read_unsigned`.
-/

namespace SharedPorts

namespace Digits

variable {b n : Nat} {digit? : Char → Option Nat} {cs es : List Char} {ds fs : List Nat}

/-! ## Digits -/

/-- The number of some digits in base `b`, taken onto `m`. -/
def valueFrom (b m : Nat) (ds : List Nat) : Nat := ds.foldl (fun m d => b * m + d) m

/-- Characters write some digits. -/
def Writes (digit? : Char → Option Nat) (cs : List Char) (ds : List Nat) : Prop :=
  cs.map digit? = ds.map some

theorem Writes.append (h : Writes digit? cs ds) (h' : Writes digit? es fs) :
    Writes digit? (cs ++ es) (ds ++ fs) := by
  unfold Writes at *
  rw [List.map_append, List.map_append, h, h']

theorem writes_cons_iff {c : Char} {d : Nat} :
    Writes digit? (c :: cs) (d :: ds) ↔ digit? c = some d ∧ Writes digit? cs ds := by
  unfold Writes
  rw [List.map_cons, List.map_cons, List.cons.injEq]

theorem Writes.length_eq (h : Writes digit? cs ds) : cs.length = ds.length := by
  have hlen := congrArg List.length h
  rw [List.length_map, List.length_map] at hlen
  exact hlen

/-- Characters write no digits just if there are none of them. -/
theorem Writes.eq_nil_iff (h : Writes digit? cs ds) : cs = [] ↔ ds = [] := by
  rw [← List.length_eq_zero_iff, h.length_eq, List.length_eq_zero_iff]

/-- The first character writes the first digit. -/
theorem Writes.exists_cons {c : Char} (h : Writes digit? (c :: cs) ds) :
    ∃ d rest, ds = d :: rest ∧ digit? c = some d ∧ Writes digit? cs rest := by
  cases ds with
  | nil => exact absurd (h.eq_nil_iff.mpr rfl) nofun
  | cons d rest => exact ⟨d, rest, rfl, writes_cons_iff.mp h⟩

/-- Characters write one list of digits at most. -/
theorem Writes.unique (h : Writes digit? cs ds) (h' : Writes digit? cs fs) : ds = fs := by
  have hdigits : ds.map some = fs.map some := h.symm.trans h'
  exact (List.map_inj_right fun _ _ => Option.some.inj).mp hdigits

/-- **A number is written** in digits that have its value, and begins with zero only if it is zero. -/
theorem toDigits_writes (hb : 1 < b) (hd : ∀ d < b, digit? (Nat.digitChar d) = some d) (n : Nat) :
    ∃ ds, Writes digit? (Nat.toDigits b n) ds ∧ valueFrom b 0 ds = n ∧
      ((n = 0 ∧ ds = [0]) ∨ ∃ d rest, ds = d :: rest ∧ d ≠ 0) := by
  -- the last digit is split off, as the digits are made
  induction n using Nat.strongRecOn with
  | ind n ih =>
    by_cases hn : n < b
    · rw [Nat.toDigits_of_lt_base hn]
      refine ⟨[n], writes_cons_iff.mpr ⟨hd n hn, rfl⟩, ?_, ?_⟩
      · show b * 0 + n = n
        rw [Nat.mul_zero, Nat.zero_add]
      · by_cases hz : n = 0
        · exact Or.inl ⟨hz, by rw [hz]⟩
        · exact Or.inr ⟨n, [], rfl, hz⟩
    · have hpos : 0 < n := by omega
      obtain ⟨ds, hw, hv, hfirst⟩ := ih (n / b) (Nat.div_lt_self hpos hb)
      have hlast : Writes digit? [Nat.digitChar (n % b)] [n % b] :=
        writes_cons_iff.mpr ⟨hd _ (Nat.mod_lt n (by omega)), rfl⟩
      rw [Nat.toDigits_of_base_le hb (Nat.le_of_not_lt hn)]
      refine ⟨ds ++ [n % b], hw.append hlast, ?_, ?_⟩
      · unfold valueFrom at hv ⊢
        rw [List.foldl_append, hv]
        exact Nat.div_add_mod n b
      · have hquot : n / b ≠ 0 := Nat.ne_of_gt (Nat.div_pos (Nat.le_of_not_lt hn) (by omega))
        rcases hfirst with ⟨hz, -⟩ | ⟨d, rest, rfl, hne⟩
        · exact absurd hz hquot
        · exact Or.inr ⟨d, rest ++ [n % b], rfl, hne⟩

theorem valueFrom_le (hb : 0 < b) (m : Nat) (ds : List Nat) : m ≤ valueFrom b m ds := by
  induction ds generalizing m with
  | nil => exact Nat.le_refl m
  | cons d ds ih =>
    have hstep : m ≤ b * m + d := Nat.le_trans (Nat.le_mul_of_pos_left m hb) (Nat.le_add_right _ _)
    exact Nat.le_trans hstep (ih (b * m + d))

/-! ## Decimal numbers -/

theorem digit?_digitChar : ∀ d < 10, Integer.digit? (Nat.digitChar d) = some d := by decide

/-- **Digits within a bound** are taken, and reading goes on behind them. -/
theorem readDigits_append {bound m : Nat} {excess : Integer.Fault} (h : Writes Integer.digit? cs ds)
    (hv : valueFrom 10 m ds ≤ bound) (rest : List Char) :
    Integer.readDigits bound excess m (cs ++ rest) =
      Integer.readDigits bound excess (valueFrom 10 m ds) rest := by
  induction cs generalizing m ds with
  | nil =>
    obtain rfl := h.eq_nil_iff.mp rfl
    rfl
  | cons c cs ih =>
    obtain ⟨d, ds, rfl, hc, hw⟩ := h.exists_cons
    have hfits : 10 * m + d ≤ bound := Nat.le_trans (valueFrom_le (by decide) _ ds) hv
    rw [List.cons_append, Integer.readDigits, hc]
    dsimp only
    rw [if_pos hfits]
    exact ih hw hv

/-- Digits within a bound are read. -/
theorem readDigits_of_writes {bound m : Nat} {excess : Integer.Fault} (h : Writes Integer.digit? cs ds)
    (hv : valueFrom 10 m ds ≤ bound) :
    Integer.readDigits bound excess m cs = .ok (valueFrom 10 m ds) := by
  have happend : Integer.readDigits bound excess m (cs ++ []) = .ok (valueFrom 10 m ds) :=
    readDigits_append h hv []
  rw [List.append_nil] at happend
  exact happend

/-- A literal without a sign is read digit by digit. -/
theorem read_unsigned {below above : Nat} (hne : cs ≠ []) (hs : ∀ c ∈ cs.head?, c ≠ '+' ∧ c ≠ '-') :
    Integer.read below above cs = Int.ofNat <$> Integer.readSome above .tooLarge cs := by
  unfold Integer.read
  split
  · exact absurd rfl hne
  · exact absurd rfl (hs '+' rfl).1
  · exact absurd rfl (hs '-' rfl).2
  · rfl

/-- Digits are no signs. -/
theorem Writes.unsigned (h : Writes Integer.digit? cs ds) : ∀ c ∈ cs.head?, c ≠ '+' ∧ c ≠ '-' := by
  intro c hc
  obtain ⟨rest, rfl⟩ := List.head?_eq_some_iff.mp hc
  obtain ⟨d, ds, -, hc, -⟩ := h.exists_cons
  constructor
  · rintro rfl
    exact absurd hc nofun
  · rintro rfl
    exact absurd hc nofun

end Digits

end SharedPorts
