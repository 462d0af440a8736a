import SharedPorts.Port
import SharedPorts.Proofs.Attempt
import SharedPorts.Proofs.Text.Digits
import Mathlib.Data.List.Basic
import Mathlib.Data.Nat.Digits.Defs

/-!
# `SharedPorts.Proofs.Text.Integer` — what an integer literal denotes

A literal is read digit by digit, and every digit is checked against the range before it is taken. Here this
is told without the reading: which number a literal denotes, and at which character a text that is none
breaks off. Every text is either a literal of a number in the range, or is refused for one reason.

## Contents
- **Literals.** `Integer.Denotes`, and `Integer.InRange`.
- **Faults.** `Integer.Breaks` for digits and `Integer.Refused` for literals.
- **Digits.** `readDigits_eq_ok_iff` and `readDigits_eq_error_iff`.
- **Reading.** `read_eq_ok_iff` and `read_eq_error_iff`.
- **Printing.** `denotes_toString`, and the same for ports.
- **Numerals.** `Integer.Numeral`; a number has just one, which `numeral_iff` gives.
- **Ports.** `Port.Written`; `Port.parse?_eq_some_iff` and `Port.parse?_toString`.
-/

namespace SharedPorts

namespace Integer

open Digits

variable {bound below above m n : Nat} {excess f : Fault} {c : Char} {cs : List Char} {ds : List Nat}

/-! ## Literals -/

/-- **A literal**, and the number that it denotes: an optional sign and at least one digit. -/
inductive Denotes : List Char → Int → Prop
  | unsigned {cs : List Char} {ds : List Nat} (h : Writes digit? cs ds) (hne : ds ≠ []) :
      Denotes cs (valueFrom 10 0 ds)
  | plus {cs : List Char} {ds : List Nat} (h : Writes digit? cs ds) (hne : ds ≠ []) :
      Denotes ('+' :: cs) (valueFrom 10 0 ds)
  | minus {cs : List Char} {ds : List Nat} (h : Writes digit? cs ds) (hne : ds ≠ []) :
      Denotes ('-' :: cs) (-(valueFrom 10 0 ds : Int))

/-- A number between `-below` and `above`. -/
def InRange (below above : Nat) (n : Int) : Prop := -(below : Int) ≤ n ∧ n ≤ above

/-- No sign comes first. -/
def Unsigned (cs : List Char) : Prop := ∀ c ∈ cs.head?, c ≠ '+' ∧ c ≠ '-'

theorem digit_of_writes {c : Char} (h : Writes digit? cs ds) (hc : c ∈ cs) : ∃ d, digit? c = some d := by
  have hmem : digit? c ∈ ds.map some := by
    rw [← h]
    exact List.mem_map_of_mem hc
  obtain ⟨d, -, hd⟩ := List.mem_map.mp hmem
  exact ⟨d, hd.symm⟩

/-- A literal consists of its digits and its sign. -/
theorem Denotes.mem {i : Int} (h : Denotes cs i) (hc : c ∈ cs) :
    c = '+' ∨ c = '-' ∨ ∃ d, digit? c = some d := by
  cases h with
  | unsigned h hne => exact Or.inr (Or.inr (digit_of_writes h hc))
  | plus h hne =>
    rcases List.mem_cons.mp hc with rfl | hc
    · exact Or.inl rfl
    · exact Or.inr (Or.inr (digit_of_writes h hc))
  | minus h hne =>
    rcases List.mem_cons.mp hc with rfl | hc
    · exact Or.inr (Or.inl rfl)
    · exact Or.inr (Or.inr (digit_of_writes h hc))

/-- There is no colon in a literal. -/
theorem Denotes.colon_not_mem {i : Int} (h : Denotes cs i) : ':' ∉ cs := by
  intro hmem
  rcases h.mem hmem with hsign | hsign | ⟨d, hd⟩
  · exact absurd hsign (by decide)
  · exact absurd hsign (by decide)
  · exact absurd hd nofun

/-! ## Faults -/

/-- **Digits break off**, taken onto the number `m`: at a character that is no digit, or at the first digit
    that leads beyond the bound, whichever comes first. -/
inductive Breaks (bound : Nat) (excess : Fault) (m : Nat) : List Char → Fault → Prop
  | letter {front back : List Char} {c : Char} {ds : List Nat} (h : Writes digit? front ds)
      (hv : valueFrom 10 m ds ≤ bound) (hc : digit? c = none) :
      Breaks bound excess m (front ++ c :: back) .badDigit
  | beyond {front back : List Char} {c : Char} {d : Nat} {ds : List Nat} (h : Writes digit? front ds)
      (hv : valueFrom 10 m ds ≤ bound) (hc : digit? c = some d) (hb : bound < valueFrom 10 m (ds ++ [d])) :
      Breaks bound excess m (front ++ c :: back) excess

/-- **A text is refused** as a literal. A sign alone is a bad digit, and so is `-` where nothing lies below
    zero. -/
inductive Refused (below above : Nat) : List Char → Fault → Prop
  | empty : Refused below above [] .empty
  | sign {c : Char} (hc : c = '+' ∨ c = '-') : Refused below above [c] .badDigit
  | negative {cs : List Char} (hb : below = 0) : Refused below above ('-' :: cs) .badDigit
  | unsigned {cs : List Char} {f : Fault} (hs : Unsigned cs) (h : Breaks above .tooLarge 0 cs f) :
      Refused below above cs f
  | plus {cs : List Char} {f : Fault} (h : Breaks above .tooLarge 0 cs f) : Refused below above ('+' :: cs) f
  | minus {cs : List Char} {f : Fault} (hb : below ≠ 0) (h : Breaks below .tooSmall 0 cs f) :
      Refused below above ('-' :: cs) f

/-! ## Digits -/

theorem valueFrom_append (m : Nat) (ds : List Nat) (d : Nat) :
    valueFrom 10 m (ds ++ [d]) = 10 * valueFrom 10 m ds + d := by
  unfold valueFrom
  rw [List.foldl_append]
  rfl

theorem writes_nil : Writes digit? [] [] := rfl

/-- Digits that break off behind a digit break off. -/
theorem Breaks.cons {d : Nat} (hc : digit? c = some d)
    (h : Breaks bound excess (10 * m + d) cs f) : Breaks bound excess m (c :: cs) f := by
  cases h with
  | @letter front back c' ds h hv hc' =>
    show Breaks bound excess m ((c :: front) ++ c' :: back) .badDigit
    exact .letter (writes_cons_iff.mpr ⟨hc, h⟩) hv hc'
  | @beyond front back c' d' ds h hv hc' hb =>
    show Breaks bound excess m ((c :: front) ++ c' :: back) excess
    exact .beyond (writes_cons_iff.mpr ⟨hc, h⟩) hv hc' hb

/-- Digits are within the bound, or break off. -/
theorem writes_or_breaks (excess : Fault) (hm : m ≤ bound) (cs : List Char) :
    (∃ ds, Writes digit? cs ds ∧ valueFrom 10 m ds ≤ bound) ∨ ∃ f, Breaks bound excess m cs f := by
  induction cs generalizing m with
  | nil => exact Or.inl ⟨[], writes_nil, hm⟩
  | cons c cs ih =>
    cases hc : digit? c with
    | none =>
      have hbreaks : Breaks bound excess m ([] ++ c :: cs) .badDigit := .letter writes_nil hm hc
      exact Or.inr ⟨.badDigit, hbreaks⟩
    | some d =>
      by_cases hd : 10 * m + d ≤ bound
      · rcases ih hd with ⟨ds, hw, hv⟩ | ⟨f, hf⟩
        · exact Or.inl ⟨d :: ds, writes_cons_iff.mpr ⟨hc, hw⟩, hv⟩
        · exact Or.inr ⟨f, hf.cons hc⟩
      · have hbreaks : Breaks bound excess m ([] ++ c :: cs) excess :=
          .beyond writes_nil hm hc (Nat.lt_of_not_le hd)
        exact Or.inr ⟨excess, hbreaks⟩

/-- Digits that break off are refused. -/
theorem Breaks.readDigits (h : Breaks bound excess m cs f) : readDigits bound excess m cs = .error f := by
  cases h with
  | letter h hv hc =>
    rw [readDigits_append h hv, Integer.readDigits, hc]
  | beyond h hv hc hb =>
    rw [valueFrom_append] at hb
    rw [readDigits_append h hv, Integer.readDigits, hc]
    dsimp only
    rw [if_neg (Nat.not_le_of_lt hb)]

theorem readDigits_eq_ok_iff (hm : m ≤ bound) :
    readDigits bound excess m cs = .ok n ↔ ∃ ds, Writes digit? cs ds ∧ valueFrom 10 m ds = n ∧ n ≤ bound := by
  constructor
  · intro h
    rcases writes_or_breaks excess hm cs with ⟨ds, hw, hv⟩ | ⟨f, hf⟩
    · rw [readDigits_of_writes hw hv] at h
      obtain rfl := Except.ok.inj h
      exact ⟨ds, hw, rfl, hv⟩
    · exact absurd (hf.readDigits.symm.trans h) (by simp)
  · rintro ⟨ds, hw, rfl, hv⟩
    exact readDigits_of_writes hw hv

theorem readDigits_eq_error_iff (hm : m ≤ bound) :
    readDigits bound excess m cs = .error f ↔ Breaks bound excess m cs f := by
  constructor
  · intro h
    rcases writes_or_breaks excess hm cs with ⟨ds, hw, hv⟩ | ⟨f', hf⟩
    · exact absurd ((readDigits_of_writes hw hv).symm.trans h) (by simp)
    · obtain rfl := Except.error.inj (hf.readDigits.symm.trans h)
      exact hf
  · exact Breaks.readDigits

/-! ## Reading -/

theorem not_breaks_nil : ¬ Breaks bound excess m [] f := by
  intro h
  generalize hcs : ([] : List Char) = cs at h
  cases h <;> exact absurd hcs (by simp)

/-- At least one digit. -/
theorem readSome_eq_ok_iff : readSome bound excess cs = .ok n ↔
    ∃ ds, ds ≠ [] ∧ Writes digit? cs ds ∧ valueFrom 10 0 ds = n ∧ n ≤ bound := by
  cases cs with
  | nil =>
    apply iff_of_false (by simp [readSome])
    rintro ⟨ds, hne, hw, -⟩
    exact hne (hw.eq_nil_iff.mp rfl)
  | cons c cs =>
    refine (readDigits_eq_ok_iff (Nat.zero_le bound)).trans (exists_congr fun ds => ?_)
    constructor
    · rintro ⟨hw, hv⟩
      refine ⟨?_, hw, hv⟩
      rintro rfl
      exact absurd (hw.eq_nil_iff.mpr rfl) nofun
    · exact And.right

theorem readSome_eq_error_iff : readSome bound excess cs = .error f ↔
    (cs = [] ∧ f = .badDigit) ∨ Breaks bound excess 0 cs f := by
  cases cs with
  | nil => simp [readSome, not_breaks_nil, eq_comm]
  | cons c cs =>
    show readDigits bound excess 0 (c :: cs) = .error f ↔ _
    rw [readDigits_eq_error_iff (Nat.zero_le bound)]
    simp

/-- A text is empty, or begins with a sign, or with none. -/
theorem sign_cases (cs : List Char) :
    cs = [] ∨ (∃ rest, cs = '+' :: rest) ∨ (∃ rest, cs = '-' :: rest) ∨ (cs ≠ [] ∧ Unsigned cs) := by
  cases cs with
  | nil => exact Or.inl rfl
  | cons c rest =>
    by_cases hplus : c = '+'
    · exact Or.inr (Or.inl ⟨rest, by rw [hplus]⟩)
    · by_cases hminus : c = '-'
      · exact Or.inr (Or.inr (Or.inl ⟨rest, by rw [hminus]⟩))
      · refine Or.inr (Or.inr (Or.inr ⟨by simp, ?_⟩))
        intro d hd
        obtain rfl := Option.some.inj hd
        exact ⟨hplus, hminus⟩

theorem denotes_unsigned_iff {i : Int} (hs : Unsigned cs) :
    Denotes cs i ↔ ∃ ds, ds ≠ [] ∧ Writes digit? cs ds ∧ (valueFrom 10 0 ds : Int) = i := by
  constructor
  · intro h
    cases h with
    | unsigned h hne => exact ⟨_, hne, h, rfl⟩
    | plus h hne => exact absurd rfl (hs '+' rfl).1
    | minus h hne => exact absurd rfl (hs '-' rfl).2
  · rintro ⟨ds, hne, h, rfl⟩
    exact .unsigned h hne

theorem denotes_plus_iff {i : Int} :
    Denotes ('+' :: cs) i ↔ ∃ ds, ds ≠ [] ∧ Writes digit? cs ds ∧ (valueFrom 10 0 ds : Int) = i := by
  constructor
  · intro h
    cases h with
    | unsigned h hne => exact absurd rfl (h.unsigned '+' rfl).1
    | plus h hne => exact ⟨_, hne, h, rfl⟩
  · rintro ⟨ds, hne, h, rfl⟩
    exact .plus h hne

theorem denotes_minus_iff {i : Int} :
    Denotes ('-' :: cs) i ↔ ∃ ds, ds ≠ [] ∧ Writes digit? cs ds ∧ -(valueFrom 10 0 ds : Int) = i := by
  constructor
  · intro h
    cases h with
    | unsigned h hne => exact absurd rfl (h.unsigned '-' rfl).2
    | minus h hne => exact ⟨_, hne, h, rfl⟩
  · rintro ⟨ds, hne, h, rfl⟩
    exact .minus h hne

/-- Digits above zero are in the range just if they are within its upper end. -/
theorem ofNat_readSome_iff {i : Int} : Int.ofNat <$> readSome above .tooLarge cs = .ok i ↔
    (∃ ds, ds ≠ [] ∧ Writes digit? cs ds ∧ (valueFrom 10 0 ds : Int) = i) ∧ InRange below above i := by
  rw [map_eq_ok_iff]
  constructor
  · rintro ⟨n, hn, rfl⟩
    obtain ⟨ds, hne, hw, rfl, hv⟩ := readSome_eq_ok_iff.mp hn
    have hlow : -(below : Int) ≤ (valueFrom 10 0 ds : Int) := by omega
    exact ⟨⟨ds, hne, hw, rfl⟩, hlow, Int.ofNat_le.mpr hv⟩
  · rintro ⟨⟨ds, hne, hw, rfl⟩, -, hv⟩
    exact ⟨_, readSome_eq_ok_iff.mpr ⟨ds, hne, hw, rfl, Int.ofNat_le.mp hv⟩, rfl⟩

/-- Digits below zero are in the range just if they are within its lower end. -/
theorem neg_readSome_iff {i : Int} : (fun n : Nat => -(n : Int)) <$> readSome below .tooSmall cs = .ok i ↔
    (∃ ds, ds ≠ [] ∧ Writes digit? cs ds ∧ -(valueFrom 10 0 ds : Int) = i) ∧ InRange below above i := by
  rw [map_eq_ok_iff]
  constructor
  · rintro ⟨n, hn, rfl⟩
    obtain ⟨ds, hne, hw, rfl, hv⟩ := readSome_eq_ok_iff.mp hn
    have hhigh : -(valueFrom 10 0 ds : Int) ≤ above := by omega
    exact ⟨⟨ds, hne, hw, rfl⟩, Int.neg_le_neg (Int.ofNat_le.mpr hv), hhigh⟩
  · rintro ⟨⟨ds, hne, hw, rfl⟩, hv, -⟩
    exact ⟨_, readSome_eq_ok_iff.mpr ⟨ds, hne, hw, rfl, Int.ofNat_le.mp (Int.neg_le_neg_iff.mp hv)⟩, rfl⟩

/-- **What is read is what a literal denotes**, if that is in the range; and where nothing lies below zero,
    no literal begins with `-`. -/
theorem read_eq_ok_iff {i : Int} : read below above cs = .ok i ↔
    Denotes cs i ∧ InRange below above i ∧ (below = 0 → cs.head? ≠ some '-') := by
  rcases sign_cases cs with rfl | ⟨rest, rfl⟩ | ⟨rest, rfl⟩ | ⟨hne, hs⟩
  · apply iff_of_false (by simp [read])
    rintro ⟨h, -⟩
    obtain ⟨ds, hne, hw, -⟩ := (denotes_unsigned_iff (fun c hc => absurd hc (by simp))).mp h
    exact hne (hw.eq_nil_iff.mp rfl)
  · have hsign : below = 0 → ('+' :: rest).head? ≠ some '-' := fun _ => by simp
    rw [denotes_plus_iff, and_iff_left hsign]
    exact ofNat_readSome_iff
  · rw [denotes_minus_iff]
    by_cases hb : below = 0
    · simp [read, hb]
    · have hread : read below above ('-' :: rest) =
          (fun n : Nat => -(n : Int)) <$> readSome below .tooSmall rest := by rw [read, if_neg hb]
      rw [hread, and_iff_left (fun h => absurd h hb)]
      exact neg_readSome_iff
  · have hsign : below = 0 → cs.head? ≠ some '-' := fun _ hc => (hs '-' hc).2 rfl
    rw [denotes_unsigned_iff hs, read_unsigned hne hs, and_iff_left hsign]
    exact ofNat_readSome_iff

theorem refused_nil_iff : Refused below above [] f ↔ f = .empty := by
  constructor
  · intro h
    generalize hcs : ([] : List Char) = cs at h
    cases h with
    | empty => rfl
    | unsigned hs h => exact absurd (hcs ▸ h) not_breaks_nil
    | _ => exact absurd hcs nofun
  · rintro rfl
    exact .empty

theorem refused_unsigned_iff (hne : cs ≠ []) (hs : Unsigned cs) :
    Refused below above cs f ↔ Breaks above .tooLarge 0 cs f := by
  constructor
  · intro h
    cases h with
    | empty => exact absurd rfl hne
    | sign hc =>
      rcases hc with rfl | rfl
      · exact absurd rfl (hs '+' rfl).1
      · exact absurd rfl (hs '-' rfl).2
    | negative hb => exact absurd rfl (hs '-' rfl).2
    | unsigned hs h => exact h
    | plus h => exact absurd rfl (hs '+' rfl).1
    | minus hb h => exact absurd rfl (hs '-' rfl).2
  · exact .unsigned hs

theorem refused_plus_iff : Refused below above ('+' :: cs) f ↔
    (cs = [] ∧ f = .badDigit) ∨ Breaks above .tooLarge 0 cs f := by
  constructor
  · intro h
    cases h with
    | sign hc => exact Or.inl ⟨rfl, rfl⟩
    | unsigned hs h => exact absurd rfl (hs '+' rfl).1
    | plus h => exact Or.inr h
  · rintro (⟨rfl, rfl⟩ | h)
    · exact .sign (Or.inl rfl)
    · exact .plus h

theorem refused_minus_iff (hb : below ≠ 0) : Refused below above ('-' :: cs) f ↔
    (cs = [] ∧ f = .badDigit) ∨ Breaks below .tooSmall 0 cs f := by
  constructor
  · intro h
    cases h with
    | sign hc => exact Or.inl ⟨rfl, rfl⟩
    | negative hzero => exact absurd hzero hb
    | unsigned hs h => exact absurd rfl (hs '-' rfl).2
    | minus hne h => exact Or.inr h
  · rintro (⟨rfl, rfl⟩ | h)
    · exact .sign (Or.inr rfl)
    · exact .minus hb h

/-- Where nothing lies below zero, `-` is no sign. -/
theorem refused_negative_iff (hb : below = 0) : Refused below above ('-' :: cs) f ↔ f = .badDigit := by
  constructor
  · intro h
    cases h with
    | sign hc => rfl
    | negative hb => rfl
    | unsigned hs h => exact absurd rfl (hs '-' rfl).2
    | minus hne h => exact absurd hb hne
  · rintro rfl
    exact .negative hb

/-- **A text is refused** for the one reason that there is. -/
theorem read_eq_error_iff : read below above cs = .error f ↔ Refused below above cs f := by
  rcases sign_cases cs with rfl | ⟨rest, rfl⟩ | ⟨rest, rfl⟩ | ⟨hne, hs⟩
  · rw [refused_nil_iff, read, Except.error.injEq, eq_comm]
  · rw [refused_plus_iff, read, map_eq_error_iff, readSome_eq_error_iff]
  · by_cases hb : below = 0
    · rw [refused_negative_iff hb, read, if_pos hb, Except.error.injEq, eq_comm]
    · rw [refused_minus_iff hb, read, if_neg hb, map_eq_error_iff, readSome_eq_error_iff]
  · rw [refused_unsigned_iff hne hs, read_unsigned hne hs, map_eq_error_iff, readSome_eq_error_iff]
    exact or_iff_right fun h => hne h.1

/-! ## Printing -/

/-- A natural number is printed in digits. -/
theorem writes_toString (n : Nat) :
    ∃ ds, ds ≠ [] ∧ Writes digit? (toString n).toList ds ∧ valueFrom 10 0 ds = n := by
  obtain ⟨ds, hw, hv, -⟩ := toDigits_writes (by decide) digit?_digitChar n
  rw [Nat.toString_eq_repr, Nat.toList_repr]
  refine ⟨ds, ?_, hw, hv⟩
  rintro rfl
  exact absurd (hw.eq_nil_iff.mpr rfl) Nat.toDigits_ne_nil

/-- **An integer denotes itself** as it is printed. -/
theorem denotes_toString (i : Int) : Denotes (toString i).toList i := by
  cases i with
  | ofNat n =>
    obtain ⟨ds, hne, hw, hv⟩ := writes_toString n
    have h : Denotes (toString n).toList (valueFrom 10 0 ds) := .unsigned hw hne
    rw [hv] at h
    exact h
  | negSucc n =>
    obtain ⟨ds, hne, hw, hv⟩ := writes_toString (n + 1)
    have htext : (toString (Int.negSucc n)).toList = '-' :: (toString (n + 1)).toList := by
      show ("-" ++ toString (n + 1)).toList = _
      rw [String.toList_append]
      rfl
    have h : Denotes ('-' :: (toString (n + 1)).toList) (-(valueFrom 10 0 ds : Int)) := .minus hw hne
    rw [hv] at h
    rw [htext]
    exact h

/-- And so does a port. -/
theorem denotes_port_toString (p : Port) : Denotes (toString p).toList p.toNat :=
  denotes_toString (p.toNat : Int)

/-! ## Numerals -/

/-- **The decimal numeral of a number**: digits alone, and a zero first only where there is no other digit. -/
def Numeral (cs : List Char) (n : Nat) : Prop :=
  ∃ ds, Writes digit? cs ds ∧ valueFrom 10 0 ds = n ∧ (ds = [0] ∨ ∃ d rest, ds = d :: rest ∧ d ≠ 0)

theorem digit?_eq_some_iff {d : Nat} : digit? c = some d ↔ d < 10 ∧ c = Nat.digitChar d := by
  constructor
  · intro h
    unfold digit? at h
    split at h
    · rename_i hc
      obtain rfl := Option.some.inj h
      have hlow : 48 ≤ c.toNat := hc.1
      have hhigh : c.toNat ≤ 57 := hc.2
      have hd : c.toNat - '0'.toNat < 10 := by
        show c.toNat - 48 < 10
        omega
      refine ⟨hd, Char.toNat_inj.mp ?_⟩
      rw [Nat.toNat_digitChar_of_lt_ten hd]
      exact (Nat.add_sub_cancel' hlow).symm
    · exact absurd h nofun
  · rintro ⟨hd, rfl⟩
    exact digit?_digitChar d hd

/-- The digits that characters write are below ten, and fix the characters. -/
theorem eq_map_of_writes (h : Writes digit? cs ds) :
    cs = ds.map Nat.digitChar ∧ ∀ d ∈ ds, d < 10 := by
  induction cs generalizing ds with
  | nil =>
    obtain rfl := h.eq_nil_iff.mp rfl
    exact ⟨rfl, nofun⟩
  | cons c cs ih =>
    obtain ⟨d, ds, rfl, hc, hcs⟩ := h.exists_cons
    obtain ⟨hd, rfl⟩ := digit?_eq_some_iff.mp hc
    obtain ⟨rfl, hds⟩ := ih hcs
    exact ⟨rfl, List.forall_mem_cons.mpr ⟨hd, hds⟩⟩

theorem valueFrom_eq_ofDigits (ds : List Nat) : valueFrom 10 0 ds = Nat.ofDigits 10 ds.reverse := by
  rw [Nat.ofDigits_eq_foldr, List.foldr_reverse]
  unfold valueFrom
  congr 1
  funext m d
  exact Nat.add_comm _ _

/-- Digits that begin with no zero are those of their value. -/
theorem digits_valueFrom {d : Nat} (hd : d ≠ 0) (h : ∀ e ∈ d :: ds, e < 10) :
    Nat.digits 10 (valueFrom 10 0 (d :: ds)) = (d :: ds).reverse := by
  rw [valueFrom_eq_ofDigits]
  apply Nat.digits_ofDigits 10 (by decide)
  · intro e he
    exact h e (List.mem_reverse.mp he)
  · intro hne
    rw [List.getLast_reverse]
    exact hd

/-- The digits of a numeral are those of its number. -/
theorem digits_of_numeral (hds : ds = [0] ∨ ∃ d rest, ds = d :: rest ∧ d ≠ 0) (h : ∀ d ∈ ds, d < 10) :
    ds = if valueFrom 10 0 ds = 0 then [0] else (Nat.digits 10 (valueFrom 10 0 ds)).reverse := by
  rcases hds with rfl | ⟨d, rest, rfl, hd⟩
  · rfl
  · have hdigits := digits_valueFrom hd h
    have hne : valueFrom 10 0 (d :: rest) ≠ 0 := by
      intro hzero
      rw [hzero] at hdigits
      exact absurd hdigits (by simp)
    rw [if_neg hne, hdigits, List.reverse_reverse]

/-- A number has just one numeral. -/
theorem Numeral.unique {cs' : List Char} (h : Numeral cs n) (h' : Numeral cs' n) : cs = cs' := by
  obtain ⟨ds, hw, hv, hds⟩ := h
  obtain ⟨es, hw', hv', hes⟩ := h'
  obtain ⟨rfl, hlt⟩ := eq_map_of_writes hw
  obtain ⟨rfl, hlt'⟩ := eq_map_of_writes hw'
  rw [digits_of_numeral hds hlt, digits_of_numeral hes hlt', hv, hv']

/-- A numeral is that of one number. -/
theorem Numeral.number_unique (h : Numeral cs m) (h' : Numeral cs n) : m = n := by
  obtain ⟨ds, hw, rfl, -⟩ := h
  obtain ⟨es, hw', rfl, -⟩ := h'
  rw [hw.unique hw']

theorem numeral_toString (n : Nat) : Numeral (toString n).toList n := by
  obtain ⟨ds, hw, hv, hds⟩ := toDigits_writes (by decide) digit?_digitChar n
  rw [Nat.toString_eq_repr, Nat.toList_repr]
  exact ⟨ds, hw, hv, hds.imp And.right id⟩

/-- **A numeral is what is printed.** -/
theorem numeral_iff : Numeral cs n ↔ cs = (toString n).toList := by
  constructor
  · intro h
    exact h.unique (numeral_toString n)
  · rintro rfl
    exact numeral_toString n

/-- There is no sign and no blank in a numeral, nor is there a zero before other digits. -/
theorem Numeral.plain (h : Numeral cs n) :
    (∀ c ∈ cs, ∃ d, digit? c = some d) ∧ ∀ rest, cs = '0' :: rest → rest = [] := by
  obtain ⟨ds, hw, -, hds⟩ := h
  refine ⟨fun c hc => digit_of_writes hw hc, ?_⟩
  rintro rest rfl
  rcases hds with rfl | ⟨d, ds, rfl, hd⟩
  · exact (writes_cons_iff.mp hw).2.eq_nil_iff.mpr rfl
  · obtain ⟨hc, -⟩ := writes_cons_iff.mp hw
    exact absurd (Option.some.inj hc).symm hd

/-- A number is written in digits alone. -/
theorem not_mem_toString (hc : digit? c = none) (n : Nat) : c ∉ (toString n).toList := by
  intro hmem
  obtain ⟨d, hd⟩ := (numeral_toString n).plain.1 c hmem
  exact absurd (hc.symm.trans hd) nofun

end Integer

/-! ## Ports -/

namespace Port

open Digits Integer

variable {cs : List Char} {m n : Nat} {p : Port}

/-- **The number of a port is written** in digits, at least one, behind a plus sign or behind none. How many
    digits there are and how large their number is does not matter here. -/
inductive Written : List Char → Nat → Prop
  | bare {cs : List Char} {ds : List Nat} (h : Writes digit? cs ds) (hne : ds ≠ []) :
      Written cs (valueFrom 10 0 ds)
  | plus {cs : List Char} {ds : List Nat} (h : Writes digit? cs ds) (hne : ds ≠ []) :
      Written ('+' :: cs) (valueFrom 10 0 ds)

/-- It is a literal that does not begin with a minus sign. -/
theorem written_iff_denotes : Written cs n ↔ Denotes cs n ∧ cs.head? ≠ some '-' := by
  constructor
  · intro h
    cases h with
    | bare h hne => exact ⟨.unsigned h hne, fun hminus => (h.unsigned '-' hminus).2 rfl⟩
    | plus h hne => exact ⟨.plus h hne, by simp⟩
  · rintro ⟨h, hminus⟩
    generalize hi : (n : Int) = i at h
    cases h with
    | unsigned h hne =>
      obtain rfl := Int.ofNat.inj hi
      exact .bare h hne
    | plus h hne =>
      obtain rfl := Int.ofNat.inj hi
      exact .plus h hne
    | minus h hne => exact absurd rfl hminus

/-- A text writes one number at most. -/
theorem Written.unique (h : Written cs m) (h' : Written cs n) : m = n := by
  cases h with
  | bare h hne =>
    cases h' with
    | bare h' hne' => rw [h.unique h']
    | plus h' hne' => exact absurd rfl (h.unsigned '+' rfl).1
  | plus h hne =>
    cases h' with
    | bare h' hne' => exact absurd rfl (h'.unsigned '+' rfl).1
    | plus h' hne' => rw [h.unique h']

theorem Written.colon_not_mem (h : Written cs n) : ':' ∉ cs :=
  (written_iff_denotes.mp h).1.colon_not_mem

/-- **A port is read** just where its number is written. -/
theorem parse?_eq_some_iff : Port.parse? cs = some p ↔ Written cs p.toNat := by
  have hread : Port.parse? cs = some p ↔ Integer.read 0 65535 cs = .ok (p.toNat : Int) := by
    unfold Port.parse?
    cases Integer.read 0 65535 cs with
    | ok n => rw [ofInt?_eq_some_iff, Except.ok.injEq]
    | error f => exact iff_of_false nofun nofun
  have hrange : InRange 0 65535 p.toNat := by
    have hp : p.toNat < 65536 := p.toNat_lt
    unfold InRange
    omega
  rw [hread, read_eq_ok_iff, written_iff_denotes]
  constructor
  · rintro ⟨hdenotes, -, hminus⟩
    exact ⟨hdenotes, hminus rfl⟩
  · rintro ⟨hdenotes, hminus⟩
    exact ⟨hdenotes, hrange, fun _ => hminus⟩

/-- A number is written as it is printed. -/
theorem written_toString (n : Nat) : Written (toString n).toList n := by
  obtain ⟨ds, hne, hw, hv⟩ := writes_toString n
  have h : Written (toString n).toList (valueFrom 10 0 ds) := .bare hw hne
  rw [hv] at h
  exact h

/-- **A port is read** from its number. -/
theorem parse?_toString (p : Port) : Port.parse? (toString p.toNat).toList = some p :=
  parse?_eq_some_iff.mpr (written_toString p.toNat)

end Port

end SharedPorts
