import SharedPorts.Proofs.Json.Reader
import SharedPorts.Proofs.Json.Tokens

/-!
# `SharedPorts.Proofs.Json.Spelling` — numbers and strings by their spelling

The grammar says of a number that it has a whole part, and perhaps a fraction and a power of ten. The reader
goes from byte to byte and only keeps how far it has come. Read for shape, the two are the same: what the
reader takes for a number is spelled by the grammar, of whatever length, and each spelling is taken for the
number that it spells. The same is said of strings.

## Contents
- **Numbers.** `Whole`, `SpellsFraction`, `SpellsExponent` and `Numeral.Spells`.
- **The rest of a number.** `Completes`, by the point that the reader has come to; `completes_sign_iff`,
  which puts the parts together.
- **Through a number.** `exists_numeral` and `Numeral.Spells.accepts`.
- **Through a string.** `accepts_string_iff`.
-/

namespace SharedPorts.Json

variable {t : Tree} {stack : List Frame} {s s' : State} {bs u v rest : Bytes} {b : UInt8}
  {point : NumberPoint} {x y : Numeral} {negative : Bool} {integer fraction ds : List Digit}

/-! ## Numbers -/

/-- The digits of a whole number: no zero stands before others. -/
inductive Whole : List Digit → Prop
  | zero : Whole [0]
  | digits {d : Digit} (hd : d.val ≠ 0) (ds : List Digit) : Whole (d :: ds)

/-- A fraction behind its point, or none. -/
inductive SpellsFraction : List Digit → Bytes → Prop
  | absent : SpellsFraction [] []
  | digits (d : Digit) (ds : List Digit) : SpellsFraction (d :: ds) (0x2E :: (d :: ds).map Digit.toByte)

/-- The sign of a power of ten, of which only the minus has to be written. -/
inductive SpellsSign : Bool → Bytes → Prop
  | absent : SpellsSign false []
  | plus : SpellsSign false [0x2B]
  | minus : SpellsSign true [0x2D]

/-- A power of ten behind its letter, or none. -/
inductive SpellsExponent : Option Exponent → Bytes → Prop
  | absent : SpellsExponent none []
  | digits {mark : UInt8} {negative : Bool} {sign : Bytes} (hmark : mark = 0x65 ∨ mark = 0x45)
      (hsign : SpellsSign negative sign) (d : Digit) (ds : List Digit) :
      SpellsExponent (some ⟨negative, d :: ds⟩) (mark :: (sign ++ (d :: ds).map Digit.toByte))

/-- **A number** and the bytes that write it. -/
inductive Numeral.Spells : Numeral → Bytes → Prop
  | mk (negative : Bool) {integer fraction : List Digit} {exponent : Option Exponent} {u v : Bytes}
      (hi : Whole integer) (hf : SpellsFraction fraction u) (he : SpellsExponent exponent v) :
      Spells ⟨negative, integer, fraction, exponent⟩
        ((if negative then [0x2D] else []) ++ (integer.map Digit.toByte ++ u ++ v))

theorem ofByte?_toByte : ∀ d : Digit, Digit.ofByte? d.toByte = some d := by decide

theorem eq_toByte_of_ofByte? {d : Digit} (h : Digit.ofByte? b = some d) : b = d.toByte := by
  unfold Digit.ofByte? at h
  split at h
  · rename_i hb
    rw [← Option.some.inj h]
    show b = UInt8.ofNat (0x30 + (b.toNat - 0x30))
    rw [Nat.add_sub_cancel' hb.1, UInt8.ofNat_toNat]
  · exact absurd h nofun

theorem toByte_isWordByte : ∀ d : Digit, isWordByte d.toByte = true := by decide

/-! ## The rest of a number -/

/-- **The rest of a number**: of a number, the reader has come to `point` and has taken `x`, and the bytes
    complete it to `y`. -/
inductive Completes : NumberPoint → Numeral → Bytes → Numeral → Prop
  | ends {point : NumberPoint} {x : Numeral} (h : point.complete = true) : Completes point x [] x.turned
  | digit {point next : NumberPoint} {x y : Numeral} {d : Digit} {u : Bytes}
      (hd : point.afterDigit? d = some next) (h : Completes next (x.push point d) u y) :
      Completes point x (d.toByte :: u) y
  | point {point : NumberPoint} {x y : Numeral} {u : Bytes} (hp : point = .zero ∨ point = .integer)
      (h : Completes .dot x u y) : Completes point x (0x2E :: u) y
  | mark {point : NumberPoint} {x y : Numeral} {b : UInt8} {u : Bytes} (hb : b = 0x65 ∨ b = 0x45)
      (hp : point = .zero ∨ point = .integer ∨ point = .fraction)
      (h : Completes .mark { x with exponent := some ⟨false, []⟩ } u y) : Completes point x (b :: u) y
  | sign {x y : Numeral} {negative : Bool} {b : UInt8} {u : Bytes} (hb : SpellsSign negative [b])
      (h : Completes .exponentSign { x with exponent := some ⟨negative, []⟩ } u y) :
      Completes .mark x (b :: u) y

/-- The digits of a power of ten. -/
theorem completes_exponent_iff {sign : Bool} {es : List Digit} :
    Completes .exponent ⟨negative, integer, fraction, some ⟨sign, es⟩⟩ u y ↔
      ∃ ds, u = ds.map Digit.toByte ∧
        y = ⟨negative, integer.reverse, fraction.reverse, some ⟨sign, es.reverse ++ ds⟩⟩ := by
  constructor
  · intro h
    induction u generalizing es with
    | nil =>
      cases h with
      | ends => exact ⟨[], rfl, by simp [Numeral.turned]⟩
    | cons b u ih =>
      cases h with
      | @digit _ _ _ _ d _ hd h =>
        obtain rfl := Option.some.inj hd
        obtain ⟨ds, rfl, rfl⟩ := ih h
        exact ⟨d :: ds, rfl, by simp⟩
      | point hp => simp at hp
      | mark _ hp => simp at hp
  · rintro ⟨ds, rfl, rfl⟩
    induction ds generalizing es with
    | nil =>
      have hend := @Completes.ends .exponent ⟨negative, integer, fraction, some ⟨sign, es⟩⟩ rfl
      simpa [Numeral.turned] using hend
    | cons d ds ih =>
      refine .digit rfl ?_
      have hrest := @ih (d :: es)
      simpa [Numeral.push] using hrest

/-- A power of ten behind its letter. -/
theorem completes_mark_iff :
    Completes .mark ⟨negative, integer, fraction, some ⟨false, []⟩⟩ u y ↔
      ∃ minus sign d ds, SpellsSign minus sign ∧ u = sign ++ (d :: ds).map Digit.toByte ∧
        y = ⟨negative, integer.reverse, fraction.reverse, some ⟨minus, d :: ds⟩⟩ := by
  constructor
  · intro h
    cases h with
    | ends hc => exact absurd hc nofun
    | @digit _ _ _ _ d _ hd h =>
      obtain rfl := Option.some.inj hd
      obtain ⟨ds, rfl, rfl⟩ := completes_exponent_iff.mp h
      exact ⟨false, [], d, ds, .absent, rfl, rfl⟩
    | point hp => simp at hp
    | mark _ hp => simp at hp
    | @sign _ _ minus b _ hb h =>
      cases h with
      | ends hc => exact absurd hc nofun
      | @digit _ _ _ _ d _ hd h =>
        obtain rfl := Option.some.inj hd
        obtain ⟨ds, rfl, rfl⟩ := completes_exponent_iff.mp h
        exact ⟨minus, [b], d, ds, hb, rfl, rfl⟩
      | point hp => simp at hp
      | mark _ hp => simp at hp
  · rintro ⟨minus, sign, d, ds, hsign, rfl, rfl⟩
    have hdigits : ∀ point, point.afterDigit? d = some .exponent → ∀ minus,
        Numeral.push ⟨negative, integer, fraction, some ⟨minus, []⟩⟩ point d =
          ⟨negative, integer, fraction, some ⟨minus, [d]⟩⟩ →
        Completes point ⟨negative, integer, fraction, some ⟨minus, []⟩⟩ ((d :: ds).map Digit.toByte)
          ⟨negative, integer.reverse, fraction.reverse, some ⟨minus, d :: ds⟩⟩ := by
      intro point hpoint minus hpush
      refine .digit hpoint ?_
      rw [hpush]
      exact completes_exponent_iff.mpr ⟨ds, rfl, rfl⟩
    cases hsign with
    | absent => exact hdigits .mark rfl false rfl
    | plus => exact .sign .plus (hdigits .exponentSign rfl false rfl)
    | minus => exact .sign .minus (hdigits .exponentSign rfl true rfl)

/-- What follows the digits of a fraction. -/
theorem SpellsExponent.completes {exponent : Option Exponent} (h : SpellsExponent exponent u)
    (hp : point = .zero ∨ point = .integer ∨ point = .fraction) :
    Completes point ⟨negative, integer, fraction, none⟩ u
      ⟨negative, integer.reverse, fraction.reverse, exponent⟩ := by
  cases h with
  | absent =>
    refine .ends ?_
    rcases hp with rfl | rfl | rfl <;> rfl
  | digits hmark hsign d ds =>
    exact .mark hmark hp (completes_mark_iff.mpr ⟨_, _, d, ds, hsign, rfl, rfl⟩)

/-- The digits of a fraction, and what follows them. -/
theorem completes_fraction_iff :
    Completes .fraction ⟨negative, integer, fraction, none⟩ u y ↔
      ∃ ds exponent v, SpellsExponent exponent v ∧ u = ds.map Digit.toByte ++ v ∧
        y = ⟨negative, integer.reverse, fraction.reverse ++ ds, exponent⟩ := by
  constructor
  · intro h
    induction u generalizing fraction with
    | nil =>
      cases h with
      | ends => exact ⟨[], none, [], .absent, rfl, by simp [Numeral.turned]⟩
    | cons b u ih =>
      cases h with
      | @digit _ _ _ _ d _ hd h =>
        obtain rfl := Option.some.inj hd
        obtain ⟨ds, exponent, v, hv, rfl, rfl⟩ := ih h
        exact ⟨d :: ds, exponent, v, hv, rfl, by simp⟩
      | point hp => simp at hp
      | mark hb _ h =>
        obtain ⟨minus, sign, d, ds, hsign, rfl, rfl⟩ := completes_mark_iff.mp h
        exact ⟨[], _, _, .digits hb hsign d ds, rfl, by simp⟩
  · rintro ⟨ds, exponent, v, hv, rfl, rfl⟩
    induction ds generalizing fraction with
    | nil =>
      rw [List.append_nil]
      exact hv.completes (Or.inr (Or.inr rfl))
    | cons d ds ih =>
      refine .digit rfl ?_
      have hrest := @ih (d :: fraction)
      simpa [Numeral.push] using hrest

/-- What follows the digits of a whole number. -/
theorem SpellsFraction.completes {exponent : Option Exponent} (hf : SpellsFraction fraction u)
    (he : SpellsExponent exponent v) (hp : point = .zero ∨ point = .integer) :
    Completes point ⟨negative, integer, [], none⟩ (u ++ v)
      ⟨negative, integer.reverse, fraction, exponent⟩ := by
  cases hf with
  | absent => exact he.completes (hp.imp_right Or.inl)
  | digits d ds =>
    refine .point hp (.digit rfl ?_)
    exact completes_fraction_iff.mpr ⟨ds, exponent, v, he, rfl, rfl⟩

/-- Behind a whole number stands a fraction, a power of ten, or neither. -/
theorem completes_whole_cases (hp : point = .zero ∨ point = .integer)
    (h : Completes point ⟨negative, integer, [], none⟩ u y) :
    (∃ fraction exponent v w, SpellsFraction fraction v ∧ SpellsExponent exponent w ∧ u = v ++ w ∧
      y = ⟨negative, integer.reverse, fraction, exponent⟩) ∨
    ∃ d v, point = .integer ∧ u = d.toByte :: v ∧
      Completes .integer ⟨negative, d :: integer, [], none⟩ v y := by
  cases h with
  | ends => exact Or.inl ⟨[], none, [], [], .absent, .absent, rfl, rfl⟩
  | @digit _ _ _ _ d v hd h =>
    rcases hp with rfl | rfl
    · exact absurd hd nofun
    · obtain rfl := Option.some.inj hd
      exact Or.inr ⟨d, v, rfl, rfl, h⟩
  | point _ h =>
    cases h with
    | ends hc => exact absurd hc nofun
    | @digit _ _ _ _ d _ hd h =>
      obtain rfl := Option.some.inj hd
      obtain ⟨ds, exponent, w, hw, rfl, rfl⟩ := completes_fraction_iff.mp h
      exact Or.inl ⟨d :: ds, exponent, _, w, .digits d ds, hw, rfl, rfl⟩
    | point hp => simp at hp
    | mark _ hp => simp at hp
  | mark hb _ h =>
    obtain ⟨minus, sign, d, ds, hsign, rfl, rfl⟩ := completes_mark_iff.mp h
    exact Or.inl ⟨[], _, [], _, .absent, .digits hb hsign d ds, rfl, rfl⟩
  | sign => simp at hp

/-- The digits of a whole number, and what follows them. -/
theorem completes_integer_iff :
    Completes .integer ⟨negative, integer, [], none⟩ u y ↔
      ∃ ds fraction exponent v w, SpellsFraction fraction v ∧ SpellsExponent exponent w ∧
        u = ds.map Digit.toByte ++ (v ++ w) ∧ y = ⟨negative, integer.reverse ++ ds, fraction, exponent⟩ := by
  constructor
  · intro h
    induction u generalizing integer with
    | nil =>
      rcases completes_whole_cases (Or.inr rfl) h with ⟨f, e, v, w, hv, hw, heq, rfl⟩ | ⟨d, v, -, heq, -⟩
      · exact ⟨[], f, e, v, w, hv, hw, heq, by simp⟩
      · exact absurd heq nofun
    | cons b u ih =>
      rcases completes_whole_cases (Or.inr rfl) h with ⟨f, e, v, w, hv, hw, heq, rfl⟩ | ⟨d, u', -, heq, h⟩
      · exact ⟨[], f, e, v, w, hv, hw, heq, by simp⟩
      · obtain ⟨rfl, rfl⟩ := List.cons.inj heq
        obtain ⟨ds, f, e, v, w, hv, hw, rfl, rfl⟩ := ih h
        exact ⟨d :: ds, f, e, v, w, hv, hw, rfl, by simp⟩
  · rintro ⟨ds, f, e, v, w, hv, hw, rfl, rfl⟩
    induction ds generalizing integer with
    | nil =>
      rw [List.append_nil]
      exact hv.completes hw (Or.inr rfl)
    | cons d ds ih =>
      refine .digit rfl ?_
      have hrest := @ih (d :: integer)
      simpa [Numeral.push] using hrest

/-- **Behind its sign, a number is completed** by its parts, one after the other. -/
theorem completes_sign_iff :
    Completes .sign ⟨negative, [], [], none⟩ u y ↔
      ∃ integer fraction exponent v w, Whole integer ∧ SpellsFraction fraction v ∧
        SpellsExponent exponent w ∧ u = integer.map Digit.toByte ++ v ++ w ∧
        y = ⟨negative, integer, fraction, exponent⟩ := by
  constructor
  · intro h
    cases h with
    | ends hc => exact absurd hc nofun
    | @digit _ _ _ _ d _ hd h =>
      obtain rfl := Option.some.inj hd
      by_cases hzero : d.val = 0
      · obtain rfl : d = 0 := Fin.ext hzero
        rcases completes_whole_cases (Or.inl rfl) h with ⟨f, e, v, w, hv, hw, rfl, rfl⟩ | ⟨_, _, hp, -⟩
        · exact ⟨[0], f, e, v, w, .zero, hv, hw, rfl, rfl⟩
        · exact absurd hp nofun
      · rw [if_neg hzero] at h
        obtain ⟨ds, f, e, v, w, hv, hw, rfl, rfl⟩ := completes_integer_iff.mp h
        exact ⟨d :: ds, f, e, v, w, .digits hzero ds, hv, hw, by simp, rfl⟩
    | point hp => simp at hp
    | mark _ hp => simp at hp
  · rintro ⟨integer, f, e, v, w, hi, hv, hw, rfl, rfl⟩
    cases hi with
    | zero =>
      have hzero : NumberPoint.sign.afterDigit? 0 = some .zero := rfl
      exact .digit hzero (hv.completes hw (Or.inl rfl))
    | @digits d hd ds =>
      have hinteger : NumberPoint.sign.afterDigit? d = some .integer := congrArg some (if_neg hd)
      refine .digit hinteger ?_
      exact completes_integer_iff.mpr ⟨ds, f, e, v, w, hv, hw, by simp, rfl⟩

/-! ## Through a number -/

theorem accepts_cons_iff (h : s.step .shape b = .ok s') :
    Accepts .shape t s (b :: bs) ↔ Accepts .shape t s' bs := by
  constructor
  · rintro ⟨s₁, hstep, hrest⟩
    rw [Except.ok.inj (h.symm.trans hstep)]
    exact hrest
  · exact fun hrest => ⟨s', h, hrest⟩

/-- Where the reader goes, the rest is accepted from there. -/
theorem Goes.accepts_iff (h : Goes s u s') : Accepts .shape t s (u ++ rest) ↔ Accepts .shape t s' rest := by
  induction u generalizing s with
  | nil => rw [Except.ok.inj h, List.nil_append]
  | cons b u ih =>
    obtain ⟨s₁, hstep, hrest⟩ := goes_cons_iff.mp h
    rw [List.cons_append, accepts_cons_iff hstep, ih hrest]

/-- No word goes on behind a value. -/
theorem not_isWordByte_of_accepts_close {value : Tree}
    (h : Accepts .shape t (.close stack value) rest) : ∀ c ∈ rest.head?, isWordByte c = false := by
  intro c hc
  obtain ⟨tail, rfl⟩ := List.head?_eq_some_iff.mp hc
  obtain ⟨s', hstep, -⟩ := h
  rw [step_close] at hstep
  cases hword : isWordByte c with
  | false => rfl
  | true => exact absurd ((afterValue_isWordByte hword _ _).symm.trans hstep) nofun

/-- A number ends where no word goes on. -/
theorem accepts_ended_iff (hp : point.complete = true) (hrest : ∀ c ∈ rest.head?, isWordByte c = false) :
    Accepts .shape t ⟨stack, .number point x⟩ rest ↔
      Accepts .shape t (.close stack (.number x.turned)) rest := by
  have hsettle : State.settle .shape ⟨stack, .number point x⟩ = .ok (.close stack (.number x.turned)) := by
    show (if !point.complete then _ else _) = _
    rw [hp]
    rfl
  have hblanks := @accepts_blanks_iff .shape t ⟨stack, .number point x⟩ [] rest blanks_nil rfl (fun _ => hrest)
  rw [List.nil_append, hsettle] at hblanks
  rw [hblanks]
  constructor
  · rintro ⟨s₀, hs₀, ha⟩
    rw [Except.ok.inj hs₀]
    exact ha
  · exact fun ha => ⟨_, rfl, ha⟩

/-- **One byte of a number**: a digit more, the point, the letter or the sign of a power of ten, or a byte
    behind it. -/
theorem step_number_cases (h : State.step .shape ⟨stack, .number point x⟩ b = .ok s') :
    (∃ d next, b = d.toByte ∧ point.afterDigit? d = some next ∧ s' = ⟨stack, .number next (x.push point d)⟩) ∨
    (b = 0x2E ∧ (point = .zero ∨ point = .integer) ∧ s' = ⟨stack, .number .dot x⟩) ∨
    ((b = 0x65 ∨ b = 0x45) ∧ (point = .zero ∨ point = .integer ∨ point = .fraction) ∧
      s' = ⟨stack, .number .mark { x with exponent := some ⟨false, []⟩ }⟩) ∨
    (point = .mark ∧ ∃ negative, SpellsSign negative [b] ∧
      s' = ⟨stack, .number .exponentSign { x with exponent := some ⟨negative, []⟩ }⟩) ∨
    (point.complete = true ∧ (State.close stack (.number x.turned)).step .shape b = .ok s') := by
  change stepNumber .shape stack point x b = .ok s' at h
  unfold stepNumber at h
  split at h
  · rename_i d hd
    split at h
    · rename_i next hnext
      exact Or.inl ⟨d, next, eq_toByte_of_ofByte? hd, hnext, (Except.ok.inj h).symm⟩
    · exact absurd h nofun
  · refine Or.inr ?_
    split at h
    · rename_i hdot
      simp only [Bool.and_eq_true, Bool.or_eq_true, beq_iff_eq] at hdot
      exact Or.inl ⟨hdot.1, hdot.2, (Except.ok.inj h).symm⟩
    · refine Or.inr ?_
      split at h
      · rename_i hmark
        simp only [Bool.and_eq_true, Bool.or_eq_true, beq_iff_eq, or_assoc] at hmark
        exact Or.inl ⟨hmark.1, hmark.2, (Except.ok.inj h).symm⟩
      · refine Or.inr ?_
        split at h
        · rename_i hsign
          simp only [Bool.and_eq_true, Bool.or_eq_true, beq_iff_eq] at hsign
          obtain ⟨rfl | rfl, hpoint⟩ := hsign
          · exact Or.inl ⟨hpoint, false, .plus, (Except.ok.inj h).symm⟩
          · exact Or.inl ⟨hpoint, true, .minus, (Except.ok.inj h).symm⟩
        · split at h
          · exact absurd h nofun
          · rename_i hcomplete
            exact Or.inr ⟨by simpa using hcomplete, (step_close _ _ _).trans h⟩

/-- What is accepted from within a number begins with the rest of the number. -/
theorem exists_completes (h : Accepts .shape t ⟨stack, .number point x⟩ bs) :
    ∃ u y rest, bs = u ++ rest ∧ Completes point x u y ∧ Accepts .shape t (.close stack (.number y)) rest := by
  induction bs generalizing point x with
  | nil =>
    have hp : point.complete = true := by
      cases hp : point.complete with
      | true => rfl
      | false => simp [Accepts, State.finish, hp] at h
    exact ⟨[], _, [], rfl, .ends hp, (accepts_ended_iff hp (by simp)).mp h⟩
  | cons b bs ih =>
    obtain ⟨s', hstep, hrest⟩ := h
    rcases step_number_cases hstep with ⟨d, next, rfl, hd, rfl⟩ | ⟨rfl, hp, rfl⟩ | ⟨hb, hp, rfl⟩ |
      ⟨rfl, negative, hb, rfl⟩ | ⟨hp, hclose⟩
    · obtain ⟨u, y, rest, rfl, hu, hrest⟩ := ih hrest
      exact ⟨_ :: u, y, rest, rfl, .digit hd hu, hrest⟩
    · obtain ⟨u, y, rest, rfl, hu, hrest⟩ := ih hrest
      exact ⟨_ :: u, y, rest, rfl, .point hp hu, hrest⟩
    · obtain ⟨u, y, rest, rfl, hu, hrest⟩ := ih hrest
      exact ⟨_ :: u, y, rest, rfl, .mark hb hp hu, hrest⟩
    · obtain ⟨u, y, rest, rfl, hu, hrest⟩ := ih hrest
      exact ⟨_ :: u, y, rest, rfl, .sign hb hu, hrest⟩
    · exact ⟨[], _, b :: bs, rfl, .ends hp, s', hclose, hrest⟩

/-- And whatever completes the number is taken. -/
theorem Completes.accepts (h : Completes point x u y)
    (hrest : Accepts .shape t (.close stack (.number y)) rest) :
    Accepts .shape t ⟨stack, .number point x⟩ (u ++ rest) := by
  induction h with
  | ends hp => exact (accepts_ended_iff hp (not_isWordByte_of_accepts_close hrest)).mpr hrest
  | @digit point next x y d u hd _ ih =>
    refine ⟨_, ?_, ih hrest⟩
    show stepNumber .shape stack point x d.toByte = _
    simp only [stepNumber, ofByte?_toByte, hd]
  | point hp _ ih =>
    refine ⟨_, ?_, ih hrest⟩
    rcases hp with rfl | rfl <;> rfl
  | mark hb hp _ ih =>
    refine ⟨_, ?_, ih hrest⟩
    rcases hb with rfl | rfl <;> rcases hp with rfl | rfl | rfl <;> rfl
  | sign hb _ ih =>
    refine ⟨_, ?_, ih hrest⟩
    cases hb <;> rfl

/-- A number without a sign begins with a digit. -/
theorem exists_first_digit (h : Completes .sign ⟨false, [], [], none⟩ u y) :
    ∃ (d : Digit) (v : Bytes), u = d.toByte :: v ∧
      Completes (if d.val = 0 then .zero else .integer) ⟨false, [d], [], none⟩ v y := by
  cases h with
  | ends hc => exact absurd hc nofun
  | @digit _ _ _ _ d v hd h =>
    obtain rfl := Option.some.inj hd
    exact ⟨d, v, rfl, h⟩
  | point hp => simp at hp
  | mark _ hp => simp at hp

/-- A value that begins with a digit is a number without a sign. -/
theorem openValue_toByte (d : Digit) : openValue .shape stack d.toByte =
    .ok ⟨stack, .number (if d.val = 0 then .zero else .integer) ⟨false, [d], [], none⟩⟩ := by
  have hother : ∀ d : Digit, d.toByte ≠ 0x22 ∧ d.toByte ≠ 0x5B ∧ d.toByte ≠ 0x7B ∧ d.toByte ≠ 0x2D ∧
      d.toByte ≠ 0x74 ∧ d.toByte ≠ 0x66 ∧ d.toByte ≠ 0x6E := by decide
  obtain ⟨hquote, hbracket, hbrace, hminus, htrue, hfalse, hnull⟩ := hother d
  unfold openValue
  rw [beq_false_of_ne hquote, beq_false_of_ne hbracket, beq_false_of_ne hbrace, beq_false_of_ne hminus,
    beq_false_of_ne htrue, beq_false_of_ne hfalse, beq_false_of_ne hnull, ofByte?_toByte]
  rfl

/-- **A number comes next** where a value begins with a digit or a minus. -/
theorem exists_numeral (hb : b = 0x2D ∨ ∃ d : Digit, b = d.toByte)
    (h : ∃ s', openValue .shape stack b = .ok s' ∧ Accepts .shape t s' bs) :
    ∃ x u rest, b :: bs = u ++ rest ∧ x.Spells u ∧ Accepts .shape t (.close stack (.number x)) rest := by
  obtain ⟨s', hopen, hrest⟩ := h
  rcases hb with rfl | ⟨d, rfl⟩
  · obtain rfl := Except.ok.inj hopen
    obtain ⟨u, y, rest, rfl, hu, hrest⟩ := exists_completes hrest
    obtain ⟨i, f, e, v, w, hi, hf, he, rfl, rfl⟩ := completes_sign_iff.mp hu
    exact ⟨_, _, rest, rfl, .mk true hi hf he, hrest⟩
  · rw [openValue_toByte] at hopen
    obtain rfl := Except.ok.inj hopen
    obtain ⟨u, y, rest, rfl, hu, hrest⟩ := exists_completes hrest
    have hall : Completes .sign ⟨false, [], [], none⟩ (d.toByte :: u) y := .digit rfl hu
    obtain ⟨i, f, e, v, w, hi, hf, he, hcut, rfl⟩ := completes_sign_iff.mp hall
    refine ⟨_, _, rest, ?_, .mk false hi hf he, hrest⟩
    rw [← List.cons_append, hcut]
    rfl

/-- **Every number of the grammar is taken** for what it is. -/
theorem Numeral.Spells.accepts (h : x.Spells u) (hrest : Accepts .shape t (.close stack (.number x)) rest) :
    Accepts .shape t ⟨stack, .value⟩ (u ++ rest) := by
  cases h with
  | @mk negative i f e v w hi hf he =>
    have hall : Completes .sign ⟨negative, [], [], none⟩ (i.map Digit.toByte ++ v ++ w) _ :=
      completes_sign_iff.mpr ⟨i, f, e, v, w, hi, hf, he, rfl, rfl⟩
    cases negative with
    | true => exact ⟨_, rfl, hall.accepts hrest⟩
    | false =>
      obtain ⟨d, u, hcut, hdigits⟩ := exists_first_digit hall
      show Accepts .shape t _ (i.map Digit.toByte ++ v ++ w ++ rest)
      rw [hcut]
      refine ⟨_, ?_, hdigits.accepts hrest⟩
      show (if isSpace d.toByte then _ else openValue .shape stack d.toByte) = _
      rw [not_isSpace_of_isWordByte (toByte_isWordByte d), openValue_toByte]
      rfl

/-! ## Through a string -/

/-- A byte is the mark that is looked for first, or what else it may be. -/
theorem mark_or_else {mark : UInt8} {next : State} {other : Except Refusal State}
    (h : (if b == mark then .ok next else other) = .ok s') : (b = mark ∧ s' = next) ∨ other = .ok s' := by
  split at h
  · rename_i hb
    exact Or.inl ⟨beq_iff_eq.mp hb, (Except.ok.inj h).symm⟩
  · exact Or.inr h

/-- The state behind the closing quote of a string. -/
def State.quoted (stack : List Frame) (role : StringRole) (l : Literal) : State :=
  match role with
  | .value => .close stack (.string l)
  | .key members => ⟨stack, .colon members l⟩

theorem closeString_shape (role : StringRole) (l : Literal) :
    closeString .shape stack role l = .ok (.quoted stack role l) := by
  cases role <;> rfl

/-- Four digits are taken for a unit. -/
theorem exists_unit {role : StringRole} {pieces : Literal}
    (h : Accepts .shape t ⟨stack, .string role (.digits []) pieces⟩ bs) :
    ∃ digits unit rest, bs = digits ++ rest ∧ unitOfHex? digits = some unit ∧
      Accepts .shape t ⟨stack, .string role .plain (.unit unit :: pieces)⟩ rest := by
  match bs, h with
  | [], h => simp [Accepts, State.finish] at h
  | [a], ⟨_, ha, h⟩ =>
    obtain rfl := Except.ok.inj ha
    simp [Accepts, State.finish] at h
  | [a, b], ⟨_, ha, _, hb, h⟩ =>
    obtain rfl := Except.ok.inj ha
    obtain rfl := Except.ok.inj hb
    simp [Accepts, State.finish] at h
  | [a, b, c], ⟨_, ha, _, hb, _, hc, h⟩ =>
    obtain rfl := Except.ok.inj ha
    obtain rfl := Except.ok.inj hb
    obtain rfl := Except.ok.inj hc
    simp [Accepts, State.finish] at h
  | a :: b :: c :: d :: rest, ⟨_, ha, _, hb, _, hc, s', hd, h⟩ =>
    obtain rfl := Except.ok.inj ha
    obtain rfl := Except.ok.inj hb
    obtain rfl := Except.ok.inj hc
    change stepString .shape stack role (.digits [a, b, c]) pieces d = .ok s' at hd
    unfold stepString at hd
    dsimp only [List.cons_append, List.nil_append] at hd
    rw [if_neg (show ¬ [a, b, c].length < 3 by simp)] at hd
    cases hunit : unitOfHex? [a, b, c, d] with
    | none =>
      rw [hunit] at hd
      cases hd
    | some unit =>
      rw [hunit] at hd
      obtain rfl := Except.ok.inj hd
      exact ⟨[a, b, c, d], unit, rest, rfl, hunit, h⟩

/-- The escape of a mark has that mark. -/
theorem mark_of_ofMark? {e : Escape} (h : Escape.ofMark? b = some e) : e.mark = b := by
  unfold Escape.ofMark? at h
  have hfound := List.find?_some h
  exact beq_iff_eq.mp hfound

theorem Piece.Spells.ne_nil {p : Piece} (h : p.Spells u) : u ≠ [] := by
  cases h <;> simp

/-- Behind a backslash comes the rest of an escape. -/
theorem exists_escape {role : StringRole} {pieces : Literal}
    (h : Accepts .shape t ⟨stack, .string role .escape pieces⟩ bs) :
    ∃ (p : Piece) (u rest : Bytes), bs = u ++ rest ∧ p.Spells (0x5C :: u) ∧
      Accepts .shape t ⟨stack, .string role .plain (p :: pieces)⟩ rest := by
  cases bs with
  | nil => simp [Accepts, State.finish] at h
  | cons c rest =>
    obtain ⟨s', hstep, hrest⟩ := h
    change stepString .shape stack role .escape pieces c = .ok s' at hstep
    unfold stepString at hstep
    rcases mark_or_else hstep with ⟨rfl, rfl⟩ | hstep
    · obtain ⟨digits, unit, rest, rfl, hdigits, hrest⟩ := exists_unit hrest
      exact ⟨_, _, rest, rfl, .unit hdigits, hrest⟩
    · cases hmark : Escape.ofMark? c with
      | none =>
        rw [hmark] at hstep
        cases hstep
      | some e =>
        rw [hmark] at hstep
        obtain rfl := Except.ok.inj hstep
        rw [← mark_of_ofMark? hmark]
        exact ⟨_, [_], rest, rfl, .escape e, hrest⟩

/-- The closing quote or a piece comes next in a string. -/
theorem exists_piece {role : StringRole} {pieces : Literal}
    (h : Accepts .shape t ⟨stack, .string role .plain pieces⟩ bs) :
    (∃ rest, bs = 0x22 :: rest ∧ Accepts .shape t (.quoted stack role pieces.reverse) rest) ∨
    ∃ (p : Piece) (u rest : Bytes), bs = u ++ rest ∧ p.Spells u ∧
      Accepts .shape t ⟨stack, .string role .plain (p :: pieces)⟩ rest := by
  cases bs with
  | nil => simp [Accepts, State.finish] at h
  | cons b rest =>
    obtain ⟨s', hstep, hrest⟩ := h
    change stepString .shape stack role .plain pieces b = .ok s' at hstep
    unfold stepString at hstep
    by_cases hback : b = 0x5C
    · subst hback
      obtain rfl := Except.ok.inj hstep
      obtain ⟨p, u, rest, rfl, hp, hrest⟩ := exists_escape hrest
      exact Or.inr ⟨p, _, rest, rfl, hp, hrest⟩
    dsimp only at hstep
    rw [beq_false_of_ne hback, if_neg Bool.false_ne_true] at hstep
    by_cases hlow : b < 0x20
    · rw [decide_eq_true hlow] at hstep
      cases hstep
    rw [decide_eq_false hlow] at hstep
    by_cases hquote : b = 0x22
    · subst hquote
      change closeString .shape stack role pieces.reverse = .ok s' at hstep
      rw [closeString_shape] at hstep
      obtain rfl := Except.ok.inj hstep
      exact Or.inl ⟨rest, rfl, hrest⟩
    · rw [beq_false_of_ne hquote] at hstep
      obtain rfl := Except.ok.inj hstep
      exact Or.inr ⟨_, [b], rest, rfl, .byte (UInt8.not_lt.mp hlow) hquote hback, hrest⟩

/-- **A string is taken** by its spelling, up to its closing quote. -/
theorem accepts_string_iff {role : StringRole} {pieces : Literal} :
    Accepts .shape t ⟨stack, .string role .plain pieces⟩ bs ↔
      ∃ (l : Literal) (u rest : Bytes), bs = u ++ 0x22 :: rest ∧ l.Spells u ∧
        Accepts .shape t (.quoted stack role (pieces.reverse ++ l)) rest := by
  constructor
  · intro h
    induction hlen : bs.length using Nat.strongRecOn generalizing bs pieces with
    | ind n ih =>
      rcases exists_piece h with ⟨rest, rfl, hrest⟩ | ⟨p, u, rest, rfl, hp, hrest⟩
      · exact ⟨[], [], rest, rfl, .nil, by rwa [List.append_nil]⟩
      · have hshort : rest.length < n := by
          have hpos := List.length_pos_iff.mpr hp.ne_nil
          rw [← hlen, List.length_append]
          omega
        obtain ⟨l, v, rest, rfl, hl, hrest⟩ := ih _ hshort hrest rfl
        refine ⟨p :: l, u ++ v, rest, by simp, .cons hp hl, ?_⟩
        simpa using hrest
  · rintro ⟨l, u, rest, rfl, hu, hrest⟩
    rw [(goes_pieces hu).accepts_iff]
    refine ⟨_, ?_, hrest⟩
    show closeString .shape stack role (l.reverse ++ pieces).reverse = _
    rw [closeString_shape, List.reverse_append, List.reverse_reverse]

end SharedPorts.Json
