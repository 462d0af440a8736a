import Mathlib.Data.List.TakeWhile
import SharedPorts.Json.Reader

/-!
# `SharedPorts.Proofs.Json.Tokens` — documents token by token

A document is a sequence of tokens with blanks between them: marks, words and strings. The reader works
byte by byte and knows nothing of tokens. This module brings the two together: what the reader accepts can
be cut into tokens, between two of them it is in no word and in no string, and there it does not matter how
many blanks stand.

## Contents
- **Tokens.** `Quoted`, `Token`, and `Apart`, which says where a token ends.
- **Acceptance.** `Accepts`, the way of the reader through the rest of a document.
- **Between tokens.** `State.between`, `State.inNumber` and `State.settle`; `accepts_blanks_iff`.
- **Through a token.** `accepts_word`, `accepts_string` and `Token.accepts`.
- **Cutting.** `exists_token`, the token that comes next.
- **Behind a comma.** `next?`, the byte that comes next, white space aside; `step_comma` and
  `not_accepts_behind_comma`.
-/

namespace SharedPorts.Json

variable {care : Care} {t : Tree} {s s' s₀ : State} {b c : UInt8} {bs w tok rest : Bytes}

/-! ## Tokens -/

/-- The marks of the grammar: braces, brackets, the colon and the comma. -/
def isMark (b : UInt8) : Bool :=
  b == 0x7B || b == 0x7D || b == 0x5B || b == 0x5D || b == 0x3A || b == 0x2C

/-- The bytes of words and numbers: letters, digits, signs and the point. -/
def isWordByte (b : UInt8) : Bool :=
  (0x30 ≤ b && b ≤ 0x39) || (0x41 ≤ b && b ≤ 0x5A) || (0x61 ≤ b && b ≤ 0x7A) || b == 0x2B || b == 0x2D
    || b == 0x2E

/-- What follows the opening quote of a string, up to its closing quote. A backslash takes the next byte
    with it. -/
inductive Quoted : Bytes → Prop
  | close : Quoted [0x22]
  | byte {c : UInt8} {bs : Bytes} (hq : c ≠ 0x22) (hb : c ≠ 0x5C) (h : Quoted bs) : Quoted (c :: bs)
  | escape {c : UInt8} {bs : Bytes} (h : Quoted bs) : Quoted (0x5C :: c :: bs)

/-- **A token**: a mark, a word or number, or a string with its quotes. -/
inductive Token : Bytes → Prop
  | mark {b : UInt8} (h : isMark b = true) : Token [b]
  | word {b : UInt8} {w : Bytes} (h : ∀ c ∈ b :: w, isWordByte c = true) : Token (b :: w)
  | string {bs : Bytes} (h : Quoted bs) : Token (0x22 :: bs)

/-- A token ends where `rest` begins: no word goes on there. -/
def Apart (tok rest : Bytes) : Prop :=
  ∀ b ∈ tok.getLast?, ∀ c ∈ rest.head?, isWordByte b = true → isWordByte c = false

/-- Nothing but blanks. -/
def Blanks (w : Bytes) : Prop := ∀ b ∈ w, isSpace b = true

theorem Blanks.cons (hw : Blanks w) (hc : isSpace c = true) : Blanks (c :: w) := by
  intro b hb
  rcases List.mem_cons.mp hb with rfl | hb
  · exact hc
  · exact hw b hb

theorem Blanks.append {w' : Bytes} (hw : Blanks w) (hw' : Blanks w') : Blanks (w ++ w') := by
  intro b hb
  rcases List.mem_append.mp hb with hb | hb
  · exact hw b hb
  · exact hw' b hb

theorem blanks_nil : Blanks [] := by
  intro b hb
  exact absurd hb List.not_mem_nil

theorem isSpace_cases (h : isSpace b = true) : b = 0x20 ∨ b = 0x09 ∨ b = 0x0A ∨ b = 0x0D := by
  simpa [isSpace, or_assoc] using h

theorem isMark_cases (h : isMark b = true) :
    b = 0x7B ∨ b = 0x7D ∨ b = 0x5B ∨ b = 0x5D ∨ b = 0x3A ∨ b = 0x2C := by
  simpa [isMark, or_assoc] using h

theorem not_isWordByte_of_isSpace (h : isSpace b = true) : isWordByte b = false := by
  rcases isSpace_cases h with rfl | rfl | rfl | rfl <;> rfl

theorem not_isWordByte_of_isMark (h : isMark b = true) : isWordByte b = false := by
  rcases isMark_cases h with rfl | rfl | rfl | rfl | rfl | rfl <;> rfl

theorem not_isSpace_of_isMark (h : isMark b = true) : isSpace b = false := by
  rcases isMark_cases h with rfl | rfl | rfl | rfl | rfl | rfl <;> rfl

theorem not_isSpace_of_isWordByte (h : isWordByte b = true) : isSpace b = false := by
  cases hs : isSpace b with
  | false => rfl
  | true => exact absurd (h.symm.trans (not_isWordByte_of_isSpace hs)) (by simp)

/-- A string ends with its closing quote. -/
theorem Quoted.getLast? (h : Quoted bs) (b : UInt8) : (b :: bs).getLast? = some 0x22 := by
  induction h generalizing b with
  | close => rfl
  | byte _ _ _ ih => rw [List.getLast?_cons_cons, ih]
  | escape _ ih => rw [List.getLast?_cons_cons, List.getLast?_cons_cons, ih]

/-- A mark is never part of a word. -/
theorem apart_mark (h : isMark b = true) : Apart [b] rest := by
  intro c hc d _ hw
  obtain rfl : b = c := by simpa using hc
  exact absurd (hw.symm.trans (not_isWordByte_of_isMark h)) (by simp)

/-- Nor is a string. -/
theorem Quoted.apart (h : Quoted bs) : Apart (0x22 :: bs) rest := by
  intro c hc d _ hw
  rw [h.getLast?] at hc
  obtain rfl : 0x22 = c := by simpa using hc
  exact absurd hw (by decide)

/-- Any token ends where no word can go on. -/
theorem apart_of_head (h : ∀ c ∈ rest.head?, isWordByte c = false) : Apart tok rest := by
  intro b _ c hc _
  exact h c hc

theorem Token.ne_nil (h : Token tok) : tok ≠ [] := by
  cases h <;> simp

/-- A string has one closing quote only. -/
theorem Quoted.append_inj {u v rest' : Bytes} (hu : Quoted u) (hv : Quoted v)
    (h : u ++ rest = v ++ rest') : u = v ∧ rest = rest' := by
  induction hu generalizing v with
  | close =>
    cases hv with
    | close => simpa using h
    | byte hq _ _ => exact absurd (List.cons.inj h).1.symm hq
    | escape _ => exact absurd (List.cons.inj h).1 (by decide)
  | byte hq hb _ ih =>
    cases hv with
    | close => exact absurd (List.cons.inj h).1 hq
    | byte _ _ hv =>
      obtain ⟨rfl, htail⟩ := List.cons.inj h
      obtain ⟨rfl, rfl⟩ := ih hv htail
      exact ⟨rfl, rfl⟩
    | escape _ => exact absurd (List.cons.inj h).1 hb
  | escape _ ih =>
    cases hv with
    | close => exact absurd (List.cons.inj h).1 (by decide)
    | byte _ hb _ => exact absurd (List.cons.inj h).1.symm hb
    | escape hv =>
      obtain ⟨rfl, htail⟩ := List.cons.inj (List.cons.inj h).2
      obtain ⟨rfl, rfl⟩ := ih hv htail
      exact ⟨rfl, rfl⟩

/-! ## Acceptance -/

/-- From a state, the reader takes the rest of a document and finds `t`. -/
def Accepts (care : Care) (t : Tree) : State → Bytes → Prop
  | s, [] => s.finish care = .ok t
  | s, b :: bs => ∃ s', s.step care b = .ok s' ∧ Accepts care t s' bs

/-- What is accepted is what is read, on whatever line. -/
theorem readFrom_eq_ok_iff {line : Nat} : readFrom care line s bs = .ok t ↔ Accepts care t s bs := by
  induction bs generalizing s line with
  | nil =>
    unfold readFrom Accepts
    cases s.finish care <;> simp [Except.mapError]
  | cons b bs ih =>
    unfold readFrom Accepts
    cases hstep : s.step care b with
    | ok s' => simp [ih]
    | error refusal => cases refusal <;> simp

/-! ## Between tokens

A number shows its end by the byte behind it only: the reader is still in the number there, and leaves it by
that byte. `State.settle` is what it leaves the number for. -/

/-- In no word and in no string. -/
def State.between (s : State) : Bool :=
  match s.mode with
  | .word .. | .string .. => false
  | _ => true

/-- In a number, or right behind it. -/
def State.inNumber (s : State) : Bool :=
  match s.mode with
  | .number .. => true
  | _ => false

/-- The state in which a number has ended, if it may end. -/
def State.settle (care : Care) (s : State) : Except Refusal State :=
  match s.mode with
  | .number point x =>
    if !point.complete then .error .here
    else if !care.admitsNumber x.turned then .error .before
    else .ok (.close s.stack (.number x.turned))
  | _ => .ok s

theorem settle_of_not_inNumber (h : s.inNumber = false) : s.settle care = .ok s := by
  obtain ⟨stack, mode⟩ := s
  cases mode <;> first | rfl | exact absurd h (by simp [State.inNumber])

/-- Behind a value, the reader is between tokens and in no number. -/
theorem between_close (stack : List Frame) (t : Tree) :
    (State.close stack t).between = true ∧ (State.close stack t).inNumber = false := by
  unfold State.close
  split <;> exact ⟨rfl, rfl⟩

theorem between_of_settle (hs : s.between = true) (h : s.settle care = .ok s₀) :
    s₀.between = true ∧ s₀.inNumber = false := by
  cases hn : s.inNumber with
  | false =>
    rw [settle_of_not_inNumber hn] at h
    obtain rfl := Except.ok.inj h
    exact ⟨hs, hn⟩
  | true =>
    obtain ⟨stack, mode⟩ := s
    cases mode with
    | number point x =>
      simp only [State.settle] at h
      split at h
      · simp at h
      · split at h
        · simp at h
        · rw [← Except.ok.inj h]
          exact between_close stack _
    | _ => simp [State.inNumber] at hn

/-- The byte behind a value is taken in the same way wherever the value stands. -/
theorem step_close (stack : List Frame) (t : Tree) (b : UInt8) :
    (State.close stack t).step care b = afterValue (State.close stack t).stack (State.close stack t).mode b := by
  unfold State.close
  split <;> rfl

theorem digit_ofByte?_eq_none (h : isWordByte b = false) : Digit.ofByte? b = none := by
  unfold Digit.ofByte?
  rw [dif_neg]
  intro hd
  have hle : (0x30 ≤ b && b ≤ 0x39) = true := by
    simp [UInt8.le_iff_toNat_le, hd.1, hd.2]
  simp [isWordByte, hle] at h

/-- **A byte that belongs to no word** is taken behind the number, if the reader is in one. -/
theorem step_settle (hs : s.between = true) (hb : isWordByte b = false) :
    s.step care b = (s.settle care).bind (·.step care b) := by
  cases hn : s.inNumber with
  | false =>
    rw [settle_of_not_inNumber hn]
    rfl
  | true =>
    obtain ⟨stack, mode⟩ := s
    cases mode with
    | number point x =>
      have hpoint : b ≠ 0x2E := by rintro rfl; exact absurd hb (by decide)
      have hmark : b ≠ 0x65 ∧ b ≠ 0x45 := by
        constructor <;> rintro rfl <;> exact absurd hb (by decide)
      have hsign : b ≠ 0x2B ∧ b ≠ 0x2D := by
        constructor <;> rintro rfl <;> exact absurd hb (by decide)
      show stepNumber care stack point x b = _
      unfold stepNumber
      simp only [digit_ofByte?_eq_none hb, hpoint, hmark, hsign, beq_iff_eq, Bool.and_eq_true,
        Bool.or_eq_true, false_and, or_self, if_false, State.settle]
      split
      · rfl
      · split
        · rfl
        · exact (step_close stack _ b).symm
    | _ => simp [State.inNumber] at hn

/-- A blank between tokens only ends a number. -/
theorem step_blank (hs : s.between = true) (hb : isSpace b = true) : s.step care b = s.settle care := by
  have hrest : ∀ s₀ : State, s₀.between = true → s₀.inNumber = false → s₀.step care b = .ok s₀ := by
    rintro ⟨stack, mode⟩ hs hn
    cases mode <;> simp_all [State.step, State.between, State.inNumber, afterValue]
  rw [step_settle hs (not_isWordByte_of_isSpace hb)]
  cases h : s.settle care with
  | error refusal => rfl
  | ok s₀ =>
    obtain ⟨hs₀, hn₀⟩ := between_of_settle hs h
    exact hrest s₀ hs₀ hn₀

/-- The end of the input also ends a number. -/
theorem finish_settle (hs : s.between = true) :
    s.finish care = .ok t ↔ ∃ s₀, s.settle care = .ok s₀ ∧ s₀.finish care = .ok t := by
  cases hn : s.inNumber with
  | false => simp [settle_of_not_inNumber hn]
  | true =>
    obtain ⟨stack, mode⟩ := s
    cases mode with
    | number point x =>
      simp only [State.finish, State.settle]
      split
      · simp
      · split
        · simp
        · cases stack with
          | nil => simp [State.close]
          | cons frame stack => cases frame <;> simp [State.close]
    | _ => simp [State.inNumber] at hn

/-- **Blanks between tokens** do not count: only the number before them ends. -/
theorem accepts_blanks_iff (hw : Blanks w) (hs : s.between = true)
    (hn : s.inNumber = true → ∀ c ∈ (w ++ rest).head?, isWordByte c = false) :
    Accepts care t s (w ++ rest) ↔ ∃ s₀, s.settle care = .ok s₀ ∧ Accepts care t s₀ rest := by
  induction w generalizing s with
  | nil =>
    cases rest with
    | nil => exact finish_settle hs
    | cons c rest =>
      cases hin : s.inNumber with
      | false => simp [settle_of_not_inNumber hin]
      | true =>
        have hc : isWordByte c = false := hn hin c rfl
        simp only [List.nil_append, Accepts, step_settle hs hc]
        cases s.settle care <;> simp [Except.bind]
  | cons b w ih =>
    have hblank : isSpace b = true := hw b List.mem_cons_self
    simp only [List.cons_append, Accepts, step_blank hs hblank]
    refine exists_congr fun s₀ => and_congr_right fun hsettle => ?_
    obtain ⟨hs₀, hn₀⟩ := between_of_settle hs hsettle
    have hrest := @ih s₀ (fun c hc => hw c (List.mem_cons_of_mem b hc)) hs₀ (by simp [hn₀])
    rw [hrest, settle_of_not_inNumber hn₀]
    simp

/-! ## Through a token

Whatever stands behind a token, the reader goes through the token in the same way, and comes to a state
between tokens again. Of a token that is never completed nothing is accepted, which is why the rest of the
document is part of each statement. -/

/-- In a word or a number, or behind it. -/
def State.inWord (s : State) : Prop :=
  match s.mode with
  | .number .. | .afterItem _ | .afterMember _ | .done _ => True
  | .word left _ => ∀ b ∈ left, isWordByte b = true
  | _ => False

/-- A word byte is none of the bytes that open or close something. -/
theorem ne_of_isWordByte (h : isWordByte b = true) (hc : isWordByte c = false) : b ≠ c := by
  rintro rfl
  exact absurd (h.symm.trans hc) (by simp)

/-- Behind a value, no word may begin. -/
theorem afterValue_isWordByte (hb : isWordByte b = true) (stack : List Frame) (mode : Mode) :
    afterValue stack mode b = .error .here := by
  have hcomma : b ≠ 0x2C := ne_of_isWordByte hb rfl
  have hbracket : b ≠ 0x5D := ne_of_isWordByte hb rfl
  have hbrace : b ≠ 0x7D := ne_of_isWordByte hb rfl
  cases mode <;> simp [afterValue, not_isSpace_of_isWordByte hb, hcomma, hbracket, hbrace]

/-- **No word follows a number**: two of them would need a mark between them. -/
theorem not_isWordByte_of_settle (hin : s.inNumber = true) (hsettle : s.settle care = .ok s₀)
    (h : Accepts care t s₀ bs) : ∀ c ∈ bs.head?, isWordByte c = false := by
  obtain ⟨stack, mode⟩ := s
  cases mode with
  | number point x =>
    have hclosed : s₀ = .close stack (.number x.turned) := by
      simp only [State.settle] at hsettle
      split at hsettle
      · simp at hsettle
      · split at hsettle
        · simp at hsettle
        · exact (Except.ok.inj hsettle).symm
    cases bs with
    | nil =>
      intro c hc
      simp at hc
    | cons b bs =>
      intro c hc
      obtain rfl : b = c := by simpa using hc
      obtain ⟨s', hstep, -⟩ := h
      rw [hclosed, step_close] at hstep
      cases hb : isWordByte b with
      | false => rfl
      | true => simp [afterValue_isWordByte hb] at hstep
  | _ => simp [State.inNumber] at hin

theorem openValue_inWord {stack : List Frame} (hb : isWordByte b = true)
    (h : openValue care stack b = .ok s') : s'.inWord := by
  have hquote : b ≠ 0x22 := ne_of_isWordByte hb rfl
  have hbracket : b ≠ 0x5B := ne_of_isWordByte hb rfl
  have hbrace : b ≠ 0x7B := ne_of_isWordByte hb rfl
  simp only [openValue, hquote, hbracket, hbrace, beq_iff_eq, if_false] at h
  split at h
  · rw [← Except.ok.inj h]
    trivial
  · -- the three words are in lower-case letters
    split at h
    · rw [← Except.ok.inj h]
      show ∀ c ∈ ([0x72, 0x75, 0x65] : Bytes), isWordByte c = true
      exact List.all_eq_true.mp rfl
    · split at h
      · rw [← Except.ok.inj h]
        show ∀ c ∈ ([0x61, 0x6C, 0x73, 0x65] : Bytes), isWordByte c = true
        exact List.all_eq_true.mp rfl
      · split at h
        · rw [← Except.ok.inj h]
          show ∀ c ∈ ([0x75, 0x6C, 0x6C] : Bytes), isWordByte c = true
          exact List.all_eq_true.mp rfl
        · split at h
          · rw [← Except.ok.inj h]
            trivial
          · simp at h

/-- A word begins where a value may begin. -/
theorem inWord_of_step (hs : s.between = true) (hn : s.inNumber = false) (hb : isWordByte b = true)
    (h : s.step care b = .ok s') : s'.inWord := by
  have hspace := not_isSpace_of_isWordByte hb
  have hquote : b ≠ 0x22 := ne_of_isWordByte hb rfl
  have hbracket : b ≠ 0x5D := ne_of_isWordByte hb rfl
  have hbrace : b ≠ 0x7D := ne_of_isWordByte hb rfl
  have hcolon : b ≠ 0x3A := ne_of_isWordByte hb rfl
  obtain ⟨stack, mode⟩ := s
  cases mode with
  | value =>
    simp only [State.step, hspace, Bool.false_eq_true, if_false] at h
    exact openValue_inWord hb h
  | firstItem =>
    simp only [State.step, hspace, hbracket, beq_iff_eq, Bool.false_eq_true, if_false] at h
    exact openValue_inWord hb h
  | firstKey => simp [State.step, hspace, hbrace, hquote] at h
  | nextKey members => simp [State.step, hspace, hquote] at h
  | colon members key => simp [State.step, hspace, hcolon] at h
  | afterItem | afterMember | done => simp [State.step, afterValue_isWordByte hb] at h
  | number => simp [State.inNumber] at hn
  | word | string => simp [State.between] at hs

/-- A word goes on within itself. -/
theorem State.inWord.step (hs : s.inWord) (hb : isWordByte b = true) (h : s.step care b = .ok s') :
    s'.inWord := by
  obtain ⟨stack, mode⟩ := s
  cases mode with
  | number point x =>
    simp only [State.step, stepNumber] at h
    split at h
    · split at h
      · rw [← Except.ok.inj h]
        trivial
      · simp at h
    · -- the point, the marks of an exponent, its sign, or a byte behind the number
      split at h
      · rw [← Except.ok.inj h]
        trivial
      · split at h
        · rw [← Except.ok.inj h]
          trivial
        · split at h
          · rw [← Except.ok.inj h]
            trivial
          · simp only [afterValue_isWordByte hb] at h
            split at h
            · simp at h
            · split at h <;> simp at h
  | word left meaning =>
    match left with
    | [] => simp [State.step] at h
    | [d] =>
      simp only [State.step] at h
      split at h
      · rw [← Except.ok.inj h]
        unfold State.close
        split <;> trivial
      · simp at h
    | d :: e :: left =>
      simp only [State.step] at h
      split at h
      · rw [← Except.ok.inj h]
        exact fun c hc => hs c (List.mem_cons_of_mem d hc)
      · simp at h
  | afterItem | afterMember | done => simp [State.step, afterValue_isWordByte hb] at h
  | _ => exact absurd hs (by simp [State.inWord])

/-- Where a word has come to its end, the reader has left it. -/
theorem State.inWord.between (hs : s.inWord) (hrest : ∀ c ∈ rest.head?, isWordByte c = false)
    (h : Accepts care t s rest) : s.between = true := by
  obtain ⟨stack, mode⟩ := s
  cases mode with
  | word left meaning =>
    cases rest with
    | nil => simp [Accepts, State.finish] at h
    | cons c rest =>
      obtain ⟨s', hstep, -⟩ := h
      have hc : isWordByte c = false := hrest c rfl
      match left with
      | [] => simp [State.step] at hstep
      | [d] =>
        have hd : c ≠ d := (ne_of_isWordByte (hs d List.mem_cons_self) hc).symm
        simp [State.step, hd] at hstep
      | d :: e :: left =>
        have hd : c ≠ d := (ne_of_isWordByte (hs d List.mem_cons_self) hc).symm
        simp [State.step, hd] at hstep
  | string => exact absurd hs (by simp [State.inWord])
  | _ => rfl

/-- The reader passes through the bytes of `tok` from `s` to a state between tokens, in which the rest of
    the document is accepted; and it would do so whatever the rest. -/
def Passes (care : Care) (t : Tree) (s : State) (tok rest : Bytes) (s' : State) : Prop :=
  s'.between = true ∧ Accepts care t s' rest ∧ ∀ rest', Accepts care t s' rest' → Accepts care t s (tok ++ rest')

theorem Passes.cons (h : s.step care b = .ok s₀) (hp : Passes care t s₀ bs rest s') :
    Passes care t s (b :: bs) rest s' := by
  obtain ⟨hs', hrest, hall⟩ := hp
  exact ⟨hs', hrest, fun rest' ha => ⟨s₀, h, hall rest' ha⟩⟩

/-- **Through a word**, once it has begun. -/
theorem accepts_word (hw : ∀ b ∈ w, isWordByte b = true) (hs : s.inWord)
    (hrest : ∀ c ∈ rest.head?, isWordByte c = false) (h : Accepts care t s (w ++ rest)) :
    ∃ s', Passes care t s w rest s' := by
  induction w generalizing s with
  | nil => exact ⟨s, hs.between hrest h, h, fun _ ha => ha⟩
  | cons b w ih =>
    obtain ⟨s₀, hstep, hrest'⟩ := h
    have hin : s₀.inWord := hs.step (hw b List.mem_cons_self) hstep
    obtain ⟨s', hp⟩ := ih (fun c hc => hw c (List.mem_cons_of_mem b hc)) hin hrest'
    exact ⟨s', hp.cons hstep⟩

/-- What the reader has taken of an escape that is not complete. -/
def StringPoint.opened : StringPoint → Bytes
  | .plain | .digits _ => []
  | .escape => [0x5C]

/-- **One byte within a string**, unless it closes the string. -/
inductive StringStep (b : UInt8) : StringPoint → StringPoint → Prop
  | plain (hq : b ≠ 0x22) (hb : b ≠ 0x5C) : StringStep b .plain .plain
  | backslash (hb : b = 0x5C) : StringStep b .plain .escape
  | escape {point : StringPoint} (hp : point.opened = []) : StringStep b .escape point
  | digit {seen : Bytes} : StringStep b (.digits seen) (.digits (seen ++ [b]))
  | unit {seen : Bytes} {u : UInt16} (hu : unitOfHex? (seen ++ [b]) = some u) : StringStep b (.digits seen) .plain

theorem step_string_cases {stack : List Frame} {role : StringRole} {point : StringPoint} {pieces : Literal}
    (h : State.step care ⟨stack, .string role point pieces⟩ b = .ok s') :
    (point = .plain ∧ b = 0x22 ∧ ∃ l, closeString care stack role l = .ok s') ∨
    ∃ point' pieces', s' = ⟨stack, .string role point' pieces'⟩ ∧ StringStep b point point' := by
  change stepString care stack role point pieces b = .ok s' at h
  unfold stepString at h
  cases point with
  | plain =>
    dsimp only at h
    by_cases hb : b = 0x5C
    · rw [if_pos (beq_iff_eq.mpr hb)] at h
      exact Or.inr ⟨_, _, (Except.ok.inj h).symm, .backslash hb⟩
    · rw [if_neg (by simpa using hb)] at h
      split at h
      · simp at h
      · split at h
        · rename_i hq
          exact Or.inl ⟨rfl, beq_iff_eq.mp hq, _, h⟩
        · rename_i hq
          exact Or.inr ⟨_, _, (Except.ok.inj h).symm, .plain (by simpa using hq) hb⟩
  | escape =>
    dsimp only at h
    split at h
    · exact Or.inr ⟨_, _, (Except.ok.inj h).symm, .escape rfl⟩
    · split at h
      · split at h
        · simp at h
        · exact Or.inr ⟨_, _, (Except.ok.inj h).symm, .escape rfl⟩
      · simp at h
  | digits seen =>
    dsimp only at h
    split at h
    · exact Or.inr ⟨_, _, (Except.ok.inj h).symm, .digit⟩
    · split at h
      · simp at h
      · rename_i u hu
        split at h
        · simp at h
        · exact Or.inr ⟨_, _, (Except.ok.inj h).symm, .unit hu⟩

theorem ne_of_hexValue? (h : (hexValue? b).isSome = true) : b ≠ 0x22 ∧ b ≠ 0x5C := by
  constructor <;> rintro rfl <;> exact absurd h (by decide)

/-- Digits that write a unit are all digits. -/
theorem hexValue?_of_unitOfHex? {seen : Bytes} {u : UInt16} (h : unitOfHex? seen = some u) :
    ∀ b ∈ seen, (hexValue? b).isSome = true := by
  unfold unitOfHex? at h
  split at h
  · rename_i a b c d
    simp only [Option.bind_eq_bind, Option.bind_eq_some_iff] at h
    obtain ⟨_, ha, _, hb, _, hc, _, hd, -⟩ := h
    simp [ha, hb, hc, hd]
  · simp at h

/-- No document is accepted from within a unit whose digits are none. -/
theorem hexValue?_of_accepts {stack : List Frame} {role : StringRole} {seen : Bytes} {pieces : Literal}
    (h : Accepts care t ⟨stack, .string role (.digits seen) pieces⟩ bs) :
    ∀ b ∈ seen, (hexValue? b).isSome = true := by
  induction bs generalizing seen pieces with
  | nil => simp [Accepts, State.finish] at h
  | cons b bs ih =>
    obtain ⟨s', hstep, hrest⟩ := h
    intro c hc
    have hc' : c ∈ seen ++ [b] := List.mem_append_left _ hc
    rcases step_string_cases hstep with ⟨hpoint, -⟩ | ⟨point', pieces', rfl, hgo⟩
    · simp at hpoint
    · cases hgo with
      | digit => exact ih hrest c hc'
      | unit hu => exact hexValue?_of_unitOfHex? hu c hc'

/-- A closed string leaves the reader between tokens. -/
theorem between_closeString {stack : List Frame} {role : StringRole} {l : Literal}
    (h : closeString care stack role l = .ok s') : s'.between = true ∧ s'.inNumber = false := by
  unfold closeString at h
  split at h
  · simp at h
  · cases role with
    | value =>
      rw [← Except.ok.inj h]
      exact between_close stack _
    | key members =>
      rw [← Except.ok.inj h]
      exact ⟨rfl, rfl⟩

/-- What follows a byte within a string is part of the string together with that byte. -/
theorem StringStep.quoted {point point' : StringPoint} {stack : List Frame} {role : StringRole}
    {pieces : Literal} {u : Bytes} (h : StringStep b point point')
    (ha : Accepts care t ⟨stack, .string role point' pieces⟩ bs) (hu : Quoted (point'.opened ++ u)) :
    Quoted (point.opened ++ b :: u) := by
  cases h with
  | plain hq hb => exact .byte hq hb hu
  | backslash hb =>
    rw [hb]
    exact hu
  | escape hp =>
    rw [hp] at hu
    exact .escape hu
  | digit =>
    obtain ⟨hq, hb⟩ := ne_of_hexValue? (hexValue?_of_accepts ha b (by simp))
    exact .byte hq hb hu
  | unit hunit =>
    obtain ⟨hq, hb⟩ := ne_of_hexValue? (hexValue?_of_unitOfHex? hunit b (by simp))
    exact .byte hq hb hu

/-- **Through a string**: what is accepted from within a string begins with the rest of the string. -/
theorem accepts_string {stack : List Frame} {role : StringRole} {point : StringPoint} {pieces : Literal}
    (h : Accepts care t ⟨stack, .string role point pieces⟩ bs) :
    ∃ u rest s', bs = u ++ rest ∧ Quoted (point.opened ++ u) ∧ s'.inNumber = false ∧
      Passes care t ⟨stack, .string role point pieces⟩ u rest s' := by
  induction bs generalizing point pieces with
  | nil => simp [Accepts, State.finish] at h
  | cons b bs ih =>
    obtain ⟨s₁, hstep, hrest⟩ := h
    rcases step_string_cases hstep with ⟨rfl, rfl, l, hclose⟩ | ⟨point', pieces', rfl, hgo⟩
    · obtain ⟨hs₁, hn⟩ := between_closeString hclose
      exact ⟨[0x22], bs, s₁, rfl, .close, hn, hs₁, hrest, fun rest' ha => ⟨s₁, hstep, ha⟩⟩
    · obtain ⟨u, rest, s', rfl, hu, hn, hp⟩ := ih hrest
      exact ⟨b :: u, rest, s', rfl, hgo.quoted hrest hu, hn, hp.cons hstep⟩

/-! ## Cutting -/

theorem openValue_opens {stack : List Frame} (h : openValue care stack b = .ok s') :
    (isMark b = true ∧ s'.between = true ∧ s'.inNumber = false) ∨
    (b = 0x22 ∧ s' = ⟨stack, .string .value .plain []⟩) ∨ isWordByte b = true := by
  by_cases hw : isWordByte b = true
  · exact Or.inr (Or.inr hw)
  · have hdigit : Digit.ofByte? b = none := digit_ofByte?_eq_none (by simpa using hw)
    have hne : ∀ c, isWordByte c = true → b ≠ c := fun c hc heq => hw (heq ▸ hc)
    simp only [openValue, hdigit, hne 0x2D rfl, hne 0x74 rfl, hne 0x66 rfl, hne 0x6E rfl, beq_iff_eq, if_false]
      at h
    by_cases hq : b = 0x22
    · rw [if_pos hq] at h
      exact Or.inr (Or.inl ⟨hq, (Except.ok.inj h).symm⟩)
    · rw [if_neg hq] at h
      left
      split at h
      · rename_i hb
        split at h
        · rw [← Except.ok.inj h, hb]
          exact ⟨rfl, rfl, rfl⟩
        · simp at h
      · split at h
        · rename_i hb
          split at h
          · rw [← Except.ok.inj h, hb]
            exact ⟨rfl, rfl, rfl⟩
          · simp at h
        · simp at h

theorem afterValue_opens {stack : List Frame} {mode : Mode} (hspace : isSpace b = false)
    (h : afterValue stack mode b = .ok s') : isMark b = true ∧ s'.between = true ∧ s'.inNumber = false := by
  simp only [afterValue, hspace, Bool.false_eq_true, if_false] at h
  split at h
  · split at h
    · rename_i hb
      rw [← Except.ok.inj h, beq_iff_eq.mp hb]
      exact ⟨rfl, rfl, rfl⟩
    · split at h
      · rename_i hb
        rw [← Except.ok.inj h, beq_iff_eq.mp hb]
        exact ⟨rfl, between_close _ _⟩
      · simp at h
  · split at h
    · rename_i hb
      rw [← Except.ok.inj h, beq_iff_eq.mp hb]
      exact ⟨rfl, rfl, rfl⟩
    · split at h
      · rename_i hb
        rw [← Except.ok.inj h, beq_iff_eq.mp hb]
        exact ⟨rfl, between_close _ _⟩
      · simp at h
  · simp at h

/-- **What may stand between tokens**: a mark, the quote of a string, or the first byte of a word. -/
theorem step_opens (hs : s.between = true) (hn : s.inNumber = false) (hspace : isSpace b = false)
    (h : s.step care b = .ok s') :
    (isMark b = true ∧ s'.between = true ∧ s'.inNumber = false) ∨
    (b = 0x22 ∧ ∃ stack role, s' = ⟨stack, .string role .plain []⟩) ∨ isWordByte b = true := by
  have hvalue : ∀ {stack}, openValue care stack b = .ok s' →
      (isMark b = true ∧ s'.between = true ∧ s'.inNumber = false) ∨
      (b = 0x22 ∧ ∃ stack role, s' = ⟨stack, .string role .plain []⟩) ∨ isWordByte b = true := by
    intro stack hopen
    rcases openValue_opens hopen with hmark | ⟨hq, rfl⟩ | hw
    · exact Or.inl hmark
    · exact Or.inr (Or.inl ⟨hq, _, _, rfl⟩)
    · exact Or.inr (Or.inr hw)
  obtain ⟨stack, mode⟩ := s
  cases mode with
  | value =>
    simp only [State.step, hspace, Bool.false_eq_true, if_false] at h
    exact hvalue h
  | firstItem =>
    simp only [State.step, hspace, Bool.false_eq_true, if_false] at h
    split at h
    · rename_i hb
      rw [← Except.ok.inj h, beq_iff_eq.mp hb]
      exact Or.inl ⟨rfl, between_close _ _⟩
    · exact hvalue h
  | firstKey =>
    simp only [State.step, hspace, Bool.false_eq_true, if_false] at h
    split at h
    · rename_i hb
      rw [← Except.ok.inj h, beq_iff_eq.mp hb]
      exact Or.inl ⟨rfl, between_close _ _⟩
    · split at h
      · rename_i hb
        exact Or.inr (Or.inl ⟨beq_iff_eq.mp hb, _, _, (Except.ok.inj h).symm⟩)
      · simp at h
  | nextKey members =>
    simp only [State.step, hspace, Bool.false_eq_true, if_false] at h
    split at h
    · rename_i hb
      exact Or.inr (Or.inl ⟨beq_iff_eq.mp hb, _, _, (Except.ok.inj h).symm⟩)
    · simp at h
  | colon members key =>
    simp only [State.step, hspace, Bool.false_eq_true, if_false] at h
    split at h
    · rename_i hb
      rw [← Except.ok.inj h, beq_iff_eq.mp hb]
      exact Or.inl ⟨rfl, rfl, rfl⟩
    · simp at h
  | afterItem | afterMember | done => exact Or.inl (afterValue_opens hspace h)
  | number => simp [State.inNumber] at hn
  | word | string => simp [State.between] at hs

/-- **Through a token**: the reader comes to a state between tokens again, and has left a word unless
    another byte of it could follow. -/
theorem Token.accepts (htok : Token tok) (hapart : Apart tok rest) (hs : s.between = true)
    (hn : s.inNumber = false) (h : Accepts care t s (tok ++ rest)) :
    ∃ s', Passes care t s tok rest s' ∧ (s'.inNumber = true → ∀ c ∈ rest.head?, isWordByte c = false) := by
  cases htok with
  | @mark b hb =>
    obtain ⟨s', hstep, hrest⟩ := h
    have hpass : s'.between = true ∧ s'.inNumber = false := by
      rcases step_opens hs hn (not_isSpace_of_isMark hb) hstep with ⟨-, hs'⟩ | ⟨rfl, -⟩ | hw
      · exact hs'
      · exact absurd hb (by decide)
      · exact absurd (hw.symm.trans (not_isWordByte_of_isMark hb)) (by simp)
    exact ⟨s', ⟨hpass.1, hrest, fun rest' ha => ⟨s', hstep, ha⟩⟩, by simp [hpass.2]⟩
  | @word b w hw =>
    obtain ⟨s₁, hstep, hrest⟩ := h
    have hend : ∀ c ∈ rest.head?, isWordByte c = false := by
      intro c hc
      have hlast := List.getLast?_eq_some_getLast (List.cons_ne_nil b w)
      exact hapart _ hlast c hc (hw _ (List.getLast_mem _))
    have hin : s₁.inWord := inWord_of_step hs hn (hw b List.mem_cons_self) hstep
    obtain ⟨s', hp⟩ := accepts_word (fun c hc => hw c (List.mem_cons_of_mem b hc)) hin hend hrest
    exact ⟨s', hp.cons hstep, fun _ => hend⟩
  | @string bs hq =>
    obtain ⟨s₁, hstep, hrest⟩ := h
    rcases step_opens hs hn rfl hstep with ⟨hb, -⟩ | ⟨-, stack, role, rfl⟩ | hb
    · exact absurd hb (by decide)
    · obtain ⟨u, rest', s', hcut, hu, hn', hp⟩ := accepts_string hrest
      obtain ⟨rfl, rfl⟩ := hq.append_inj hu hcut
      exact ⟨s', hp.cons hstep, by simp [hn']⟩
    · exact absurd hb (by decide)

/-- **A token comes next** in what is accepted between tokens, unless a blank does. -/
theorem exists_token (hs : s.between = true) (hn : s.inNumber = false) (hspace : isSpace b = false)
    (h : Accepts care t s (b :: bs)) : ∃ tok rest, b :: bs = tok ++ rest ∧ Token tok ∧ Apart tok rest := by
  obtain ⟨s₁, hstep, hrest⟩ := h
  rcases step_opens hs hn hspace hstep with ⟨hb, -⟩ | ⟨rfl, stack, role, rfl⟩ | hb
  · exact ⟨[b], bs, rfl, .mark hb, apart_mark hb⟩
  · obtain ⟨u, rest, s', rfl, hu, -, -⟩ := accepts_string hrest
    have hquoted : Quoted u := hu
    exact ⟨0x22 :: u, rest, rfl, .string hquoted, hquoted.apart⟩
  · -- a word goes on as far as there are word bytes
    refine ⟨b :: bs.takeWhile isWordByte, bs.dropWhile isWordByte, ?_, .word ?_, ?_⟩
    · rw [List.cons_append, List.takeWhile_append_dropWhile]
    · intro c hc
      rcases List.mem_cons.mp hc with rfl | hc
      · exact hb
      · exact List.mem_takeWhile_imp hc
    · refine apart_of_head ?_
      intro c hc
      cases hdrop : bs.dropWhile isWordByte with
      | nil => simp [hdrop] at hc
      | cons d rest =>
        have hd := List.head?_dropWhile_not isWordByte bs
        simp only [hdrop, List.head?_cons] at hd hc
        rw [← Option.some.inj hc]
        simpa using hd

/-! ## Behind a comma -/

/-- White space: the space, and the controls from the tab to the carriage return. -/
def isWhite (c : UInt8) : Bool := c == 0x20 || (0x09 ≤ c && c ≤ 0x0D)

/-- The byte that comes next, white space aside. -/
def next? (bs : Bytes) : Option UInt8 := (bs.dropWhile isWhite).head?

theorem isWhite_of_isSpace (h : isSpace c = true) : isWhite c = true := by
  rcases isSpace_cases h with rfl | rfl | rfl | rfl <;> rfl

/-- White space that is no blank of the grammar: two controls. -/
theorem isWhite_cases (h : isWhite c = true) : isSpace c = true ∨ c = 0x0B ∨ c = 0x0C := by
  have hc : c = 0x20 ∨ c = 0x09 ∨ c = 0x0A ∨ c = 0x0B ∨ c = 0x0C ∨ c = 0x0D := by
    unfold isWhite at h
    grind
  rcases hc with rfl | rfl | rfl | rfl | rfl | rfl <;> simp [isSpace]

theorem next?_white (hc : isWhite c = true) : next? (c :: rest) = next? rest := by
  unfold next?
  rw [List.dropWhile_cons_of_pos hc]

theorem next?_cons (hc : isWhite c = false) : next? (c :: rest) = some c := by
  unfold next?
  rw [List.dropWhile_cons_of_neg (by simp [hc])]
  rfl

theorem next?_append (hw : ∀ c ∈ w, isWhite c = true) : next? (w ++ rest) = next? rest := by
  unfold next?
  rw [List.dropWhile_append_of_pos hw]

/-- Behind a comma, a value or a key is asked for. -/
theorem step_comma (hs : s.between = true) (hn : s.inNumber = false) (h : s.step care 0x2C = .ok s') :
    s'.mode = .value ∨ ∃ members, s'.mode = .nextKey members := by
  obtain ⟨stack, mode⟩ := s
  cases mode with
  | afterItem items =>
    simp [State.step, afterValue, isSpace] at h
    simp [← h]
  | afterMember members =>
    simp [State.step, afterValue, isSpace] at h
    simp [← h]
  | number => simp [State.inNumber] at hn
  | word | string => simp [State.between] at hs
  | _ => simp [State.step, afterValue, isSpace, openValue, Digit.ofByte?] at h

/-- Where a value or a key is asked for, no mark that ends something is taken, and of white space only
    blanks. -/
theorem step_asked {stack : List Frame} {mode : Mode}
    (hmode : mode = .value ∨ ∃ members, mode = .nextKey members)
    (hb : isWhite b = true ∨ b = 0x5D ∨ b = 0x2C ∨ b = 0x7D) (h : State.step care ⟨stack, mode⟩ b = .ok s') :
    isSpace b = true ∧ s' = ⟨stack, mode⟩ := by
  cases hspace : isSpace b with
  | true =>
    refine ⟨rfl, ?_⟩
    rcases hmode with rfl | ⟨members, rfl⟩
    · simpa [State.step, hspace] using h.symm
    · simpa [State.step, hspace] using h.symm
  | false =>
    -- what is left are two controls and three marks
    have hcases : b = 0x0B ∨ b = 0x0C ∨ b = 0x5D ∨ b = 0x2C ∨ b = 0x7D := by
      rcases hb with hwhite | hb
      · rcases isWhite_cases hwhite with hblank | rfl | rfl
        · exact absurd (hspace.symm.trans hblank) (by simp)
        · exact Or.inl rfl
        · exact Or.inr (Or.inl rfl)
      · exact Or.inr (Or.inr hb)
    rcases hcases with rfl | rfl | rfl | rfl | rfl <;> rcases hmode with rfl | ⟨members, rfl⟩ <;>
      simp [State.step, isSpace, openValue, Digit.ofByte?] at h

/-- **No mark that ends something follows a comma**, nor does the end of the text, whatever white space
    stands between them. -/
theorem not_accepts_behind_comma (hs : s.between = true) (hn : s.inNumber = false)
    (hnext : ∀ c ∈ next? bs, c = 0x5D ∨ c = 0x2C ∨ c = 0x7D) : ¬ Accepts care t s (0x2C :: bs) := by
  rintro ⟨⟨stack, mode⟩, hstep, hrest⟩
  have hmode : mode = .value ∨ ∃ members, mode = .nextKey members := step_comma hs hn hstep
  clear hstep
  induction bs with
  | nil => rcases hmode with rfl | ⟨members, rfl⟩ <;> simp [Accepts, State.finish] at hrest
  | cons b bs ih =>
    obtain ⟨s', hb, hrest⟩ := hrest
    cases hwhite : isWhite b with
    | true =>
      obtain ⟨-, rfl⟩ := step_asked hmode (Or.inl hwhite) hb
      rw [next?_white hwhite] at hnext
      exact ih hnext hrest
    | false =>
      have hmark := hnext b (next?_cons hwhite)
      obtain ⟨hspace, -⟩ := step_asked hmode (Or.inr hmark) hb
      exact absurd (hwhite.symm.trans (isWhite_of_isSpace hspace)) (by simp)

end SharedPorts.Json
