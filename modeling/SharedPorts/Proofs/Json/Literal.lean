import SharedPorts.Json.Literal
import SharedPorts.Proofs.Text.Utf8

/-!
# `SharedPorts.Proofs.Json.Literal` — texts through string literals and back

The literal that is written for a text denotes that text. It holds no byte that would end the string or
begin an escape, and its bytes are a text again.

## Contents
- **Characters.** `Literal.ofChar` by the way it writes a character, `ofChar_cases`.
- **Meaning.** `Literal.text?_ofString` and `Literal.plain?_ofString`.
- **Bytes.** `Literal.Spells`, the ways to write a literal; `Literal.spells_render`, the one that is
  written for a text, and `Literal.isText_render`.
-/

namespace SharedPorts.Json

variable {c : Char} {rest : Literal}

/-! ## Characters -/

/-- A character that stands for itself in a string. -/
def StandsForItself (c : Char) : Prop := 0x20 ≤ c.toNat ∧ c.toNat ≠ 0x22 ∧ c.toNat ≠ 0x5C

/-- **The three ways of writing a character**: by an escape of one letter or sign, by the digits of a
    control, or by its own bytes. -/
theorem Literal.ofChar_cases (c : Char) :
    (∃ e : Escape, e ≠ .slash ∧ e.value.toNat = c.toNat ∧ Literal.ofChar c = [.escape e]) ∨
    (c.toNat < 0x20 ∧ Literal.ofChar c = [.unit (UInt16.ofNat c.toNat)]) ∨
    (StandsForItself c ∧ Literal.ofChar c = (String.utf8EncodeChar c).map .byte) := by
  unfold Literal.ofChar
  cases hfind : Escape.all.find? fun e => e != .slash && e.value.toNat == c.toNat with
  | some e =>
    have he := List.find?_some hfind
    rw [Bool.and_eq_true, beq_iff_eq, bne_iff_ne] at he
    exact Or.inl ⟨e, he.1, he.2, rfl⟩
  | none =>
    right
    by_cases hc : c.toNat < 0x20
    · exact Or.inl ⟨hc, if_pos hc⟩
    · right
      have hnot : ∀ e ∈ Escape.all, e ≠ .slash → e.value.toNat ≠ c.toNat := by
        intro e he hslash heq
        have hfalse := List.find?_eq_none.mp hfind e he
        simp [hslash, heq] at hfalse
      refine ⟨⟨Nat.le_of_not_lt hc, ?_, ?_⟩, if_neg hc⟩
      · exact Ne.symm (hnot .quote (by decide) (by decide))
      · exact Ne.symm (hnot .backslash (by decide) (by decide))

theorem Literal.ofChar_of_standsForItself (h : StandsForItself c) :
    Literal.ofChar c = (String.utf8EncodeChar c).map .byte := by
  rcases Literal.ofChar_cases c with ⟨e, hslash, he, -⟩ | ⟨hc, -⟩ | ⟨-, heq⟩
  · obtain ⟨hlow, hquote, hbackslash⟩ := h
    rw [← he] at hlow hquote hbackslash
    cases e with
    | quote => exact absurd rfl hquote
    | backslash => exact absurd rfl hbackslash
    | slash => exact absurd rfl hslash
    | backspace | formFeed | lineFeed | carriageReturn | tab => exact absurd hlow (by decide)
  · exact absurd h.1 (Nat.not_le_of_lt hc)
  · exact heq

/-! ## Meaning -/

theorem Literal.bytes?_map_byte (bs : Bytes) (rest : Literal) :
    Literal.bytes? (bs.map .byte ++ rest) = (bs ++ ·) <$> Literal.bytes? rest := by
  induction bs with
  | nil =>
    show Literal.bytes? rest = _
    cases Literal.bytes? rest <;> rfl
  | cons b bs ih =>
    show (b :: ·) <$> Literal.bytes? (bs.map .byte ++ rest) = _
    rw [ih]
    cases Literal.bytes? rest <;> rfl

/-- A control is no half of a pair. -/
theorem not_isHalf_of_lt {u : UInt16} (h : u.toNat < 0x20) : isHighHalf u = false ∧ isLowHalf u = false := by
  unfold isHighHalf isLowHalf
  have hhigh : ¬ (0xD800 : UInt16) ≤ u := by
    rw [UInt16.le_iff_toNat_le]
    exact Nat.not_le_of_lt (Nat.lt_trans h (by decide))
  have hlow : ¬ (0xDC00 : UInt16) ≤ u := by
    rw [UInt16.le_iff_toNat_le]
    exact Nat.not_le_of_lt (Nat.lt_trans h (by decide))
  rw [decide_eq_false hhigh, decide_eq_false hlow]
  exact ⟨rfl, rfl⟩

theorem Literal.bytes?_ofChar (c : Char) (rest : Literal) :
    Literal.bytes? (Literal.ofChar c ++ rest) = (String.utf8EncodeChar c ++ ·) <$> Literal.bytes? rest := by
  rcases Literal.ofChar_cases c with ⟨e, -, he, heq⟩ | ⟨hc, heq⟩ | ⟨-, heq⟩
  · have hascii : c.toNat ≤ 0x7F := by
      rw [← he]
      cases e <;> decide
    have hbyte : UInt8.ofNat c.toNat = e.value := by rw [← he, UInt8.ofNat_toNat]
    rw [heq, Utf8.encodeChar_ascii hascii, hbyte]
    rfl
  · have hu : (UInt16.ofNat c.toNat).toNat = c.toNat := by
      rw [UInt16.toNat_ofNat']
      exact Nat.mod_eq_of_lt (by omega)
    have hlt : (UInt16.ofNat c.toNat).toNat < 0x20 := by omega
    obtain ⟨hhigh, hlow⟩ := not_isHalf_of_lt hlt
    rw [heq, List.singleton_append, Literal.bytes?.eq_def]
    dsimp only
    rw [hhigh, hlow, hu, Char.ofNat_toNat]
    rfl
  · rw [heq, Literal.bytes?_map_byte]

theorem Literal.bytes?_flatMap (text : List Char) :
    Literal.bytes? (text.flatMap Literal.ofChar) = some (text.flatMap String.utf8EncodeChar) := by
  induction text with
  | nil => rfl
  | cons c text ih =>
    rw [List.flatMap_cons, Literal.bytes?_ofChar, ih]
    rfl

/-- **The literal of a text** denotes the text. -/
theorem Literal.text?_ofString (s : String) : (Literal.ofString s).text? = some s := by
  unfold Literal.text? Literal.ofString
  rw [Literal.bytes?_flatMap]
  exact Utf8.decode?_encode s

theorem Literal.plain?_map_byte (bs : Bytes) (rest : Literal) :
    Literal.plain? (bs.map .byte ++ rest) = (bs ++ ·) <$> Literal.plain? rest := by
  induction bs with
  | nil =>
    show Literal.plain? rest = _
    cases Literal.plain? rest <;> rfl
  | cons b bs ih =>
    show (b :: ·) <$> Literal.plain? (bs.map .byte ++ rest) = _
    rw [ih]
    cases Literal.plain? rest <;> rfl

theorem Literal.plain?_flatMap {text : List Char} (h : ∀ c ∈ text, StandsForItself c) :
    Literal.plain? (text.flatMap Literal.ofChar) = some (text.flatMap String.utf8EncodeChar) := by
  induction text with
  | nil => rfl
  | cons c text ih =>
    rw [List.flatMap_cons, Literal.ofChar_of_standsForItself (h c List.mem_cons_self),
      Literal.plain?_map_byte, ih (fun d hd => h d (List.mem_cons_of_mem c hd))]
    rfl

/-- A text whose characters stand for themselves is written without escapes. -/
theorem Literal.plain?_ofString {s : String} (h : ∀ c ∈ s.toList, StandsForItself c) :
    (Literal.ofString s).plain? = some (Utf8.encode s) :=
  Literal.plain?_flatMap h

/-! ## Bytes -/

/-- **A piece** and the bytes that write it. A byte may not end the string, begin an escape or be a
    control. -/
inductive Piece.Spells : Piece → Bytes → Prop
  | byte {b : UInt8} (hlow : 0x20 ≤ b) (hquote : b ≠ 0x22) (hbackslash : b ≠ 0x5C) : Spells (.byte b) [b]
  | escape (e : Escape) : Spells (.escape e) [0x5C, e.mark]
  | unit {u : UInt16} {digits : Bytes} (h : unitOfHex? digits = some u) :
      Spells (.unit u) (0x5C :: 0x75 :: digits)

/-- **A literal** and the bytes that write it between its quotes. -/
inductive Literal.Spells : Literal → Bytes → Prop
  | nil : Spells [] []
  | cons {p : Piece} {l : Literal} {u v : Bytes} (hp : p.Spells u) (hl : Spells l v) :
      Spells (p :: l) (u ++ v)

theorem hexValue?_hexByte : ∀ n < 16, hexValue? (hexByte n) = some n := by decide

/-- The digits of a unit write the unit. -/
theorem unitOfHex?_digits (u : UInt16) :
    unitOfHex? [hexByte (u.toNat / 4096), hexByte (u.toNat / 256 % 16), hexByte (u.toNat / 16 % 16),
      hexByte (u.toNat % 16)] = some u := by
  have hu : u.toNat < 65536 := u.toNat_lt
  have hvalue : ((u.toNat / 4096 * 16 + u.toNat / 256 % 16) * 16 + u.toNat / 16 % 16) * 16 + u.toNat % 16 =
      u.toNat := by omega
  unfold unitOfHex?
  dsimp only
  rw [hexValue?_hexByte _ (by omega), hexValue?_hexByte _ (by omega), hexValue?_hexByte _ (by omega),
    hexValue?_hexByte _ (by omega)]
  simp only [Option.bind_eq_bind, Option.bind_some, Option.pure_def, hvalue, UInt16.ofNat_toNat]

/-- A unit has four digits. -/
theorem four_of_unitOfHex? {digits : Bytes} {u : UInt16} (h : unitOfHex? digits = some u) :
    ∃ a b c d, digits = [a, b, c, d] := by
  unfold unitOfHex? at h
  split at h
  · exact ⟨_, _, _, _, rfl⟩
  · exact absurd h nofun

/-- A piece that reading takes for what it is: a byte may not end the string, begin an escape or be a
    control. -/
def Piece.Plain : Piece → Prop
  | .byte b => 0x20 ≤ b.toNat ∧ b.toNat ≠ 0x22 ∧ b.toNat ≠ 0x5C
  | .escape _ | .unit _ => True

theorem Piece.Plain.spells {p : Piece} (h : p.Plain) : p.Spells p.render := by
  cases p with
  | byte b =>
    obtain ⟨hlow, hquote, hbackslash⟩ := h
    refine .byte (UInt8.le_iff_toNat_le.mpr hlow) ?_ ?_
    · rintro rfl
      exact hquote rfl
    · rintro rfl
      exact hbackslash rfl
  | escape e => exact .escape e
  | unit u => exact .unit (unitOfHex?_digits u)

theorem Literal.spells_of_plain {l : Literal} (h : ∀ p ∈ l, p.Plain) : l.Spells (l.flatMap Piece.render) := by
  induction l with
  | nil => exact .nil
  | cons p l ih =>
    exact .cons (h p List.mem_cons_self).spells (ih (fun q hq => h q (List.mem_cons_of_mem p hq)))

theorem plain_of_mem_ofString {s : String} : ∀ p ∈ Literal.ofString s, p.Plain := by
  intro p hp
  obtain ⟨c, -, hp⟩ := List.mem_flatMap.mp hp
  rcases Literal.ofChar_cases c with ⟨e, -, -, heq⟩ | ⟨-, heq⟩ | ⟨hself, heq⟩
  · rw [heq] at hp
    rw [List.mem_singleton.mp hp]
    trivial
  · rw [heq] at hp
    rw [List.mem_singleton.mp hp]
    trivial
  · rw [heq] at hp
    obtain ⟨b, hb, rfl⟩ := List.mem_map.mp hp
    show 0x20 ≤ b.toNat ∧ b.toNat ≠ 0x22 ∧ b.toNat ≠ 0x5C
    by_cases hascii : c.toNat ≤ 0x7F
    · rw [Utf8.encodeChar_ascii hascii] at hb
      rw [List.mem_singleton.mp hb, Utf8.toNat_ofNat (by omega)]
      exact hself
    · -- no byte of a longer character is taken for a quote, a backslash or a control
      have hlarge := Utf8.le_of_mem_encodeChar (Nat.lt_of_not_le hascii) b hb
      omega

/-- **The literal of a text** is written as one of its ways. -/
theorem Literal.spells_render (s : String) :
    ∃ u, (Literal.ofString s).Spells u ∧ (Literal.ofString s).render = 0x22 :: u ++ [0x22] :=
  ⟨_, Literal.spells_of_plain plain_of_mem_ofString, rfl⟩

theorem flatMap_render_map_byte (bs : Bytes) : (bs.map Piece.byte).flatMap Piece.render = bs := by
  rw [List.flatMap_map]
  show bs.flatMap (fun b => [b]) = bs
  rw [List.flatMap_singleton']

theorem hexByte_lt : ∀ n < 16, hexByte n < 0x80 := by decide

/-- **A literal of a text** is written in bytes that are a text. -/
theorem Literal.isText_render (s : String) : Utf8.IsText (Literal.ofString s).render := by
  have hpieces : Utf8.IsText ((Literal.ofString s).flatMap Piece.render) := by
    unfold Literal.ofString
    rw [List.flatMap_assoc]
    refine Utf8.IsText.flatMap (fun c _ => ?_)
    rcases Literal.ofChar_cases c with ⟨e, -, -, heq⟩ | ⟨hc, heq⟩ | ⟨-, heq⟩
    · rw [heq]
      refine Utf8.IsText.cons (by decide) (Utf8.isText_byte ?_)
      cases e <;> decide
    · have hu : (UInt16.ofNat c.toNat).toNat < 65536 := (UInt16.ofNat c.toNat).toNat_lt
      rw [heq]
      refine Utf8.IsText.cons (by decide) (Utf8.IsText.cons (by decide) ?_)
      refine Utf8.IsText.cons (hexByte_lt _ (by omega)) (Utf8.IsText.cons (hexByte_lt _ (by omega)) ?_)
      exact Utf8.IsText.cons (hexByte_lt _ (by omega)) (Utf8.isText_byte (hexByte_lt _ (by omega)))
    · rw [heq, flatMap_render_map_byte]
      exact Utf8.isText_encodeChar c
  exact Utf8.IsText.cons (by decide) (hpieces.append (Utf8.isText_byte (by decide)))

end SharedPorts.Json
