import SharedPorts.Text.Utf8

/-!
# `SharedPorts.Proofs.Text.Utf8` — texts through bytes and back

Decoding the bytes of a text gives the text again. Character by character this is a matter of ranges: the
bytes that a character is encoded in pass all that decoding asks, and carry all bits of the character.

## Contents
- **One character.** The first byte and the tail bytes of an encoded character, and `decodeFrom_encodeChar`.
- **Whole texts.** `decode?_encode`.
- **Byte strings that are texts.** `IsText`, closed under putting texts behind each other.
-/

namespace SharedPorts.Utf8

variable {n m : Nat} {c : Char} {bs cs : Bytes}

/-! ## One character -/

theorem toNat_ofNat (h : n < 256) : (UInt8.ofNat n).toNat = n := by
  rw [UInt8.toNat_ofNat']
  exact Nat.mod_eq_of_lt h

theorem ofLead_one (h : n ≤ 0x7F) : Width.ofLead (UInt8.ofNat n) = some .one := by
  have hlow : UInt8.ofNat n < 0x80 := by
    rw [UInt8.lt_iff_toNat_lt, toNat_ofNat (by omega)]
    exact Nat.lt_succ_of_le h
  unfold Width.ofLead
  rw [if_pos hlow]

theorem ofLead_two : ∀ n < 0x20, 2 ≤ n → Width.ofLead (UInt8.ofNat (n + 0xC0)) = some .two := by decide

theorem ofLead_three : ∀ n < 0x10, Width.ofLead (UInt8.ofNat (n + 0xE0)) = some .three := by decide

theorem ofLead_four : ∀ n < 5, Width.ofLead (UInt8.ofNat (n + 0xF0)) = some .four := by decide

theorem isTail_ofNat : ∀ n < 0x40, isTail (UInt8.ofNat (n + 0x80)) = true := by decide

theorem tailBits_ofNat : ∀ n < 0x40, tailBits (UInt8.ofNat (n + 0x80)) = n := by decide

/-- Only four first bytes ask more of a second byte than to be a tail. -/
theorem secondFits_ofNat (hm : m < 256) (hn : n < 0x40) (h₀ : m = 0xE0 → 0x20 ≤ n) (h₁ : m = 0xED → n < 0x20)
    (h₂ : m = 0xF0 → 0x10 ≤ n) (h₃ : m = 0xF4 → n < 0x10) :
    secondFits (UInt8.ofNat m) (UInt8.ofNat (n + 0x80)) = true := by
  have hb : (UInt8.ofNat (n + 0x80)).toNat = n + 0x80 := toNat_ofNat (by omega)
  have hguard : ∀ {x : UInt8} {fits : Bool}, (m = x.toNat → fits = false) →
      (UInt8.ofNat m == x && fits) = false := by
    intro x fits hx
    by_cases ha : UInt8.ofNat m = x
    · have hlead : m = x.toNat := by rw [← ha, toNat_ofNat hm]
      rw [hx hlead, Bool.and_false]
    · rw [beq_false_of_ne ha, Bool.false_and]
  unfold secondFits
  rw [isTail_ofNat n hn, hguard, hguard, hguard, hguard]
  · rfl
  · intro ha
    rw [decide_eq_false_iff_not, UInt8.le_iff_toNat_le, hb]
    have hlow := h₃ ha
    exact Nat.not_le_of_lt (Nat.add_lt_add_right hlow 0x80)
  · intro ha
    rw [decide_eq_false_iff_not, UInt8.lt_iff_toNat_lt, hb]
    have hhigh := h₂ ha
    exact Nat.not_lt_of_le (Nat.add_le_add_right hhigh 0x80)
  · intro ha
    rw [decide_eq_false_iff_not, UInt8.le_iff_toNat_le, hb]
    have hlow := h₁ ha
    exact Nat.not_le_of_lt (Nat.add_lt_add_right hlow 0x80)
  · intro ha
    rw [decide_eq_false_iff_not, UInt8.lt_iff_toNat_lt, hb]
    have hhigh := h₀ ha
    exact Nat.not_lt_of_le (Nat.add_le_add_right hhigh 0x80)

/-! A character is taken off by its width. -/

section

variable {index : Nat} {a b d : UInt8} {rest : Bytes}

theorem decodeFrom_one (h : Width.ofLead a = some .one) :
    decodeFrom index (a :: rest) = (Char.ofNat a.toNat :: ·) <$> decodeFrom (index + 1) rest := by
  rw [decodeFrom.eq_def]
  dsimp only
  rw [h]

theorem decodeFrom_two (h : Width.ofLead a = some .two) (hb : secondFits a b = true) :
    decodeFrom index (a :: b :: rest) =
      (Char.ofNat (a.toNat % 32 * 64 + tailBits b) :: ·) <$> decodeFrom (index + 2) rest := by
  rw [decodeFrom.eq_def]
  dsimp only
  rw [h]
  dsimp only
  rw [if_pos hb]

theorem decodeFrom_three {e : UInt8} (h : Width.ofLead a = some .three) (hb : secondFits a b = true)
    (he : isTail e = true) :
    decodeFrom index (a :: b :: e :: rest) =
      (Char.ofNat ((a.toNat % 16 * 64 + tailBits b) * 64 + tailBits e) :: ·) <$>
        decodeFrom (index + 3) rest := by
  rw [decodeFrom.eq_def]
  dsimp only
  rw [h]
  dsimp only
  rw [if_pos hb, if_pos he]

theorem decodeFrom_four {e : UInt8} (h : Width.ofLead a = some .four) (hb : secondFits a b = true)
    (he : isTail e = true) (hd : isTail d = true) :
    decodeFrom index (a :: b :: e :: d :: rest) =
      (Char.ofNat (((a.toNat % 8 * 64 + tailBits b) * 64 + tailBits e) * 64 + tailBits d) :: ·) <$>
        decodeFrom (index + 4) rest := by
  rw [decodeFrom.eq_def]
  dsimp only
  rw [h]
  dsimp only
  rw [if_pos hb, if_pos he, if_pos hd]

end

/-- **The bytes of a character** are taken as that character, whatever follows them. -/
theorem decodeFrom_encodeChar (c : Char) (index : Nat) (rest : Bytes) :
    decodeFrom index (String.utf8EncodeChar c ++ rest) =
      (c :: ·) <$> decodeFrom (index + (String.utf8EncodeChar c).length) rest := by
  have hvalid := c.valid
  have hc : Char.ofNat c.val.toNat = c := Char.ofNat_toNat c
  unfold String.utf8EncodeChar
  generalize hv : c.val.toNat = v at hc ⊢
  have hrange : v < 0xD800 ∨ (0xDFFF < v ∧ v < 0x110000) := by
    rw [← hv]
    exact hvalid
  dsimp only
  by_cases h₁ : v ≤ 0x7F
  · rw [if_pos h₁, List.cons_append, List.nil_append, decodeFrom_one (ofLead_one h₁), toNat_ofNat (by omega), hc]
    rfl
  by_cases h₂ : v ≤ 0x7FF
  · have hsecond : secondFits (UInt8.ofNat (v / 64 % 0x20 + 0xC0)) (UInt8.ofNat (v % 0x40 + 0x80)) = true :=
      secondFits_ofNat (by omega) (by omega) (by omega) (by omega) (by omega) (by omega)
    rw [if_neg h₁, if_pos h₂, List.cons_append, List.cons_append, List.nil_append,
      decodeFrom_two (ofLead_two _ (by omega) (by omega)) hsecond, toNat_ofNat (by omega),
      tailBits_ofNat _ (by omega), show (v / 64 % 0x20 + 0xC0) % 32 * 64 + v % 0x40 = v by omega, hc]
    rfl
  by_cases h₃ : v ≤ 0xFFFF
  · have hsecond : secondFits (UInt8.ofNat (v / 4096 % 0x10 + 0xE0)) (UInt8.ofNat (v / 64 % 0x40 + 0x80)) = true :=
      secondFits_ofNat (by omega) (by omega) (by omega) (by omega) (by omega) (by omega)
    rw [if_neg h₁, if_neg h₂, if_pos h₃, List.cons_append, List.cons_append, List.cons_append, List.nil_append,
      decodeFrom_three (ofLead_three _ (by omega)) hsecond (isTail_ofNat _ (by omega)), toNat_ofNat (by omega),
      tailBits_ofNat _ (by omega), tailBits_ofNat _ (by omega),
      show ((v / 4096 % 0x10 + 0xE0) % 16 * 64 + v / 64 % 0x40) * 64 + v % 0x40 = v by omega, hc]
    rfl
  · have hsecond : secondFits (UInt8.ofNat (v / 262144 % 0x08 + 0xF0))
        (UInt8.ofNat (v / 4096 % 0x40 + 0x80)) = true :=
      secondFits_ofNat (by omega) (by omega) (by omega) (by omega) (by omega) (by omega)
    rw [if_neg h₁, if_neg h₂, if_neg h₃, List.cons_append, List.cons_append, List.cons_append, List.cons_append,
      List.nil_append, decodeFrom_four (ofLead_four _ (by omega)) hsecond (isTail_ofNat _ (by omega))
        (isTail_ofNat _ (by omega)), toNat_ofNat (by omega), tailBits_ofNat _ (by omega),
      tailBits_ofNat _ (by omega), tailBits_ofNat _ (by omega),
      show (((v / 262144 % 0x08 + 0xF0) % 8 * 64 + v / 4096 % 0x40) * 64 + v / 64 % 0x40) * 64 + v % 0x40 = v by
        omega, hc]
    rfl

/-- An ASCII character is one byte. -/
theorem encodeChar_ascii (h : c.toNat ≤ 0x7F) : String.utf8EncodeChar c = [UInt8.ofNat c.toNat] := by
  have hval : c.val.toNat ≤ 0x7F := h
  unfold String.utf8EncodeChar
  dsimp only
  rw [if_pos hval]
  rfl

/-- All other characters are made of bytes that are not ASCII. -/
theorem le_of_mem_encodeChar (h : 0x7F < c.toNat) : ∀ b ∈ String.utf8EncodeChar c, 0x80 ≤ b.toNat := by
  have hbyte : ∀ n m : Nat, n + m < 256 → 0x80 ≤ m → 0x80 ≤ (UInt8.ofNat (n + m)).toNat := by
    intro n m hn hm
    rw [toNat_ofNat hn]
    omega
  have hval : ¬ c.val.toNat ≤ 0x7F := Nat.not_le_of_lt h
  unfold String.utf8EncodeChar
  dsimp only
  rw [if_neg hval]
  split
  · simp only [List.forall_mem_cons, List.not_mem_nil, false_implies, implies_true, and_true]
    exact ⟨hbyte _ _ (by omega) (by omega), hbyte _ _ (by omega) (by omega)⟩
  · split
    · simp only [List.forall_mem_cons, List.not_mem_nil, false_implies, implies_true, and_true]
      exact ⟨hbyte _ _ (by omega) (by omega), hbyte _ _ (by omega) (by omega), hbyte _ _ (by omega) (by omega)⟩
    · simp only [List.forall_mem_cons, List.not_mem_nil, false_implies, implies_true, and_true]
      exact ⟨hbyte _ _ (by omega) (by omega), hbyte _ _ (by omega) (by omega), hbyte _ _ (by omega) (by omega),
        hbyte _ _ (by omega) (by omega)⟩

/-! ## Whole texts -/

theorem decodeFrom_flatMap (text : List Char) (index : Nat) :
    decodeFrom index (text.flatMap String.utf8EncodeChar) = .ok text := by
  induction text generalizing index with
  | nil => rfl
  | cons c text ih =>
    rw [List.flatMap_cons, decodeFrom_encodeChar, ih]
    rfl

theorem decode?_flatMap (text : List Char) :
    decode? (text.flatMap String.utf8EncodeChar) = some (String.ofList text) := by
  unfold decode? decode
  rw [decodeFrom_flatMap]
  rfl

/-- **Decoding the bytes of a text** gives the text. -/
theorem decode?_encode (s : String) : decode? (encode s) = some s := by
  unfold encode
  rw [decode?_flatMap, String.ofList_toList]

/-! ## Byte strings that are texts -/

/-- A byte string holds a text. -/
def IsText (bs : Bytes) : Prop := ∃ text : List Char, bs = text.flatMap String.utf8EncodeChar

theorem isText_nil : IsText [] := ⟨[], rfl⟩

theorem isText_encodeChar (c : Char) : IsText (String.utf8EncodeChar c) := by
  refine ⟨[c], ?_⟩
  rw [List.flatMap_cons, List.flatMap_nil, List.append_nil]

theorem IsText.append (h : IsText bs) (h' : IsText cs) : IsText (bs ++ cs) := by
  obtain ⟨text, rfl⟩ := h
  obtain ⟨text', rfl⟩ := h'
  exact ⟨text ++ text', List.flatMap_append.symm⟩

/-- An ASCII byte is a character by itself. -/
theorem isText_byte {b : UInt8} (h : b < 0x80) : IsText [b] := by
  have hb : b.toNat < 0x80 := UInt8.lt_iff_toNat_lt.mp h
  have hval : (Char.ofNat b.toNat).val.toNat = b.toNat := by
    unfold Char.ofNat
    rw [dif_pos (Or.inl (by omega))]
    rfl
  refine ⟨[Char.ofNat b.toNat], ?_⟩
  rw [List.flatMap_cons, List.flatMap_nil, List.append_nil]
  unfold String.utf8EncodeChar
  dsimp only
  rw [hval, if_pos (by omega), UInt8.ofNat_toNat]

theorem IsText.cons {b : UInt8} (hb : b < 0x80) (h : IsText bs) : IsText (b :: bs) :=
  (isText_byte hb).append h

theorem IsText.flatMap {α : Type} {f : α → Bytes} {xs : List α} (h : ∀ x ∈ xs, IsText (f x)) :
    IsText (xs.flatMap f) := by
  induction xs with
  | nil => exact isText_nil
  | cons x xs ih =>
    rw [List.flatMap_cons]
    exact (h x List.mem_cons_self).append (ih (fun y hy => h y (List.mem_cons_of_mem x hy)))

theorem IsText.isSome_decode? (h : IsText bs) : (decode? bs).isSome = true := by
  obtain ⟨text, rfl⟩ := h
  rw [decode?_flatMap, Option.isSome_some]

end SharedPorts.Utf8
