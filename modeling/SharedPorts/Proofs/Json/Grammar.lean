import SharedPorts.Proofs.Json.Spelling

/-!
# `SharedPorts.Proofs.Json.Grammar` — documents by their grammar

The grammar builds a document from its parts: values, items with commas between them, members with keys and
colons. The reader has a stack instead. Read for shape, the two say the same: the reader finds the document
that the grammar spells, and consumes of each value as much as the grammar gives it, at any depth. That a
member is only passed over makes no difference to where the next one begins.

## Contents
- **The grammar.** `Part`, `Part.Spells` and `Tree.Spells`.
- **Between tokens.** `State.Awaits` and `State.Awaits.exists_next`, the byte that comes next, and what it may be
  in each state.
- **From text to parts.** `FindsValue`, `FindsItems`, `FindsMembers` and `finds`.
- **From parts to text.** `Part.Led` and `Part.Spells.led`.
- The main statement `read_eq_ok_iff`.
-/

namespace SharedPorts.Json

variable {t u : Tree} {stack : List Frame} {s s' : State} {bs v w rest : Bytes} {b : UInt8}
  {items ts : List Tree} {members ms : Members}

/-! ## The grammar -/

/-- A part of a document: a value, without and with blanks around it, the items of an array, a member, or
    the members of an object. -/
inductive Part
  | value (t : Tree)
  | padded (t : Tree)
  | items (ts : List Tree)
  | member (m : Literal × Tree)
  | members (ms : Members)

/-- **A part of a document** and the bytes that write it. -/
inductive Part.Spells : Part → Bytes → Prop
  | null : Spells (.value .null) [0x6E, 0x75, 0x6C, 0x6C]
  | true : Spells (.value (.bool true)) [0x74, 0x72, 0x75, 0x65]
  | false : Spells (.value (.bool false)) [0x66, 0x61, 0x6C, 0x73, 0x65]
  | number {x : Numeral} {v : Bytes} (h : x.Spells v) : Spells (.value (.number x)) v
  | string {l : Literal} {v : Bytes} (h : l.Spells v) : Spells (.value (.string l)) (0x22 :: (v ++ [0x22]))
  | emptyArray {w : Bytes} (hw : Blanks w) : Spells (.value (.array [])) (0x5B :: (w ++ [0x5D]))
  | array {ts : List Tree} {v : Bytes} (h : Spells (.items ts) v) :
      Spells (.value (.array ts)) (0x5B :: (v ++ [0x5D]))
  | emptyObject {w : Bytes} (hw : Blanks w) : Spells (.value (.object [])) (0x7B :: (w ++ [0x7D]))
  | object {ms : Members} {v : Bytes} (h : Spells (.members ms) v) :
      Spells (.value (.object ms)) (0x7B :: (v ++ [0x7D]))
  | padded {t : Tree} {w v w' : Bytes} (hw : Blanks w) (h : Spells (.value t) v) (hw' : Blanks w') :
      Spells (.padded t) (w ++ v ++ w')
  | lastItem {t : Tree} {v : Bytes} (h : Spells (.padded t) v) : Spells (.items [t]) v
  | item {t : Tree} {ts : List Tree} {v v' : Bytes} (h : Spells (.padded t) v) (hs : Spells (.items ts) v') :
      Spells (.items (t :: ts)) (v ++ 0x2C :: v')
  | member {key : Literal} {t : Tree} {w k w' v : Bytes} (hw : Blanks w) (hk : key.Spells k)
      (hw' : Blanks w') (h : Spells (.padded t) v) :
      Spells (.member (key, t)) (w ++ 0x22 :: (k ++ 0x22 :: (w' ++ 0x3A :: v)))
  | lastMember {m : Literal × Tree} {v : Bytes} (h : Spells (.member m) v) : Spells (.members [m]) v
  | nextMember {m : Literal × Tree} {ms : Members} {v v' : Bytes} (h : Spells (.member m) v)
      (hs : Spells (.members ms) v') : Spells (.members (m :: ms)) (v ++ 0x2C :: v')

/-- **A document** and the bytes that write it: its value, with blanks around it. -/
def Tree.Spells (t : Tree) (bs : Bytes) : Prop := (Part.padded t).Spells bs

/-! ## Between tokens -/

/-- Blanks between tokens, where no number has to be ended, are passed over. -/
theorem accepts_behind_blanks_iff (hw : Blanks w) (hs : s.between = true) (hn : s.inNumber = false) :
    Accepts .shape t s (w ++ rest) ↔ Accepts .shape t s rest := by
  rw [accepts_blanks_iff hw hs (fun h => absurd (hn.symm.trans h) Bool.false_ne_true),
    settle_of_not_inNumber hn]
  constructor
  · rintro ⟨s₀, hs₀, h⟩
    rw [Except.ok.inj hs₀]
    exact h
  · exact fun h => ⟨s, rfl, h⟩

/-- Any bytes begin with as many blanks as there are. -/
theorem exists_blanks (bs : Bytes) :
    ∃ w rest, bs = w ++ rest ∧ Blanks w ∧ ∀ b ∈ rest.head?, isSpace b = false := by
  induction bs with
  | nil => exact ⟨[], [], rfl, blanks_nil, by simp⟩
  | cons b bs ih =>
    cases hb : isSpace b with
    | false => exact ⟨[], b :: bs, rfl, blanks_nil, by simpa using hb⟩
    | true =>
      obtain ⟨w, rest, rfl, hw, hrest⟩ := ih
      exact ⟨b :: w, rest, rfl, hw.cons hb, hrest⟩

/-- **A token has to come**: the document cannot end here, and blanks do not matter. -/
structure State.Awaits (s : State) : Prop where
  between : s.between = true
  settled : s.inNumber = false
  unended : (s.finish .shape).isOk = false

/-- Where a token has to come, a byte comes next behind blanks. -/
theorem State.Awaits.exists_next (hs : s.Awaits) (h : Accepts .shape t s bs) :
    ∃ w b rest s', bs = w ++ b :: rest ∧ Blanks w ∧ isSpace b = false ∧ s.step .shape b = .ok s' ∧
      Accepts .shape t s' rest := by
  obtain ⟨w, rest, rfl, hw, hnext⟩ := exists_blanks bs
  rw [accepts_behind_blanks_iff hw hs.between hs.settled] at h
  cases rest with
  | nil => exact absurd (hs.unended.symm.trans (congrArg Except.isOk h)) Bool.false_ne_true
  | cons b rest =>
    obtain ⟨s', hstep, hrest⟩ := h
    exact ⟨w, b, rest, s', rfl, hw, hnext b rfl, hstep, hrest⟩

/-- Where one mark only may stand, it comes. -/
theorem State.Awaits.exists_mark (hs : s.Awaits) (mark : UInt8) (next : State)
    (hstep : ∀ b, isSpace b = false → s.step .shape b = if b == mark then .ok next else .error .here)
    (h : Accepts .shape t s bs) :
    ∃ w rest, bs = w ++ mark :: rest ∧ Blanks w ∧ Accepts .shape t next rest := by
  obtain ⟨w, b, rest, s', rfl, hw, hspace, hs', hrest⟩ := hs.exists_next h
  rw [hstep b hspace] at hs'
  rcases mark_or_else hs' with ⟨rfl, rfl⟩ | herror
  · exact ⟨w, rest, rfl, hw, hrest⟩
  · cases herror

/-- Behind an item or a member: a comma and what comes next, or the mark that closes. -/
theorem State.Awaits.exists_comma_or_mark {next closed : State} {mark : UInt8} (hs : s.Awaits)
    (hstep : ∀ b, isSpace b = false → s.step .shape b =
      if b == 0x2C then .ok next else if b == mark then .ok closed else .error .here)
    (h : Accepts .shape t s bs) :
    ∃ w rest, Blanks w ∧ ((bs = w ++ 0x2C :: rest ∧ Accepts .shape t next rest) ∨
      (bs = w ++ mark :: rest ∧ Accepts .shape t closed rest)) := by
  obtain ⟨w, b, rest, s', rfl, hw, hspace, hs', hrest⟩ := hs.exists_next h
  rw [hstep b hspace] at hs'
  rcases mark_or_else hs' with ⟨rfl, rfl⟩ | hother
  · exact ⟨w, rest, hw, Or.inl ⟨rfl, hrest⟩⟩
  rcases mark_or_else hother with ⟨rfl, rfl⟩ | herror
  · exact ⟨w, rest, hw, Or.inr ⟨rfl, hrest⟩⟩
  · cases herror

/-- Behind an opening mark: the closing one, or what comes first as any other does. -/
theorem State.Awaits.accepts_first_iff {first closed : State} {mark : UInt8} (hs : s.Awaits) (hf : first.Awaits)
    (hmark : isSpace mark = false) (hnot : (first.step .shape mark).isOk = false)
    (hstep : ∀ b, isSpace b = false → s.step .shape b =
      if b == mark then .ok closed else first.step .shape b) :
    Accepts .shape t s bs ↔
      (∃ w rest, bs = w ++ mark :: rest ∧ Blanks w ∧ Accepts .shape t closed rest) ∨ Accepts .shape t first bs := by
  constructor
  · intro h
    obtain ⟨w, b, rest, s', rfl, hw, hspace, hs', hrest⟩ := hs.exists_next h
    rw [hstep b hspace] at hs'
    rcases mark_or_else hs' with ⟨rfl, rfl⟩ | hs'
    · exact Or.inl ⟨w, rest, rfl, hw, hrest⟩
    · exact Or.inr ((accepts_behind_blanks_iff hw hf.between hf.settled).mpr ⟨s', hs', hrest⟩)
  · rintro (⟨w, rest, rfl, hw, hrest⟩ | h)
    · refine (accepts_behind_blanks_iff hw hs.between hs.settled).mpr ⟨closed, ?_, hrest⟩
      rw [hstep mark hmark, beq_self_eq_true, if_pos rfl]
    · obtain ⟨w, b, rest, s', rfl, hw, hspace, hs', hrest⟩ := hf.exists_next h
      have hb : b ≠ mark := by
        rintro rfl
        rw [hs'] at hnot
        exact absurd hnot.symm Bool.false_ne_true
      refine (accepts_behind_blanks_iff hw hs.between hs.settled).mpr ⟨s', ?_, hrest⟩
      rw [hstep b hspace, beq_false_of_ne hb, if_neg Bool.false_ne_true, hs']

/-- Behind an item: a comma and another item, or the end of the array. -/
theorem exists_behind_item (h : Accepts .shape t ⟨stack, .afterItem items⟩ bs) :
    ∃ w rest, Blanks w ∧
      ((bs = w ++ 0x2C :: rest ∧ Accepts .shape t ⟨.array items :: stack, .value⟩ rest) ∨
        (bs = w ++ 0x5D :: rest ∧ Accepts .shape t (.close stack (.array items.reverse)) rest)) :=
  State.Awaits.exists_comma_or_mark ⟨rfl, rfl, rfl⟩ (fun b hb => by simp [State.step, afterValue, hb]) h

/-- Behind a member: a comma and another key, or the end of the object. -/
theorem exists_behind_member (h : Accepts .shape t ⟨stack, .afterMember members⟩ bs) :
    ∃ w rest, Blanks w ∧
      ((bs = w ++ 0x2C :: rest ∧ Accepts .shape t ⟨stack, .nextKey members⟩ rest) ∨
        (bs = w ++ 0x7D :: rest ∧ Accepts .shape t (.close stack (.object members.reverse)) rest)) :=
  State.Awaits.exists_comma_or_mark ⟨rfl, rfl, rfl⟩ (fun b hb => by simp [State.step, afterValue, hb]) h

/-- A key and its colon, with blanks before each. -/
theorem exists_key (h : Accepts .shape t ⟨stack, .nextKey members⟩ bs) :
    ∃ (key : Literal) (w k w' rest : Bytes), bs = w ++ 0x22 :: (k ++ 0x22 :: (w' ++ 0x3A :: rest)) ∧
      Blanks w ∧ key.Spells k ∧ Blanks w' ∧ Accepts .shape t ⟨.object members key :: stack, .value⟩ rest := by
  obtain ⟨w, behind, rfl, hw, hquote⟩ := State.Awaits.exists_mark ⟨rfl, rfl, rfl⟩ 0x22
    ⟨stack, .string (.key members) .plain []⟩ (fun b hb => by simp [State.step, hb]) h
  obtain ⟨key, k, behind, rfl, hk, hcolon⟩ := accepts_string_iff.mp hquote
  change Accepts .shape t ⟨stack, .colon members key⟩ behind at hcolon
  obtain ⟨w', rest, rfl, hw', hvalue⟩ := State.Awaits.exists_mark ⟨rfl, rfl, rfl⟩ 0x3A
    ⟨.object members key :: stack, .value⟩ (fun b hb => by simp [State.step, hb]) hcolon
  exact ⟨key, w, k, w', rest, rfl, hw, hk, hw', hvalue⟩

/-- Behind an opening bracket: the end of the array, or a first item as any other. -/
theorem accepts_firstItem_iff : Accepts .shape t ⟨stack, .firstItem⟩ bs ↔
    (∃ w rest, bs = w ++ 0x5D :: rest ∧ Blanks w ∧ Accepts .shape t (.close stack (.array [])) rest) ∨
      Accepts .shape t ⟨.array [] :: stack, .value⟩ bs :=
  State.Awaits.accepts_first_iff ⟨rfl, rfl, rfl⟩ ⟨rfl, rfl, rfl⟩ rfl rfl (fun b hb => by simp [State.step, hb])

/-- Behind an opening brace: the end of the object, or a first key as any other. -/
theorem accepts_firstKey_iff : Accepts .shape t ⟨stack, .firstKey⟩ bs ↔
    (∃ w rest, bs = w ++ 0x7D :: rest ∧ Blanks w ∧ Accepts .shape t (.close stack (.object [])) rest) ∨
      Accepts .shape t ⟨stack, .nextKey []⟩ bs :=
  State.Awaits.accepts_first_iff ⟨rfl, rfl, rfl⟩ ⟨rfl, rfl, rfl⟩ rfl rfl (fun b hb => by simp [State.step, hb])

/-- Within a word, one letter only comes next. -/
theorem exists_letter {next : State} {letter : UInt8} (hf : (s.finish .shape).isOk = false)
    (hstep : ∀ b, s.step .shape b = if b == letter then .ok next else .error .here) (h : Accepts .shape t s bs) :
    ∃ rest, bs = letter :: rest ∧ Accepts .shape t next rest := by
  cases bs with
  | nil => exact absurd (hf.symm.trans (congrArg Except.isOk h)) Bool.false_ne_true
  | cons b rest =>
    obtain ⟨s', hs', hrest⟩ := h
    rw [hstep b] at hs'
    rcases mark_or_else hs' with ⟨rfl, rfl⟩ | herror
    · exact ⟨rest, rfl, hrest⟩
    · cases herror

/-- A word is taken letter by letter. -/
theorem accepts_letters_iff {c : UInt8} {left : Bytes} :
    Accepts .shape t ⟨stack, .word (c :: left) u⟩ bs ↔
      ∃ rest, bs = c :: (left ++ rest) ∧ Accepts .shape t (.close stack u) rest := by
  constructor
  · intro h
    induction left generalizing c bs with
    | nil => exact exists_letter rfl (fun _ => rfl) h
    | cons d left ih =>
      obtain ⟨behind, rfl, hbehind⟩ := exists_letter rfl (fun _ => rfl) h
      obtain ⟨rest, rfl, hclosed⟩ := ih hbehind
      exact ⟨rest, rfl, hclosed⟩
  · rintro ⟨rest, rfl, hrest⟩
    induction left generalizing c with
    | nil => exact ⟨_, if_pos (beq_self_eq_true c), hrest⟩
    | cons d left ih => exact ⟨_, if_pos (beq_self_eq_true c), ih⟩

/-- The first byte of a value says what value it is. -/
theorem openValue_cases (h : openValue .shape stack b = .ok s') :
    (b = 0x22 ∧ s' = ⟨stack, .string .value .plain []⟩) ∨
    (b = 0x5B ∧ s' = ⟨stack, .firstItem⟩) ∨
    (b = 0x7B ∧ s' = ⟨stack, .firstKey⟩) ∨
    (b = 0x74 ∧ s' = ⟨stack, .word [0x72, 0x75, 0x65] (.bool true)⟩) ∨
    (b = 0x66 ∧ s' = ⟨stack, .word [0x61, 0x6C, 0x73, 0x65] (.bool false)⟩) ∨
    (b = 0x6E ∧ s' = ⟨stack, .word [0x75, 0x6C, 0x6C] .null⟩) ∨
    (b = 0x2D ∨ ∃ d : Digit, b = d.toByte) := by
  unfold openValue at h
  rcases mark_or_else h with hquote | h
  · exact Or.inl hquote
  rcases mark_or_else h with hbracket | h
  · exact Or.inr (Or.inl hbracket)
  rcases mark_or_else h with hbrace | h
  · exact Or.inr (Or.inr (Or.inl hbrace))
  refine Or.inr (Or.inr (Or.inr ?_))
  rcases mark_or_else h with ⟨hminus, -⟩ | h
  · exact Or.inr (Or.inr (Or.inr (Or.inl hminus)))
  rcases mark_or_else h with htrue | h
  · exact Or.inl htrue
  rcases mark_or_else h with hfalse | h
  · exact Or.inr (Or.inl hfalse)
  rcases mark_or_else h with hnull | h
  · exact Or.inr (Or.inr (Or.inl hnull))
  refine Or.inr (Or.inr (Or.inr (Or.inr ?_)))
  split at h
  · rename_i d hd
    exact ⟨d, eq_toByte_of_ofByte? hd⟩
  · cases h

/-! ## From text to parts -/

/-- A value comes next where one is asked for. -/
def FindsValue (t : Tree) (bs : Bytes) : Prop :=
  ∀ stack, Accepts .shape t ⟨stack, .value⟩ bs → ∃ w u v rest, bs = w ++ v ++ rest ∧ Blanks w ∧
    (Part.value u).Spells v ∧ Accepts .shape t (.close stack u) rest

/-- The items of an array come next, up to its end. -/
def FindsItems (t : Tree) (bs : Bytes) : Prop :=
  ∀ stack items, Accepts .shape t ⟨.array items :: stack, .value⟩ bs → ∃ ts v rest,
    bs = v ++ 0x5D :: rest ∧ (Part.items ts).Spells v ∧
      Accepts .shape t (.close stack (.array (items.reverse ++ ts))) rest

/-- The members of an object come next, up to its end. -/
def FindsMembers (t : Tree) (bs : Bytes) : Prop :=
  ∀ stack members, Accepts .shape t ⟨stack, .nextKey members⟩ bs → ∃ ms v rest,
    bs = v ++ 0x7D :: rest ∧ (Part.members ms).Spells v ∧
      Accepts .shape t (.close stack (.object (members.reverse ++ ms))) rest

/-- A value is found if what may stand in it is found in shorter texts. -/
theorem findsValue_of (hi : ∀ bs' : Bytes, bs'.length < bs.length → FindsItems t bs')
    (hm : ∀ bs' : Bytes, bs'.length < bs.length → FindsMembers t bs') : FindsValue t bs := by
  intro stack h
  obtain ⟨w, b, rest, s', rfl, hw, hspace, hstep, hrest⟩ := State.Awaits.exists_next ⟨rfl, rfl, rfl⟩ h
  have hopen : openValue .shape stack b = .ok s' := by
    simpa only [State.step, hspace, Bool.false_eq_true, if_false] using hstep
  have hshort : rest.length < (w ++ b :: rest).length := by
    simp
    omega
  rcases openValue_cases hopen with ⟨rfl, rfl⟩ | ⟨rfl, rfl⟩ | ⟨rfl, rfl⟩ | ⟨rfl, rfl⟩ | ⟨rfl, rfl⟩ |
    ⟨rfl, rfl⟩ | hb
  · obtain ⟨l, v, rest, rfl, hl, hclosed⟩ := accepts_string_iff.mp hrest
    exact ⟨w, _, _, rest, by simp, hw, .string hl, hclosed⟩
  · rcases accepts_firstItem_iff.mp hrest with ⟨w', rest, rfl, hw', hclosed⟩ | hfirst
    · exact ⟨w, _, _, rest, by simp, hw, .emptyArray hw', hclosed⟩
    · obtain ⟨ts, v, rest, rfl, hv, hclosed⟩ := hi _ hshort _ _ hfirst
      exact ⟨w, _, _, rest, by simp, hw, .array hv, hclosed⟩
  · rcases accepts_firstKey_iff.mp hrest with ⟨w', rest, rfl, hw', hclosed⟩ | hfirst
    · exact ⟨w, _, _, rest, by simp, hw, .emptyObject hw', hclosed⟩
    · obtain ⟨ms, v, rest, rfl, hv, hclosed⟩ := hm _ hshort _ _ hfirst
      exact ⟨w, _, _, rest, by simp, hw, .object hv, hclosed⟩
  · obtain ⟨rest, rfl, hclosed⟩ := accepts_letters_iff.mp hrest
    exact ⟨w, _, _, rest, by simp, hw, .true, hclosed⟩
  · obtain ⟨rest, rfl, hclosed⟩ := accepts_letters_iff.mp hrest
    exact ⟨w, _, _, rest, by simp, hw, .false, hclosed⟩
  · obtain ⟨rest, rfl, hclosed⟩ := accepts_letters_iff.mp hrest
    exact ⟨w, _, _, rest, by simp, hw, .null, hclosed⟩
  · obtain ⟨x, v, rest', hcut, hx, hclosed⟩ := exists_numeral hb ⟨s', hopen, hrest⟩
    exact ⟨w, _, v, rest', by rw [hcut, List.append_assoc], hw, .number hx, hclosed⟩

/-- Items are found if a value is, and the items behind it. -/
theorem findsItems_of (hv : FindsValue t bs)
    (hi : ∀ bs' : Bytes, bs'.length < bs.length → FindsItems t bs') : FindsItems t bs := by
  intro stack items h
  obtain ⟨w, u, v, behind, rfl, hw, hu, hitem⟩ := hv _ h
  obtain ⟨w', rest, hw', ⟨rfl, hnext⟩ | ⟨rfl, hclosed⟩⟩ := exists_behind_item hitem
  · have hshort : rest.length < (w ++ v ++ (w' ++ 0x2C :: rest)).length := by
      simp
      omega
    obtain ⟨ts, v', rest, rfl, hts, hclosed⟩ := hi _ hshort _ _ hnext
    exact ⟨u :: ts, _, rest, by simp, .item (.padded hw hu hw') hts, by simpa using hclosed⟩
  · exact ⟨[u], _, rest, by simp, .lastItem (.padded hw hu hw'), by simpa using hclosed⟩

/-- Members are found if a value is, and the members behind it. -/
theorem findsMembers_of (hv : ∀ bs' : Bytes, bs'.length < bs.length → FindsValue t bs')
    (hm : ∀ bs' : Bytes, bs'.length < bs.length → FindsMembers t bs') : FindsMembers t bs := by
  intro stack members h
  obtain ⟨key, w, k, w', text, rfl, hw, hk, hw', hvalue⟩ := exists_key h
  have hshort : text.length < (w ++ 0x22 :: (k ++ 0x22 :: (w' ++ 0x3A :: text))).length := by
    simp
    omega
  obtain ⟨w₁, u, v, behind, rfl, hw₁, hu, hmember⟩ := hv text hshort _ hvalue
  obtain ⟨w₂, rest, hw₂, ⟨rfl, hnext⟩ | ⟨rfl, hclosed⟩⟩ := exists_behind_member hmember
  · have hshorter : rest.length < (w₁ ++ v ++ (w₂ ++ 0x2C :: rest)).length := by
      simp
      omega
    obtain ⟨ms, v', rest, rfl, hms, hclosed⟩ := hm rest (hshorter.trans hshort) _ _ hnext
    exact ⟨(key, u) :: ms, _, rest, by simp, .nextMember (.member hw hk hw' (.padded hw₁ hu hw₂)) hms,
      by simpa using hclosed⟩
  · exact ⟨[(key, u)], _, rest, by simp, .lastMember (.member hw hk hw' (.padded hw₁ hu hw₂)),
      by simpa using hclosed⟩

/-- **What is accepted is made of parts**, by induction on its length. -/
theorem finds (t : Tree) (bs : Bytes) : FindsValue t bs ∧ FindsItems t bs ∧ FindsMembers t bs := by
  induction hlen : bs.length using Nat.strongRecOn generalizing bs with
  | ind n ih =>
    have hshorter : ∀ bs' : Bytes, bs'.length < bs.length →
        FindsValue t bs' ∧ FindsItems t bs' ∧ FindsMembers t bs' :=
      fun bs' h => ih bs'.length (hlen ▸ h) bs' rfl
    have hitems := fun bs' h => (hshorter bs' h).2.1
    have hmembers := fun bs' h => (hshorter bs' h).2.2
    have hvalue := findsValue_of hitems hmembers
    exact ⟨hvalue, findsItems_of hvalue hitems, findsMembers_of (fun bs' h => (hshorter bs' h).1) hmembers⟩

/-! ## From parts to text -/

/-- Through a part, the reader is led to where the part has been taken, wherever it stands. -/
def Part.Led (t : Tree) : Part → Bytes → Prop
  | .value u, v | .padded u, v => ∀ stack rest, Accepts .shape t (.close stack u) rest →
      Accepts .shape t ⟨stack, .value⟩ (v ++ rest)
  | .items ts, v => ∀ stack items rest, Accepts .shape t (.close stack (.array (items.reverse ++ ts))) rest →
      Accepts .shape t ⟨.array items :: stack, .value⟩ (v ++ 0x5D :: rest)
  | .member m, v => ∀ stack members rest, Accepts .shape t ⟨stack, .afterMember (m :: members)⟩ rest →
      Accepts .shape t ⟨stack, .nextKey members⟩ (v ++ rest)
  | .members ms, v => ∀ stack members rest,
      Accepts .shape t (.close stack (.object (members.reverse ++ ms))) rest →
        Accepts .shape t ⟨stack, .nextKey members⟩ (v ++ 0x7D :: rest)

/-- **Through every part** the reader is led, by induction on the grammar. -/
theorem Part.Spells.led {p : Part} (h : p.Spells v) : p.Led t v := by
  induction h with
  | null => exact fun stack rest hrest => ⟨_, rfl, accepts_letters_iff.mpr ⟨rest, rfl, hrest⟩⟩
  | true => exact fun stack rest hrest => ⟨_, rfl, accepts_letters_iff.mpr ⟨rest, rfl, hrest⟩⟩
  | false => exact fun stack rest hrest => ⟨_, rfl, accepts_letters_iff.mpr ⟨rest, rfl, hrest⟩⟩
  | number hx => exact fun stack rest hrest => hx.accepts hrest
  | @string l v hl =>
    intro stack rest hrest
    refine ⟨_, rfl, accepts_string_iff.mpr ⟨l, v, rest, by simp, hl, ?_⟩⟩
    exact hrest
  | emptyArray hw =>
    intro stack rest hrest
    exact ⟨_, rfl, accepts_firstItem_iff.mpr (Or.inl ⟨_, rest, by simp, hw, hrest⟩)⟩
  | @array ts v _ ih =>
    intro stack rest hrest
    refine ⟨_, rfl, accepts_firstItem_iff.mpr (Or.inr ?_)⟩
    have hitems := ih stack [] rest hrest
    simpa using hitems
  | emptyObject hw =>
    intro stack rest hrest
    exact ⟨_, rfl, accepts_firstKey_iff.mpr (Or.inl ⟨_, rest, by simp, hw, hrest⟩)⟩
  | @object ms v _ ih =>
    intro stack rest hrest
    refine ⟨_, rfl, accepts_firstKey_iff.mpr (Or.inr ?_)⟩
    have hmembers := ih stack [] rest hrest
    simpa using hmembers
  | @padded u w v w' hw _ hw' ih =>
    intro stack rest hrest
    rw [List.append_assoc, List.append_assoc, accepts_behind_blanks_iff hw rfl rfl]
    obtain ⟨hbetween, hnumber⟩ := between_close stack u
    exact ih stack _ ((accepts_behind_blanks_iff hw' hbetween hnumber).mpr hrest)
  | @lastItem u v _ ih =>
    intro stack items rest hrest
    refine ih (.array items :: stack) _ ⟨.close stack (.array (u :: items).reverse), rfl, ?_⟩
    simpa using hrest
  | @item u ts v v' _ _ ih ihs =>
    intro stack items rest hrest
    rw [List.append_assoc]
    refine ih (.array items :: stack) _ ⟨_, rfl, ihs stack (u :: items) rest ?_⟩
    simpa using hrest
  | @member key u w k w' v hw hk hw' _ ih =>
    intro stack members rest hrest
    have hvalue := ih (.object members key :: stack) rest hrest
    have hcolon : Accepts .shape t ⟨stack, .colon members key⟩ (w' ++ 0x3A :: (v ++ rest)) :=
      (accepts_behind_blanks_iff hw' rfl rfl).mpr ⟨_, rfl, hvalue⟩
    have hkey : Accepts .shape t ⟨stack, .nextKey members⟩ (0x22 :: (k ++ 0x22 :: (w' ++ 0x3A :: (v ++ rest)))) :=
      ⟨_, rfl, accepts_string_iff.mpr ⟨key, k, _, rfl, hk, hcolon⟩⟩
    have hall := (accepts_behind_blanks_iff hw rfl rfl).mpr hkey
    simpa using hall
  | @lastMember m v _ ih =>
    intro stack members rest hrest
    refine ih stack members _ ⟨_, rfl, ?_⟩
    simpa using hrest
  | @nextMember m ms v v' _ _ ih ihs =>
    intro stack members rest hrest
    rw [List.append_assoc]
    refine ih stack members _ ⟨_, rfl, ihs stack (m :: members) rest ?_⟩
    simpa using hrest

/-- Behind a whole document there are only blanks. -/
theorem accepts_done_iff : Accepts .shape t ⟨[], .done u⟩ bs ↔ Blanks bs ∧ u = t := by
  constructor
  · intro h
    obtain ⟨w, rest, rfl, hw, hnext⟩ := exists_blanks bs
    rw [accepts_behind_blanks_iff hw rfl rfl] at h
    cases rest with
    | nil =>
      rw [List.append_nil]
      exact ⟨hw, Except.ok.inj h⟩
    | cons b rest =>
      obtain ⟨s', hstep, -⟩ := h
      simp [State.step, afterValue, hnext b rfl] at hstep
  · rintro ⟨hw, rfl⟩
    have hend : Accepts .shape u ⟨[], .done u⟩ (bs ++ []) := (accepts_behind_blanks_iff hw rfl rfl).mpr rfl
    rwa [List.append_nil] at hend

/-- **The reader reads what the grammar spells**, and nothing else: to find the shape of a document is to
    find its parts. -/
theorem read_eq_ok_iff : read .shape bs = .ok t ↔ t.Spells bs := by
  unfold read
  rw [readFrom_eq_ok_iff]
  constructor
  · intro h
    obtain ⟨w, u, v, rest, rfl, hw, hu, hrest⟩ := (finds t bs).1 [] h
    obtain ⟨hblanks, rfl⟩ := accepts_done_iff.mp hrest
    exact .padded hw hu hblanks
  · intro h
    have hled := Part.Spells.led (t := t) h [] [] (accepts_done_iff.mpr ⟨blanks_nil, rfl⟩)
    rwa [List.append_nil] at hled

end SharedPorts.Json
