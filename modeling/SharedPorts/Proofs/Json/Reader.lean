import SharedPorts.Json.Printer
import SharedPorts.Json.Reader
import SharedPorts.Proofs.Attempt
import SharedPorts.Proofs.Json.Literal

/-!
# `SharedPorts.Proofs.Json.Reader` — documents through bytes and back

The reader, put on the bytes that are written for a document, comes to the state that follows the document,
in whatever containers it stands. This is said for the documents that this library writes: texts, and
arrays and objects of such.

## Contents
- **Steps.** `Goes`, the way of the reader through some bytes.
- **Strings.** `goes_pieces`, `goes_value_string` and `goes_key`.
- **Lines.** `Rests`, a state that blanks do not change, and the items and members of a container.
- **Documents.** `Tree.OfTexts`, `Tree.OfTexts.reads` and `read_render`.
-/

namespace SharedPorts.Json

variable {s s' s'' : State} {stack : List Frame} {bs cs : Bytes} {b : UInt8} {t : Tree}

/-! ## Steps -/

/-- The reader goes from a state through some bytes to another state. -/
def Goes (s : State) (bs : Bytes) (s' : State) : Prop := bs.foldlM (State.step .shape) s = .ok s'

theorem goes_nil : Goes s [] s := rfl

theorem goes_cons_iff : Goes s (b :: bs) s'' ↔ ∃ s', s.step .shape b = .ok s' ∧ Goes s' bs s'' :=
  foldlM_cons_eq_ok_iff

theorem goes_cons (h : s.step .shape b = .ok s') (hs : Goes s' bs s'') : Goes s (b :: bs) s'' :=
  goes_cons_iff.mpr ⟨s', h, hs⟩

theorem goes_step (h : s.step .shape b = .ok s') : Goes s [b] s' := goes_cons h goes_nil

theorem Goes.append (h : Goes s bs s') (h' : Goes s' cs s'') : Goes s (bs ++ cs) s'' := by
  induction bs generalizing s with
  | nil =>
    rw [Except.ok.inj h]
    exact h'
  | cons b bs ih =>
    obtain ⟨s₁, hstep, hrest⟩ := goes_cons_iff.mp h
    exact goes_cons hstep (ih hrest)

/-- Where the reader goes, reading goes on. -/
theorem Goes.readFrom (h : Goes s bs s') (line : Nat) (rest : Bytes) :
    ∃ line', readFrom .shape line s (bs ++ rest) = readFrom .shape line' s' rest := by
  induction bs generalizing s line with
  | nil =>
    rw [Except.ok.inj h]
    exact ⟨line, rfl⟩
  | cons b bs ih =>
    obtain ⟨s₁, hstep, hrest⟩ := goes_cons_iff.mp h
    obtain ⟨line', hline⟩ := ih hrest (lineAfter line b)
    refine ⟨line', ?_⟩
    rw [List.cons_append, Json.readFrom, hstep]
    exact hline

/-! ## Strings -/

theorem ofMark?_mark (e : Escape) : Escape.ofMark? e.mark = some e ∧ e.mark ≠ 0x75 := by
  cases e <;> decide

/-- A piece is read as what it is. -/
theorem goes_piece {role : StringRole} {pieces : Literal} {p : Piece} {u : Bytes} (h : p.Spells u) :
    Goes ⟨stack, .string role .plain pieces⟩ u ⟨stack, .string role .plain (p :: pieces)⟩ := by
  cases h with
  | @byte b hlow hquote hbackslash =>
    apply goes_step
    show stepString .shape stack role .plain pieces b = _
    unfold stepString
    dsimp only
    rw [beq_false_of_ne hbackslash, beq_false_of_ne hquote, decide_eq_false (UInt8.not_lt.mpr hlow)]
    rfl
  | escape e =>
    obtain ⟨hmark, hne⟩ := ofMark?_mark e
    refine goes_cons (show _ = Except.ok (⟨stack, .string role .escape pieces⟩ : State) from rfl) (goes_step ?_)
    show stepString .shape stack role .escape pieces e.mark = _
    unfold stepString
    dsimp only
    rw [beq_false_of_ne hne, hmark]
    rfl
  | @unit unit digits hunit =>
    -- a backslash, the letter and four digits, the last of which completes the unit
    obtain ⟨a, b, c, d, rfl⟩ := four_of_unitOfHex? hunit
    refine goes_cons (show _ = Except.ok (⟨stack, .string role .escape pieces⟩ : State) from rfl) ?_
    refine goes_cons (show _ = Except.ok (⟨stack, .string role (.digits []) pieces⟩ : State) from rfl) ?_
    refine goes_cons (show _ = Except.ok (⟨stack, .string role (.digits [a]) pieces⟩ : State) from rfl) ?_
    refine goes_cons (show _ = Except.ok (⟨stack, .string role (.digits [a, b]) pieces⟩ : State) from rfl) ?_
    refine goes_cons (show _ = Except.ok (⟨stack, .string role (.digits [a, b, c]) pieces⟩ : State) from rfl)
      (goes_step ?_)
    show stepString .shape stack role (.digits [a, b, c]) pieces d = _
    unfold stepString
    dsimp only
    rw [if_neg (by simp), List.cons_append, List.cons_append, List.cons_append, List.nil_append, hunit]
    rfl

theorem goes_pieces {role : StringRole} {l pieces : Literal} {u : Bytes} (h : l.Spells u) :
    Goes ⟨stack, .string role .plain pieces⟩ u ⟨stack, .string role .plain (l.reverse ++ pieces)⟩ := by
  induction h generalizing pieces with
  | nil => exact goes_nil
  | cons hp _ ih =>
    rw [List.reverse_cons, List.append_assoc]
    exact (goes_piece hp).append ih

/-- Behind its opening quote, a string is read up to its closing quote. -/
theorem goes_string {role : StringRole} {l : Literal} {u : Bytes} (h : l.Spells u)
    (hclose : closeString .shape stack role l = .ok s') :
    Goes ⟨stack, .string role .plain []⟩ (u ++ [0x22]) s' := by
  refine (goes_pieces h).append (goes_step ?_)
  show closeString .shape stack role (l.reverse ++ []).reverse = _
  rw [List.append_nil, List.reverse_reverse]
  exact hclose

theorem goes_value_string (s : String) :
    Goes ⟨stack, .value⟩ (Literal.ofString s).render (.close stack (.ofString s)) := by
  obtain ⟨u, hu, hrender⟩ := Literal.spells_render s
  rw [hrender]
  exact goes_cons (show _ = Except.ok (⟨stack, .string .value .plain []⟩ : State) from rfl) (goes_string hu rfl)

/-- A key is read where one may stand. -/
theorem goes_key {members : Members} {key : String}
    (hs : s.step .shape 0x22 = .ok ⟨stack, .string (.key members) .plain []⟩) :
    Goes s (Literal.ofString key).render ⟨stack, .colon members (Literal.ofString key)⟩ := by
  obtain ⟨u, hu, hrender⟩ := Literal.spells_render key
  rw [hrender]
  exact goes_cons hs (goes_string hu rfl)

/-! ## Lines -/

/-- A state that blanks do not change. -/
def Rests (s : State) : Prop := ∀ b, isSpace b = true → s.step .shape b = .ok s

theorem rests_value : Rests ⟨stack, .value⟩ := by
  intro b hb
  exact if_pos hb

theorem rests_firstKey : Rests ⟨stack, .firstKey⟩ := by
  intro b hb
  exact if_pos hb

theorem rests_nextKey {members : Members} : Rests ⟨stack, .nextKey members⟩ := by
  intro b hb
  exact if_pos hb

theorem rests_afterItem {items : List Tree} : Rests ⟨stack, .afterItem items⟩ := by
  intro b hb
  exact if_pos hb

theorem rests_afterMember {members : Members} : Rests ⟨stack, .afterMember members⟩ := by
  intro b hb
  exact if_pos hb

theorem goes_newLine (h : Rests s) (depth : Nat) : Goes s (newLine depth) s := by
  have hspaces : ∀ n, Goes s (List.replicate n 0x20) s := by
    intro n
    induction n with
    | zero => exact goes_nil
    | succ n ih => exact goes_cons (h 0x20 rfl) ih
  exact goes_cons (h 0x0A rfl) (hspaces _)

/-- A document is read wherever a value may stand, at any depth. -/
def Reads (t : Tree) : Prop := ∀ depth stack, Goes ⟨stack, .value⟩ (t.render depth) (.close stack t)

/-- Items on lines of their own are read one after the other. -/
theorem goes_items {items : List Tree} {item : Tree} {read : List Tree} (depth : Nat)
    (h : ∀ t ∈ item :: items, Reads t) :
    Goes ⟨.array read :: stack, .value⟩ (commaLines depth (item.render depth :: renderItems depth items))
      ⟨stack, .afterItem ((item :: items).reverse ++ read)⟩ := by
  induction items generalizing item read with
  | nil =>
    show Goes _ (newLine depth ++ item.render depth) _
    exact (goes_newLine rests_value depth).append (h item List.mem_cons_self depth _)
  | cons next items ih =>
    have hitem : Goes ⟨.array read :: stack, .value⟩ (newLine depth ++ item.render depth)
        ⟨stack, .afterItem (item :: read)⟩ :=
      (goes_newLine rests_value depth).append (h item List.mem_cons_self depth _)
    have hcomma : Goes ⟨stack, .afterItem (item :: read)⟩ [0x2C] ⟨.array (item :: read) :: stack, .value⟩ :=
      goes_step rfl
    have hrest := @ih next (item :: read) (fun t ht => h t (List.mem_cons_of_mem item ht))
    rw [List.reverse_cons, List.append_assoc, List.singleton_append]
    exact (hitem.append hcomma).append hrest

/-- A member on a line of its own is read wherever a key may stand. -/
theorem goes_member {m : Literal × Tree} {read : Members} (depth : Nat) (hrests : Rests s)
    (hquote : s.step .shape 0x22 = .ok ⟨stack, .string (.key read) .plain []⟩)
    (hkey : ∃ key, m.1 = Literal.ofString key) (hvalue : Reads m.2) :
    Goes s (newLine depth ++ renderMember depth m) ⟨stack, .afterMember (m :: read)⟩ := by
  obtain ⟨_, t⟩ := m
  obtain ⟨key, rfl⟩ := hkey
  have hcolon : Goes ⟨stack, .colon read (.ofString key)⟩ [0x3A, 0x20]
      ⟨.object read (.ofString key) :: stack, .value⟩ :=
    goes_cons (show _ = Except.ok (⟨.object read (.ofString key) :: stack, .value⟩ : State) from rfl)
      (goes_step (rests_value 0x20 rfl))
  unfold renderMember
  exact (goes_newLine hrests depth).append (((goes_key hquote).append hcolon).append (hvalue depth _))

/-- Members on lines of their own are read one after the other, from wherever a key may stand. -/
theorem goes_members {members : Members} {m : Literal × Tree} {read : Members} (depth : Nat)
    (hrests : Rests s) (hquote : s.step .shape 0x22 = .ok ⟨stack, .string (.key read) .plain []⟩)
    (hkeys : ∀ m' ∈ m :: members, ∃ key, m'.1 = Literal.ofString key)
    (hvalues : ∀ m' ∈ m :: members, Reads m'.2) :
    Goes s (commaLines depth (renderMember depth m :: renderMembers depth members))
      ⟨stack, .afterMember ((m :: members).reverse ++ read)⟩ := by
  induction members generalizing s m read with
  | nil => exact goes_member depth hrests hquote (hkeys m List.mem_cons_self) (hvalues m List.mem_cons_self)
  | cons next members ih =>
    have hmember := goes_member depth hrests hquote (hkeys m List.mem_cons_self) (hvalues m List.mem_cons_self)
    have hcomma : Goes ⟨stack, .afterMember (m :: read)⟩ [0x2C] ⟨stack, .nextKey (m :: read)⟩ := goes_step rfl
    have hrest := @ih ⟨stack, .nextKey (m :: read)⟩ next (m :: read) rests_nextKey rfl
      (fun m' hm => hkeys m' (List.mem_cons_of_mem m hm)) (fun m' hm => hvalues m' (List.mem_cons_of_mem m hm))
    rw [List.reverse_cons, List.append_assoc, List.singleton_append]
    exact (hmember.append hcomma).append hrest

/-! ## Documents -/

/-- A document of texts: a text, or an array or object of such documents under texts. -/
inductive Tree.OfTexts : Tree → Prop
  | text (s : String) : OfTexts (.ofString s)
  | array {items : List Tree} (h : ∀ t ∈ items, OfTexts t) : OfTexts (.array items)
  | object {members : Members} (hkeys : ∀ m ∈ members, ∃ key, m.1 = Literal.ofString key)
      (hvalues : ∀ m ∈ members, OfTexts m.2) : OfTexts (.object members)

/-- The first byte of a document of texts is no blank and ends no array. -/
theorem Tree.OfTexts.head (h : t.OfTexts) (depth : Nat) :
    ∃ b bs, t.render depth = b :: bs ∧ isSpace b = false ∧ b ≠ 0x5D := by
  cases h with
  | text s => exact ⟨0x22, _, rfl, rfl, by decide⟩
  | @array items _ => cases items <;> exact ⟨0x5B, _, rfl, rfl, by decide⟩
  | @object members _ _ => cases members <;> exact ⟨0x7B, _, rfl, rfl, by decide⟩

theorem commaLines_cons (depth : Nat) (piece : Bytes) (pieces : List Bytes) :
    ∃ more, commaLines depth (piece :: pieces) = newLine depth ++ (piece ++ more) := by
  cases pieces with
  | nil => exact ⟨[], by rw [List.append_nil]; rfl⟩
  | cons next pieces =>
    refine ⟨[0x2C] ++ commaLines depth (next :: pieces), ?_⟩
    show newLine depth ++ piece ++ [0x2C] ++ commaLines depth (next :: pieces) = _
    rw [List.append_assoc, List.append_assoc]

/-- An array that has just been opened takes a first item as any other. -/
theorem goes_firstItem (depth : Nat) (hspace : isSpace b = false) (hend : b ≠ 0x5D)
    (h : Goes ⟨.array [] :: stack, .value⟩ (newLine depth ++ b :: bs) s') :
    Goes ⟨stack, .firstItem⟩ (newLine depth ++ b :: bs) s' := by
  have hblank : Rests ⟨stack, .firstItem⟩ := fun _ hb => if_pos hb
  have hopen : State.step .shape ⟨stack, .firstItem⟩ b = State.step .shape ⟨.array [] :: stack, .value⟩ b := by
    show (if isSpace b then _ else if b == 0x5D then _ else openValue .shape (.array [] :: stack) b) =
      (if isSpace b then _ else openValue .shape (.array [] :: stack) b)
    rw [hspace, beq_false_of_ne hend]
    rfl
  have hrest : Goes ⟨.array [] :: stack, .value⟩ (b :: bs) s' := by
    -- the blanks before the item change neither state
    have hstay : Goes ⟨.array [] :: stack, .value⟩ (newLine depth) ⟨.array [] :: stack, .value⟩ :=
      goes_newLine rests_value depth
    unfold Goes at h hstay ⊢
    rw [List.foldlM_append, hstay] at h
    exact h
  obtain ⟨s₁, hstep, hgo⟩ := goes_cons_iff.mp hrest
  exact (goes_newLine hblank depth).append (goes_cons (hopen.trans hstep) hgo)

/-- **A document of texts is read** as what it is. -/
theorem Tree.OfTexts.reads (h : t.OfTexts) : Reads t := by
  induction h with
  | text s => exact fun _ _ => goes_value_string s
  | @array items hitems ih =>
    intro depth stack
    have hopen : State.step .shape ⟨stack, .value⟩ 0x5B = .ok ⟨stack, .firstItem⟩ := rfl
    cases items with
    | nil => exact goes_cons hopen (goes_step rfl)
    | cons item items =>
      have hend : Goes ⟨stack, .afterItem (item :: items).reverse⟩ (newLine depth ++ [0x5D])
          (.close stack (.array (item :: items))) := by
        refine (goes_newLine rests_afterItem depth).append (goes_step ?_)
        show Except.ok (State.close stack (.array (item :: items).reverse.reverse)) = _
        rw [List.reverse_reverse]
      have hread := @goes_items stack items item [] (depth + 1) ih
      obtain ⟨b, bs, hb, hspace, hne⟩ := (hitems item List.mem_cons_self).head (depth + 1)
      obtain ⟨more, hmore⟩ := commaLines_cons (depth + 1) (item.render (depth + 1)) (renderItems (depth + 1) items)
      have hfirst : Goes ⟨stack, .firstItem⟩
          (commaLines (depth + 1) (item.render (depth + 1) :: renderItems (depth + 1) items))
          ⟨stack, .afterItem (item :: items).reverse⟩ := by
        rw [List.append_nil, hmore, hb, List.cons_append] at hread
        rw [hmore, hb, List.cons_append]
        exact goes_firstItem (depth + 1) hspace hne hread
      have hall := goes_cons hopen (hfirst.append hend)
      rw [← List.append_assoc] at hall
      exact hall
  | @object members hkeys hvalues ih =>
    intro depth stack
    have hopen : State.step .shape ⟨stack, .value⟩ 0x7B = .ok ⟨stack, .firstKey⟩ := rfl
    cases members with
    | nil => exact goes_cons hopen (goes_step rfl)
    | cons m members =>
      have hmembers : Goes ⟨stack, .firstKey⟩ _ ⟨stack, .afterMember ((m :: members).reverse ++ [])⟩ :=
        goes_members (depth + 1) rests_firstKey rfl hkeys ih
      rw [List.append_nil] at hmembers
      have hend : Goes ⟨stack, .afterMember (m :: members).reverse⟩ (newLine depth ++ [0x7D])
          (.close stack (.object (m :: members))) := by
        refine (goes_newLine rests_afterMember depth).append (goes_step ?_)
        show Except.ok (State.close stack (.object (m :: members).reverse.reverse)) = _
        rw [List.reverse_reverse]
      have hall := goes_cons hopen (hmembers.append hend)
      rw [← List.append_assoc] at hall
      exact hall

/-- **Reading the bytes of a document** of texts gives the document. -/
theorem read_render (h : t.OfTexts) : read .shape (t.render 0) = .ok t := by
  obtain ⟨line, hline⟩ := (h.reads 0 []).readFrom 1 []
  unfold read
  rw [List.append_nil] at hline
  exact hline

theorem isText_newLine (depth : Nat) : Utf8.IsText (newLine depth) := by
  have hblanks : ∀ n, Utf8.IsText (List.replicate n 0x20) := by
    intro n
    induction n with
    | zero => exact Utf8.isText_nil
    | succ n ih => exact Utf8.IsText.cons (by decide) ih
  exact Utf8.IsText.cons (by decide) (hblanks _)

/-- Lines of texts are a text. -/
theorem isText_commaLines (depth : Nat) {pieces : List Bytes} (h : ∀ piece ∈ pieces, Utf8.IsText piece) :
    Utf8.IsText (commaLines depth pieces) := by
  have hnew := isText_newLine depth
  induction pieces with
  | nil => exact Utf8.isText_nil
  | cons piece pieces ih =>
    cases pieces with
    | nil => exact hnew.append (h piece List.mem_cons_self)
    | cons next pieces =>
      have hcomma := Utf8.isText_byte (show (0x2C : UInt8) < 0x80 by decide)
      have hline := (hnew.append (h piece List.mem_cons_self)).append hcomma
      exact hline.append (ih (fun p hp => h p (List.mem_cons_of_mem piece hp)))

theorem renderItems_eq_map (depth : Nat) (items : List Tree) :
    renderItems depth items = items.map (·.render depth) := by
  induction items with
  | nil => rfl
  | cons item items ih => rw [renderItems, ih, List.map_cons]

theorem renderMembers_eq_map (depth : Nat) (members : Members) :
    renderMembers depth members = members.map (renderMember depth) := by
  induction members with
  | nil => rfl
  | cons m members ih => rw [renderMembers, ih, List.map_cons]

/-- **The bytes of a document of texts** are a text. -/
theorem Tree.OfTexts.isText (h : t.OfTexts) (depth : Nat) : Utf8.IsText (t.render depth) := by
  have hnew := isText_newLine
  induction h generalizing depth with
  | text s => exact Literal.isText_render s
  | @array items _ ih =>
    cases items with
    | nil => exact Utf8.IsText.cons (by decide) (Utf8.isText_byte (by decide))
    | cons item items =>
      have hlines : Utf8.IsText
          (commaLines (depth + 1) (item.render (depth + 1) :: renderItems (depth + 1) items)) := by
        refine isText_commaLines _ ?_
        intro piece hpiece
        rw [renderItems_eq_map, ← List.map_cons] at hpiece
        obtain ⟨t, ht, rfl⟩ := List.mem_map.mp hpiece
        exact ih t ht (depth + 1)
      exact Utf8.IsText.cons (by decide) ((hlines.append (hnew depth)).append (Utf8.isText_byte (by decide)))
  | @object members hkeys _ ih =>
    cases members with
    | nil => exact Utf8.IsText.cons (by decide) (Utf8.isText_byte (by decide))
    | cons m members =>
      have hlines : Utf8.IsText
          (commaLines (depth + 1) (renderMember (depth + 1) m :: renderMembers (depth + 1) members)) := by
        refine isText_commaLines _ ?_
        intro piece hpiece
        rw [renderMembers_eq_map, ← List.map_cons] at hpiece
        obtain ⟨⟨key, value⟩, hm, rfl⟩ := List.mem_map.mp hpiece
        obtain ⟨name, rfl⟩ : ∃ name, key = Literal.ofString name := hkeys _ hm
        rw [renderMember]
        have hcolon : Utf8.IsText [0x3A, 0x20] := Utf8.IsText.cons (by decide) (Utf8.isText_byte (by decide))
        exact ((Literal.isText_render name).append hcolon).append (ih _ hm (depth + 1))
      exact Utf8.IsText.cons (by decide) ((hlines.append (hnew depth)).append (Utf8.isText_byte (by decide)))

end SharedPorts.Json
