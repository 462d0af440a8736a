import SharedPorts.Proofs.Jsonc.Leniency

/-!
# `SharedPorts.Proofs.Jsonc.Lines` — lines before and after a text is made plain

The line of a fault is counted in the plain document, and people look it up in the file that they wrote. The
two agree as long as no line feed is lost on the way. A line comment keeps its line feed and a comma has
none, but a block comment becomes one blank, whatever it holds: each of its line feeds is a line by which all
that follows is reported too early.

## Contents
- **Pieces.** `Piece`, with what it has `written` and what of it is `left`; `pieces`, a text cut into them.
- **Cutting.** `written_pieces`, `left_pieces` and `formed_pieces`: the pieces are the text, what is left of
  them is the plain document, and each of them is what it is called.
- **Lines.** `linesLost`, and `count_written`.
- **Faults.** `Json.Blames`, the place that a fault is put to, and `Json.readFrom_eq_error`.
- **Files.** The main statement `PortLabels.ofFile_lines`, and `PortLabels.lines_fail`, an example.
-/

namespace SharedPorts.Jsonc

open Json

variable {bs : Bytes} {p : Piece} {ps : List Piece} {q : Quoting} {r : Region}

/-! ## Pieces -/

/-- **A piece** of a text: a byte that is kept, or something that is taken out. -/
inductive Piece
  | byte (b : UInt8)
  /-- A line comment, up to its line feed. -/
  | lineComment (body : Bytes)
  /-- A block comment, with the marks that close it, if it is closed. -/
  | blockComment (body : Bytes)
  /-- A comma before a closing brace. -/
  | comma
  deriving DecidableEq, Repr

namespace Piece

/-- The bytes of a piece. -/
def written : Piece → Bytes
  | .byte b => [b]
  | .lineComment body => 0x2F :: 0x2F :: body
  | .blockComment body => 0x2F :: 0x2A :: body
  | .comma => [0x2C]

/-- The bytes that are left of a piece. -/
def left : Piece → Bytes
  | .byte b => [b]
  | .blockComment _ => [0x20]
  | .lineComment _ | .comma => []

/-- A comment goes no further than a comment of its kind does: up to a line feed, or up to the first marks
    that close it. -/
def Formed : Piece → Prop
  | .byte _ | .comma => True
  | .lineComment body => 0x0A ∉ body
  | .blockComment body => Unclosed body ∨ ∃ text, body = text ++ [0x2A, 0x2F] ∧ Unclosed text

/-- The lines that are lost in a piece: those of a block comment. -/
def linesLost : Piece → Nat
  | .blockComment body => body.count 0x0A
  | .byte _ | .lineComment _ | .comma => 0

end Piece

/-- The bytes of some pieces. -/
def written (ps : List Piece) : Bytes := ps.flatMap Piece.written

/-- The bytes that are left of some pieces. -/
def left (ps : List Piece) : Bytes := ps.flatMap Piece.left

/-- The lines that are lost in some pieces. -/
def linesLost : List Piece → Nat
  | [] => 0
  | p :: ps => p.linesLost + linesLost ps

/-- Cut a text at its comments, beginning in a given region. If that is a comment, what is still to come of
    it stands apart from the pieces behind it. -/
def cut : Region → Bytes → Bytes × List Piece
  | _, [] => ([], [])
  | .code, 0x22 :: rest => ([], .byte 0x22 :: (cut .string rest).2)
  | .code, 0x2F :: 0x2F :: rest => ([], .lineComment (cut .lineComment rest).1 :: (cut .lineComment rest).2)
  | .code, 0x2F :: 0x2A :: rest => ([], .blockComment (cut .blockComment rest).1 :: (cut .blockComment rest).2)
  | .code, c :: rest => ([], .byte c :: (cut .code rest).2)
  | .string, 0x5C :: c :: rest => ([], .byte 0x5C :: .byte c :: (cut .string rest).2)
  | .string, 0x22 :: rest => ([], .byte 0x22 :: (cut .code rest).2)
  | .string, c :: rest => ([], .byte c :: (cut .string rest).2)
  | .lineComment, 0x0A :: rest => ([], .byte 0x0A :: (cut .code rest).2)
  | .lineComment, c :: rest => (c :: (cut .lineComment rest).1, (cut .lineComment rest).2)
  | .blockComment, 0x2A :: 0x2F :: rest => ([0x2A, 0x2F], (cut .code rest).2)
  | .blockComment, c :: rest => (c :: (cut .blockComment rest).1, (cut .blockComment rest).2)

/-- Set the commas apart that are taken out, beginning in a given region. -/
def cutCommas : Quoting → List Piece → List Piece
  | _, [] => []
  | q, .byte b :: ps =>
    if q = .outside ∧ b = 0x2C ∧ closesNext (left ps) then .comma :: cutCommas q ps
    else .byte b :: cutCommas (q.after b) ps
  | q, .lineComment body :: ps => .lineComment body :: cutCommas q ps
  | q, .blockComment body :: ps => .blockComment body :: cutCommas (q.after 0x20) ps
  | q, .comma :: ps => .comma :: cutCommas q ps

/-- **The pieces of a text**: its comments, the commas that are taken out, and every byte that is kept. -/
def pieces (bs : Bytes) : List Piece := cutCommas .outside (cut .code bs).2

/-! ## Cutting -/

/-- Outside comments nothing is still to come of one. -/
theorem cut_fst (h : r = .code ∨ r = .string) : (cut r bs).1 = [] := by
  fun_cases cut r bs <;> simp_all

theorem written_cut (r : Region) (bs : Bytes) : (cut r bs).1 ++ written (cut r bs).2 = bs := by
  fun_induction cut r bs <;> simp_all [written, Piece.written, cut_fst]

theorem left_cut (r : Region) (bs : Bytes) : left (cut r bs).2 = strip r bs := by
  fun_induction cut r bs <;> simp_all [left, Piece.left, strip]

theorem unclosed_nil : Unclosed [] := by
  intro hinfix
  exact absurd (List.infix_nil.mp hinfix) (by simp)

/-- A byte in front of an open comment closes it only if it is a star before a slash. -/
theorem Unclosed.cons {c : UInt8} {body : Bytes} (h : Unclosed body) (hc : c = 0x2A → body.head? ≠ some 0x2F) :
    Unclosed (c :: body) := by
  intro hinfix
  rcases List.infix_cons_iff.mp hinfix with hprefix | hinfix
  · obtain ⟨rest, hrest⟩ := hprefix
    obtain ⟨rfl, rfl⟩ := List.cons.inj hrest
    exact hc rfl rfl
  · exact h hinfix

/-- What is still to come of a line comment. -/
theorem formed_lineComment (bs : Bytes) : (Piece.lineComment (cut .lineComment bs).1).Formed := by
  induction bs with
  | nil => exact List.not_mem_nil
  | cons c rest ih =>
    by_cases hc : c = 0x0A
    · rw [hc]
      exact List.not_mem_nil
    · rw [cut]
      · exact List.not_mem_cons_of_ne_of_not_mem (Ne.symm hc) ih
      · exact hc

/-- What is still to come of a block comment. -/
theorem formed_blockComment (bs : Bytes) : (Piece.blockComment (cut .blockComment bs).1).Formed := by
  induction bs with
  | nil => exact Or.inl unclosed_nil
  | cons c rest ih =>
    by_cases hclose : c = 0x2A ∧ ∃ tail, rest = 0x2F :: tail
    · obtain ⟨rfl, tail, rfl⟩ := hclose
      exact Or.inr ⟨[], rfl, unclosed_nil⟩
    · -- the comment goes on as the text does, so `c` does not close it
      have hgo : ∀ tail, c = 0x2A → rest ≠ 0x2F :: tail := fun tail hc hrest => hclose ⟨hc, tail, hrest⟩
      have hnext : c = 0x2A → (cut .blockComment rest).1.head? ≠ some 0x2F := by
        intro hc hhead
        obtain ⟨tail, htail⟩ := List.head?_eq_some_iff.mp hhead
        have hrest := written_cut .blockComment rest
        rw [htail, List.cons_append] at hrest
        exact hgo _ hc hrest.symm
      have hcons : (cut .blockComment (c :: rest)).1 = c :: (cut .blockComment rest).1 := by
        rw [cut]
        exact fun tail hc hrest => hgo tail hc hrest
      rw [hcons]
      rcases ih with hopen | ⟨text, htext, hopen⟩
      · exact Or.inl (hopen.cons hnext)
      · refine Or.inr ⟨c :: text, by rw [htext, List.cons_append], hopen.cons ?_⟩
        intro hc hslash
        obtain ⟨tail, rfl⟩ := List.head?_eq_some_iff.mp hslash
        exact hnext hc (by rw [htext]; rfl)

theorem formed_cut (r : Region) (bs : Bytes) : ∀ p ∈ (cut r bs).2, p.Formed := by
  have hbyte : ∀ {b : UInt8} {ps : List Piece}, (∀ p ∈ ps, p.Formed) → ∀ p ∈ Piece.byte b :: ps, p.Formed :=
    fun h => List.forall_mem_cons.mpr ⟨trivial, h⟩
  fun_induction cut r bs with
  | case1 => exact fun p hp => absurd hp List.not_mem_nil
  | case3 rest ih => exact List.forall_mem_cons.mpr ⟨formed_lineComment rest, ih⟩
  | case4 rest ih => exact List.forall_mem_cons.mpr ⟨formed_blockComment rest, ih⟩
  | case6 c rest ih => exact hbyte (hbyte ih)
  | case10 | case11 | case12 => assumption
  | case2 | case5 | case7 | case8 | case9 => exact hbyte (by assumption)

/-! The second pass goes over what the first has left, piece by piece. -/

theorem written_cutCommas (q : Quoting) (ps : List Piece) : written (cutCommas q ps) = written ps := by
  fun_induction cutCommas q ps <;> simp_all [written, Piece.written]

theorem left_cutCommas (q : Quoting) (ps : List Piece) : left (cutCommas q ps) = dropCommas q (left ps) := by
  fun_induction cutCommas q ps <;> simp_all [left, Piece.left, dropCommas]

theorem formed_cutCommas (q : Quoting) (ps : List Piece) (h : ∀ p ∈ ps, p.Formed) :
    ∀ p ∈ cutCommas q ps, p.Formed := by
  fun_induction cutCommas q ps <;> simp_all [Piece.Formed]

/-- **The pieces of a text** are the text. -/
theorem written_pieces (bs : Bytes) : written (pieces bs) = bs := by
  have hcut := written_cut .code bs
  rw [cut_fst (Or.inl rfl), List.nil_append] at hcut
  exact (written_cutCommas .outside _).trans hcut

/-- **What is left of them** is the plain document. -/
theorem left_pieces (bs : Bytes) : left (pieces bs) = normalize bs := by
  unfold pieces normalize withoutCommas withoutComments
  rw [left_cutCommas, left_cut]

theorem formed_pieces (bs : Bytes) : ∀ p ∈ pieces bs, p.Formed :=
  formed_cutCommas .outside _ (formed_cut .code bs)

/-! ## Lines -/

/-- **The line feeds of some pieces** are those that are left of them, and those of their block comments. -/
theorem count_written (h : ∀ p ∈ ps, p.Formed) :
    (written ps).count 0x0A = (left ps).count 0x0A + linesLost ps := by
  induction ps with
  | nil => rfl
  | cons p ps ih =>
    obtain ⟨hp, hps⟩ := List.forall_mem_cons.mp h
    have hpiece : p.written.count 0x0A = p.left.count 0x0A + p.linesLost := by
      cases p with
      | byte b => rfl
      | comma => rfl
      | lineComment body => simp [Piece.written, Piece.left, Piece.linesLost, List.count_eq_zero.mpr hp]
      | blockComment body => simp [Piece.written, Piece.left, Piece.linesLost]
    have hsum : linesLost (p :: ps) = p.linesLost + linesLost ps := rfl
    have hwritten : written (p :: ps) = p.written ++ written ps := rfl
    have hleft : left (p :: ps) = p.left ++ left ps := rfl
    rw [hsum, hwritten, hleft, List.count_append, List.count_append, hpiece, ih hps]
    omega

end SharedPorts.Jsonc

namespace SharedPorts.Json

variable {care : Care} {s s' : State} {b : UInt8} {bs front back : Bytes} {kind : FaultKind}

/-! ## Faults -/

/-- **What a fault is put to.** Of the rest of a document, the reader takes the bytes of `front`; then it
    refuses the last of them, or what stood before the next byte, or the end of the document. -/
inductive Blames (care : Care) : State → Bytes → Bytes → FaultKind → Prop
  | here {s : State} {b : UInt8} {back : Bytes} (h : s.step care b = .error .here) :
      Blames care s [b] back .malformed
  | before {s : State} {b : UInt8} {back : Bytes} (h : s.step care b = .error .before) :
      Blames care s [] (b :: back) .malformed
  | ended {s : State} {kind : FaultKind} (h : s.finish care = .error kind) : Blames care s [] [] kind
  | step {s s' : State} {b : UInt8} {front back : Bytes} {kind : FaultKind} (h : s.step care b = .ok s')
      (hrest : Blames care s' front back kind) : Blames care s (b :: front) back kind

theorem lineAfter_add (line : Nat) (b : UInt8) (front : Bytes) :
    lineAfter line b + front.count 0x0A = line + (b :: front).count 0x0A := by
  unfold lineAfter
  rw [List.count_cons]
  split <;> omega

/-- **The line of a fault** is counted up to what the fault is put to. -/
theorem readFrom_eq_error {line : Nat} {fault : Fault} (h : readFrom care line s bs = .error fault) :
    ∃ front back, bs = front ++ back ∧ Blames care s front back fault.kind ∧
      fault.line = line + front.count 0x0A := by
  induction bs generalizing s line with
  | nil =>
    unfold readFrom at h
    cases hfinish : s.finish care with
    | ok t =>
      rw [hfinish] at h
      exact absurd h (by simp [Except.mapError])
    | error kind =>
      rw [hfinish] at h
      obtain rfl := Except.error.inj h
      exact ⟨[], [], rfl, .ended hfinish, rfl⟩
  | cons b bs ih =>
    unfold readFrom at h
    cases hstep : s.step care b with
    | ok s' =>
      rw [hstep] at h
      obtain ⟨front, back, rfl, hblames, hline⟩ := ih h
      exact ⟨b :: front, back, rfl, .step hstep hblames, hline.trans (lineAfter_add line b front)⟩
    | error refusal =>
      rw [hstep] at h
      cases refusal with
      | here =>
        obtain rfl := Except.error.inj h
        exact ⟨[b], bs, rfl, .here hstep, lineAfter_add line b []⟩
      | before =>
        obtain rfl := Except.error.inj h
        exact ⟨[], b :: bs, rfl, .before hstep, rfl⟩

end SharedPorts.Json

namespace SharedPorts.Jsonc

/-! ## Files -/

/-- Of a piece one byte is left, or none. -/
theorem Piece.left_cases (p : Piece) : p.left = [] ∨ ∃ b, p.left = [b] := by
  cases p with
  | byte b => exact Or.inr ⟨b, rfl⟩
  | blockComment body => exact Or.inr ⟨0x20, rfl⟩
  | lineComment body => exact Or.inl rfl
  | comma => exact Or.inl rfl

/-- Wherever the plain document is divided, so can be the pieces that it is left of. -/
theorem exists_append_of_left {ps : List Piece} {f g : Bytes} (h : left ps = f ++ g) :
    ∃ front back, ps = front ++ back ∧ left front = f ∧ left back = g := by
  induction ps generalizing f with
  | nil =>
    obtain ⟨rfl, rfl⟩ := List.append_eq_nil_iff.mp h.symm
    exact ⟨[], [], rfl, rfl, rfl⟩
  | cons p ps ih =>
    have hcons : ∀ front, left (p :: front) = p.left ++ left front := fun _ => rfl
    rw [hcons] at h
    rcases p.left_cases with hp | ⟨b, hp⟩
    · rw [hp, List.nil_append] at h
      obtain ⟨front, back, rfl, rfl, hg⟩ := ih h
      exact ⟨p :: front, back, rfl, by rw [hcons, hp, List.nil_append], hg⟩
    · rw [hp] at h
      cases f with
      | nil => exact ⟨[], p :: ps, rfl, rfl, by rw [hcons, hp, h, List.nil_append]⟩
      | cons c f =>
        obtain ⟨rfl, hrest⟩ := List.cons.inj h
        obtain ⟨front, back, rfl, rfl, hg⟩ := ih hrest
        exact ⟨p :: front, back, rfl, by rw [hcons, hp, List.singleton_append], hg⟩

end SharedPorts.Jsonc

namespace SharedPorts.PortLabels

open Json Jsonc

/-- **Lines are lost in block comments only.** Before every byte that is kept of a file, there are as many
    line feeds as before it in the plain document, and those of the block comments before it. So the line
    that is reported of a fault is the line of what it is put to, less the lines of those comments. -/
theorem ofFile_lines (bs : Bytes) :
    (written (pieces bs) = bs ∧ left (pieces bs) = normalize bs ∧ ∀ p ∈ pieces bs, p.Formed) ∧
    (∀ front b back, pieces bs = front ++ .byte b :: back →
      (written front).count 0x0A = (left front).count 0x0A + linesLost front) ∧
    ∀ fault, ofFile bs = .error (.invalidJson fault) →
      ∃ front back, pieces bs = front ++ back ∧ Blames .full .start (left front) (left back) fault.kind ∧
        fault.line + linesLost front = 1 + (written front).count 0x0A := by
  have hlines : ∀ front back, pieces bs = front ++ back →
      (written front).count 0x0A = (left front).count 0x0A + linesLost front := by
    intro front back hcut
    apply count_written
    intro p hp
    apply formed_pieces bs p
    rw [hcut]
    exact List.mem_append_left back hp
  refine ⟨⟨written_pieces bs, left_pieces bs, formed_pieces bs⟩, fun front b back => hlines front _, ?_⟩
  intro fault h
  have hread : read .full (left (pieces bs)) = .error fault := by
    rw [left_pieces]
    unfold ofFile at h
    cases hread : read .full (normalize bs) with
    | error fault' =>
      rw [hread] at h
      obtain rfl := LabelsError.invalidJson.inj (Except.error.inj h)
      rfl
    | ok t =>
      rw [hread] at h
      dsimp only at h
      split at h <;> simp at h
  obtain ⟨f, g, hleft, hblames, hline⟩ := readFrom_eq_error hread
  obtain ⟨front, back, hcut, rfl, rfl⟩ := exists_append_of_left hleft
  refine ⟨front, back, hcut, hblames, ?_⟩
  rw [hline, hlines front back hcut]
  omega

/-- A block comment that ends on the second line, and what is no word behind it. -/
def belated : Bytes := Utf8.encode "/*\n*/ x"

/-- The fault of this file is put to its last byte, which stands on the second line. It is reported on the
    first. -/
theorem ofFile_lines_belated :
    ofFile belated = .error (.invalidJson ⟨.malformed, 1⟩) ∧
    ∃ front back, pieces belated = front ++ back ∧ Blames .full .start (left front) (left back) .malformed ∧
      1 + linesLost front = 1 + (written front).count 0x0A := by
  have hfault : ofFile belated = .error (.invalidJson ⟨.malformed, 1⟩) := by rfl
  exact ⟨hfault, (ofFile_lines belated).2.2 _ hfault⟩

/-- **A block comment loses lines**: the number of line feeds before a byte is not kept, and a fault is not
    reported on the line that it is put to. -/
theorem lines_fail :
    (¬ ∀ bs front b back, pieces bs = front ++ .byte b :: back →
      (left front).count 0x0A = (written front).count 0x0A) ∧
    ¬ ∀ bs fault front back, ofFile bs = .error (.invalidJson fault) → pieces bs = front ++ back →
      Blames .full .start (left front) (left back) fault.kind → fault.line = 1 + (written front).count 0x0A := by
  have hfault : ofFile belated = .error (.invalidJson ⟨.malformed, 1⟩) := by rfl
  have hpieces : pieces belated = [.blockComment [0x0A, 0x2A, 0x2F], .byte 0x20, .byte 0x78] := by rfl
  have hblames : Blames .full .start [0x20, 0x20, 0x78] [] .malformed := .step rfl (.step rfl (.here rfl))
  constructor
  · intro h
    have hcount := h belated [.blockComment [0x0A, 0x2A, 0x2F], .byte 0x20] 0x78 [] hpieces
    exact absurd hcount (by decide)
  · intro h
    have hline := h belated _ [.blockComment [0x0A, 0x2A, 0x2F], .byte 0x20, .byte 0x78] [] hfault hpieces hblames
    exact absurd hline (by decide)

end SharedPorts.PortLabels
