import SharedPorts.PortLabels
import SharedPorts.Proofs.Json.Tokens

/-!
# `SharedPorts.Proofs.Jsonc.Leniency` — comments and trailing commas mean nothing

A document may be written with comments between its tokens and with a comma before a closing brace. Both
passes over such a text leave the tokens as they are and turn everything between them into blanks. So the
plain document is read as the document would have been read without them.

## Contents
- **Loosened documents.** `Trivia`, `Ending`, `Gap` and `Loosened`.
- **The first pass.** `strip_trivia`, `strip_ending` and `strip_token`.
- **The second pass.** `dropCommas_blanks` and `dropCommas_token`; `Loosened.closesNext`.
- **Reading.** `Loosened.accepts`, `loosened_self`, and the main statement `PortLabels.ofFile_loosened`.
-/

namespace SharedPorts.Jsonc

open Json

variable {care : Care} {t : Tree} {s : State} {c : UInt8} {body d g loose rest tok w : Bytes}

/-! ## Loosened documents -/

/-- No block comment is closed here. -/
def Unclosed (body : Bytes) : Prop := ¬ [0x2A, 0x2F] <:+: body

instance (body : Bytes) : Decidable (Unclosed body) := inferInstanceAs (Decidable (¬ [0x2A, 0x2F] <:+: body))

/-- **Trivia**: any mix of blanks, line comments with their line feeds, and closed block comments. What
    stands in a comment may be any bytes. -/
inductive Trivia : Bytes → Prop
  | nil : Trivia []
  | blank {c : UInt8} {g : Bytes} (hc : isSpace c = true) (h : Trivia g) : Trivia (c :: g)
  | line {body g : Bytes} (hb : 0x0A ∉ body) (h : Trivia g) : Trivia (0x2F :: 0x2F :: (body ++ 0x0A :: g))
  | block {body g : Bytes} (hb : Unclosed body) (h : Trivia g) :
      Trivia (0x2F :: 0x2A :: (body ++ 0x2A :: 0x2F :: g))

/-- What may stand behind the last token: trivia, of which the last comment may be open. -/
inductive Ending : Bytes → Prop
  | trivia {g : Bytes} (h : Trivia g) : Ending g
  | line {g body : Bytes} (h : Trivia g) (hb : 0x0A ∉ body) : Ending (g ++ 0x2F :: 0x2F :: body)
  | block {g body : Bytes} (h : Trivia g) (hb : Unclosed body) : Ending (g ++ 0x2F :: 0x2A :: body)

/-- What may stand in front of a token: trivia, and in front of a closing brace one comma. -/
inductive Gap : Bytes → Bytes → Prop
  | trivia {tok g : Bytes} (h : Trivia g) : Gap tok g
  | comma {g g' : Bytes} (h : Trivia g) (h' : Trivia g') : Gap [0x7D] (g ++ 0x2C :: g')

/-- **A loosened document**: `loose` has the tokens of `d`, with more between them than the blanks that `d`
    has there. -/
inductive Loosened : Bytes → Bytes → Prop
  | ended {w g : Bytes} (hw : Blanks w) (hg : Ending g) : Loosened w g
  | token {w g tok d loose : Bytes} (hw : Blanks w) (hg : Gap tok g) (htok : Token tok) (hapart : Apart tok d)
      (h : Loosened d loose) : Loosened (w ++ (tok ++ d)) (g ++ (tok ++ loose))

/-! ## The first pass -/

theorem strip_code_byte (hq : c ≠ 0x22) (hs : c ≠ 0x2F) : strip .code (c :: rest) = c :: strip .code rest := by
  rw [strip.eq_def]
  split <;> simp_all

theorem strip_lineComment (hb : 0x0A ∉ body) :
    strip .lineComment (body ++ 0x0A :: rest) = 0x0A :: strip .code rest := by
  induction body with
  | nil => simp [strip]
  | cons c body ih =>
    have hc : c ≠ 0x0A := fun heq => hb (heq ▸ List.mem_cons_self)
    rw [List.cons_append, strip]
    · exact ih (fun hmem => hb (List.mem_cons_of_mem c hmem))
    · exact hc

theorem strip_lineComment_open (hb : 0x0A ∉ body) : strip .lineComment body = [] := by
  induction body with
  | nil => rfl
  | cons c body ih =>
    have hc : c ≠ 0x0A := fun heq => hb (heq ▸ List.mem_cons_self)
    rw [strip]
    · exact ih (fun hmem => hb (List.mem_cons_of_mem c hmem))
    · exact hc

theorem Unclosed.tail (h : Unclosed (c :: body)) : Unclosed body :=
  fun hbody => h (hbody.trans (List.suffix_cons c body).isInfix)

theorem strip_blockComment (hb : Unclosed body) :
    strip .blockComment (body ++ 0x2A :: 0x2F :: rest) = strip .code rest := by
  induction body with
  | nil => simp [strip]
  | cons c body ih =>
    rw [List.cons_append, strip]
    · exact ih hb.tail
    · -- the comment is closed behind `c` only if `c` is a star and a slash follows it
      rintro rest' rfl heq
      cases body with
      | nil => simp at heq
      | cons d body =>
        obtain rfl : d = 0x2F := (List.cons.inj heq).1
        exact hb ⟨[], body, rfl⟩

theorem strip_blockComment_open (hb : Unclosed body) : strip .blockComment body = [] := by
  induction body with
  | nil => rfl
  | cons c body ih =>
    rw [strip]
    · exact ih hb.tail
    · rintro rest' rfl rfl
      exact hb ⟨[], rest', rfl⟩

/-- **Trivia become blanks** in the first pass. -/
theorem strip_trivia (h : Trivia g) : ∃ w, Blanks w ∧ ∀ rest, strip .code (g ++ rest) = w ++ strip .code rest := by
  induction h with
  | nil => exact ⟨[], blanks_nil, fun _ => rfl⟩
  | @blank c g hc _ ih =>
    obtain ⟨w, hw, hstrip⟩ := ih
    refine ⟨c :: w, hw.cons hc, fun rest => ?_⟩
    have hq : c ≠ 0x22 := by rintro rfl; exact absurd hc (by decide)
    have hs : c ≠ 0x2F := by rintro rfl; exact absurd hc (by decide)
    rw [List.cons_append, strip_code_byte hq hs, hstrip, List.cons_append]
  | @line body g hb _ ih =>
    obtain ⟨w, hw, hstrip⟩ := ih
    refine ⟨0x0A :: w, hw.cons rfl, fun rest => ?_⟩
    have hcomment : strip .code (0x2F :: 0x2F :: (body ++ 0x0A :: (g ++ rest))) =
        0x0A :: strip .code (g ++ rest) := by
      rw [strip, strip_lineComment hb]
    rw [List.cons_append, List.cons_append, List.append_assoc, List.cons_append, hcomment, hstrip,
      List.cons_append]
  | @block body g hb _ ih =>
    obtain ⟨w, hw, hstrip⟩ := ih
    refine ⟨0x20 :: w, hw.cons rfl, fun rest => ?_⟩
    have hcomment : strip .code (0x2F :: 0x2A :: (body ++ 0x2A :: 0x2F :: (g ++ rest))) =
        0x20 :: strip .code (g ++ rest) := by
      rw [strip, strip_blockComment hb]
    rw [List.cons_append, List.cons_append, List.append_assoc, List.cons_append, List.cons_append, hcomment,
      hstrip, List.cons_append]

/-- What stands behind the last token becomes blanks too. -/
theorem strip_ending (h : Ending g) : Blanks (strip .code g) := by
  cases h with
  | trivia h =>
    obtain ⟨w, hw, hstrip⟩ := strip_trivia h
    have hg := hstrip []
    rw [List.append_nil] at hg
    rw [hg]
    exact hw.append blanks_nil
  | line h hb =>
    obtain ⟨w, hw, hstrip⟩ := strip_trivia h
    rw [hstrip, strip, strip_lineComment_open hb]
    exact hw.append blanks_nil
  | block h hb =>
    obtain ⟨w, hw, hstrip⟩ := strip_trivia h
    rw [hstrip, strip, strip_blockComment_open hb]
    exact hw.append (blanks_nil.cons rfl)

theorem strip_quoted {u : Bytes} (h : Quoted u) : strip .string (u ++ rest) = u ++ strip .code rest := by
  induction h with
  | close => simp [strip]
  | @byte c u hq hb _ ih =>
    rw [List.cons_append, strip, ih, List.cons_append]
    · rintro _ _ rfl
      exact absurd rfl hb
    · exact hq
  | escape _ ih => rw [List.cons_append, List.cons_append, strip, ih, List.cons_append, List.cons_append]

theorem strip_word (h : ∀ c ∈ w, isWordByte c = true) : strip .code (w ++ rest) = w ++ strip .code rest := by
  induction w with
  | nil => rfl
  | cons c w ih =>
    have hc : isWordByte c = true := h c List.mem_cons_self
    have hq : c ≠ 0x22 := ne_of_isWordByte hc rfl
    have hs : c ≠ 0x2F := ne_of_isWordByte hc rfl
    rw [List.cons_append, strip_code_byte hq hs, ih (fun d hd => h d (List.mem_cons_of_mem c hd)),
      List.cons_append]

/-- **A token stays** in the first pass, comment markers in strings included. -/
theorem strip_token (h : Token tok) : strip .code (tok ++ rest) = tok ++ strip .code rest := by
  cases h with
  | mark hb =>
    apply strip_code_byte
    · rintro rfl
      exact absurd hb (by decide)
    · rintro rfl
      exact absurd hb (by decide)
  | word hw => exact strip_word hw
  | string hu => rw [List.cons_append, strip, strip_quoted hu, List.cons_append]

/-! ## The second pass -/

theorem dropCommas_keep {q : Quoting} (h : ¬ (q = .outside ∧ c = 0x2C ∧ closesNext rest = true)) :
    dropCommas q (c :: rest) = c :: dropCommas (q.after c) rest := by
  rw [dropCommas, if_neg h]

theorem dropCommas_byte (hc : c ≠ 0x2C) (hq : c ≠ 0x22) :
    dropCommas .outside (c :: rest) = c :: dropCommas .outside rest := by
  rw [dropCommas_keep (by simp [hc])]
  simp [Quoting.after, hq]

/-- **Blanks stay** in the second pass. -/
theorem dropCommas_blanks (hw : Blanks w) : dropCommas .outside (w ++ rest) = w ++ dropCommas .outside rest := by
  induction w with
  | nil => rfl
  | cons c w ih =>
    have hc : isSpace c = true := hw c List.mem_cons_self
    have hcomma : c ≠ 0x2C := by rintro rfl; exact absurd hc (by decide)
    have hq : c ≠ 0x22 := by rintro rfl; exact absurd hc (by decide)
    rw [List.cons_append, dropCommas_byte hcomma hq, ih (fun d hd => hw d (List.mem_cons_of_mem c hd)),
      List.cons_append]

theorem dropCommas_quoted {u : Bytes} (h : Quoted u) :
    dropCommas .inside (u ++ rest) = u ++ dropCommas .outside rest := by
  induction h with
  | close =>
    rw [List.cons_append, dropCommas_keep (by simp)]
    rfl
  | @byte c u hq hb _ ih =>
    rw [List.cons_append, dropCommas_keep (by simp)]
    simp [Quoting.after, hq, hb, ih]
  | escape _ ih =>
    rw [List.cons_append, dropCommas_keep (by simp), List.cons_append, dropCommas_keep (by simp [Quoting.after])]
    simp [Quoting.after, ih]

theorem dropCommas_word (h : ∀ c ∈ w, isWordByte c = true) :
    dropCommas .outside (w ++ rest) = w ++ dropCommas .outside rest := by
  induction w with
  | nil => rfl
  | cons c w ih =>
    have hc : isWordByte c = true := h c List.mem_cons_self
    have hcomma : c ≠ 0x2C := ne_of_isWordByte hc rfl
    have hq : c ≠ 0x22 := ne_of_isWordByte hc rfl
    rw [List.cons_append, dropCommas_byte hcomma hq, ih (fun d hd => h d (List.mem_cons_of_mem c hd)),
      List.cons_append]

/-- **A token stays** in the second pass, unless it is a comma before a closing brace. -/
theorem dropCommas_token (h : Token tok) (hcomma : tok = [0x2C] → closesNext rest = false) :
    dropCommas .outside (tok ++ rest) = tok ++ dropCommas .outside rest := by
  cases h with
  | @mark b hb =>
    have hq : b ≠ 0x22 := by rintro rfl; exact absurd hb (by decide)
    rw [List.singleton_append, dropCommas_keep ?_]
    · simp [Quoting.after, hq]
    · rintro ⟨-, rfl, hclose⟩
      exact absurd (hclose.symm.trans (hcomma rfl)) (by simp)
  | word hw => exact dropCommas_word hw
  | string hu =>
    rw [List.cons_append, dropCommas_keep (by simp)]
    simp [Quoting.after, dropCommas_quoted hu]

theorem isBlankByte_of_isSpace (h : isSpace c = true) : isBlankByte c = true := by
  rcases isSpace_cases h with rfl | rfl | rfl | rfl <;> rfl

theorem closesNext_blanks (hw : Blanks w) : closesNext (w ++ rest) = closesNext rest := by
  unfold closesNext
  rw [List.dropWhile_append_of_pos]
  intro c hc
  exact isBlankByte_of_isSpace (hw c hc)

theorem closesNext_cons (hc : isBlankByte c = false) : closesNext (c :: rest) = (c == 0x7D) := by
  simp [closesNext, hc]

/-- A closing brace comes next where the next token is one. -/
theorem closesNext_token (h : Token tok) (hclose : closesNext (tok ++ rest) = true) : tok = [0x7D] := by
  cases h with
  | @mark b hb =>
    have hblank : isBlankByte b = false := by
      rcases isMark_cases hb with rfl | rfl | rfl | rfl | rfl | rfl <;> rfl
    rw [List.singleton_append, closesNext_cons hblank] at hclose
    rw [beq_iff_eq.mp hclose]
  | @word b w hw =>
    have hb : isWordByte b = true := hw b List.mem_cons_self
    have hbrace : b ≠ 0x7D := ne_of_isWordByte hb rfl
    have hblank : isBlankByte b = false := by
      have hne : ∀ c, isWordByte c = false → (b == c) = false := fun c hc => beq_false_of_ne (ne_of_isWordByte hb hc)
      simp [isBlankByte, hne 0x20 rfl, hne 0x09 rfl, hne 0x0A rfl, hne 0x0C rfl, hne 0x0D rfl]
    rw [List.cons_append, closesNext_cons hblank] at hclose
    exact absurd (beq_iff_eq.mp hclose) hbrace
  | string _ =>
    rw [List.cons_append, closesNext_cons rfl] at hclose
    exact absurd hclose (by decide)

/-- **A gap becomes blanks** in both passes, its comma included, and the token behind it stays. -/
theorem normalize_gap (hg : Gap tok g) (htok : Token tok)
    (hcomma : tok = [0x2C] → closesNext (strip .code rest) = false) :
    ∃ w, Blanks w ∧ dropCommas .outside (strip .code (g ++ (tok ++ rest))) =
      w ++ (tok ++ dropCommas .outside (strip .code rest)) := by
  cases hg with
  | trivia hg =>
    obtain ⟨w, hw, hstrip⟩ := strip_trivia hg
    refine ⟨w, hw, ?_⟩
    rw [hstrip, strip_token htok, dropCommas_blanks hw, dropCommas_token htok hcomma]
  | @comma g g' hg hg' =>
    obtain ⟨w, hw, hstrip⟩ := strip_trivia hg
    obtain ⟨w', hw', hstrip'⟩ := strip_trivia hg'
    refine ⟨w ++ w', hw.append hw', ?_⟩
    have hpass : strip .code ((g ++ 0x2C :: g') ++ ([0x7D] ++ rest)) =
        w ++ 0x2C :: (w' ++ ([0x7D] ++ strip .code rest)) := by
      rw [List.append_assoc, hstrip, List.cons_append, strip_code_byte (by decide) (by decide), hstrip',
        strip_token htok]
    have hclose : closesNext (w' ++ ([0x7D] ++ strip .code rest)) = true := by
      rw [closesNext_blanks hw']
      rfl
    rw [hpass, dropCommas_blanks hw, dropCommas, if_pos ⟨rfl, rfl, hclose⟩, dropCommas_blanks hw',
      dropCommas_token htok hcomma, List.append_assoc]

/-- A closing brace comes next in what the first pass leaves of a loosened document only if it comes next in
    the document. -/
theorem Loosened.closesNext (h : Loosened d loose) (hclose : closesNext (strip .code loose) = true) :
    ∃ w rest, Blanks w ∧ d = w ++ 0x7D :: rest := by
  cases h with
  | ended hw hg =>
    rw [← List.append_nil (strip .code _), closesNext_blanks (strip_ending hg)] at hclose
    exact absurd hclose (by decide)
  | @token w g tok d loose hw hg htok hapart h =>
    suffices hbrace : tok = [0x7D] by
      rw [hbrace]
      exact ⟨w, d, hw, rfl⟩
    cases hg with
    | comma _ _ => rfl
    | trivia hg =>
      obtain ⟨w', hw', hstrip⟩ := strip_trivia hg
      rw [hstrip, strip_token htok, closesNext_blanks hw'] at hclose
      exact closesNext_token htok hclose

/-! ## Reading -/

/-- **What is accepted of a document** is accepted of what both passes leave of it when it is loosened. -/
theorem Loosened.accepts (h : Loosened d loose) (hs : s.between = true)
    (hn : s.inNumber = true → ∀ c ∈ d.head?, isWordByte c = false) (ha : Accepts care t s d) :
    Accepts care t s (dropCommas .outside (strip .code loose)) := by
  induction h generalizing s with
  | @ended w g hw hg =>
    have hblanks : Blanks (strip .code g) := strip_ending hg
    have hdrop : dropCommas .outside (strip .code g) = strip .code g ++ [] := by
      have hkeep : dropCommas .outside (strip .code g ++ []) = strip .code g ++ [] := dropCommas_blanks hblanks
      rw [List.append_nil] at hkeep ⊢
      exact hkeep
    rw [hdrop, accepts_blanks_iff hblanks hs]
    · rw [← List.append_nil w] at ha hn
      exact (accepts_blanks_iff hw hs hn).mp ha
    · intro _ c hc
      rw [List.append_nil] at hc
      exact not_isWordByte_of_isSpace (hblanks c (List.mem_of_mem_head? hc))
  | @token w g tok d loose hw hg htok hapart h ih =>
    obtain ⟨s₀, hsettle, ha₀⟩ := (accepts_blanks_iff hw hs hn).mp ha
    obtain ⟨hs₀, hn₀⟩ := between_of_settle hs hsettle
    obtain ⟨s₁, ⟨hs₁, ha₁, hall⟩, hn₁⟩ := htok.accepts hapart hs₀ hn₀ ha₀
    -- a comma of the document itself is followed by no closing brace
    have hcomma : tok = [0x2C] → Jsonc.closesNext (strip .code loose) = false := by
      rintro rfl
      cases hclose : Jsonc.closesNext (strip .code loose) with
      | false => rfl
      | true =>
        obtain ⟨w', rest, hw', rfl⟩ := h.closesNext hclose
        have hnext : next? (w' ++ 0x7D :: rest) = some 0x7D :=
          next?_append (fun c hc => isWhite_of_isSpace (hw' c hc))
        have hmark : ∀ c ∈ next? (w' ++ 0x7D :: rest), c = 0x5D ∨ c = 0x2C ∨ c = 0x7D := by
          intro c hc
          rw [hnext] at hc
          exact Or.inr (Or.inr (Option.some.inj hc).symm)
        exact absurd ha₀ (not_accepts_behind_comma hs₀ hn₀ hmark)
    obtain ⟨w', hw', hpass⟩ := normalize_gap hg htok hcomma
    have hhead : s.inNumber = true →
        ∀ c ∈ (w' ++ (tok ++ dropCommas .outside (strip .code loose))).head?, isWordByte c = false := by
      intro hin c hc
      cases w' with
      | cons b w' =>
        obtain rfl : b = c := by simpa using hc
        exact not_isWordByte_of_isSpace (hw' b List.mem_cons_self)
      | nil =>
        obtain ⟨b, bs, hcons⟩ := List.exists_cons_of_ne_nil htok.ne_nil
        refine not_isWordByte_of_settle hin hsettle ha₀ c ?_
        rw [hcons] at hc ⊢
        exact hc
    rw [hpass, accepts_blanks_iff hw' hs hhead]
    exact ⟨s₀, hsettle, hall _ (ih hs₁ hn₁ ha₁)⟩

theorem trivia_of_blanks (hw : Blanks w) : Trivia w := by
  induction w with
  | nil => exact .nil
  | cons c w ih => exact .blank (hw c List.mem_cons_self) (ih (fun d hd => hw d (List.mem_cons_of_mem c hd)))

/-- **A document is loosened from itself**, by nothing at all: what is accepted can be cut into tokens. -/
theorem loosened_self (hs : s.between = true) (hn : s.inNumber = true → ∀ c ∈ d.head?, isWordByte c = false)
    (ha : Accepts care t s d) : Loosened d d := by
  -- each token leaves a shorter rest
  induction hlen : d.length using Nat.strongRecOn generalizing s d with
  | ind n ih =>
    have hcut : d = d.takeWhile isSpace ++ d.dropWhile isSpace := List.takeWhile_append_dropWhile.symm
    have hw : Blanks (d.takeWhile isSpace) := fun c hc => List.mem_takeWhile_imp hc
    have hstop := List.head?_dropWhile_not isSpace d
    generalize d.takeWhile isSpace = w at hcut hw
    generalize d.dropWhile isSpace = rest at hcut hstop
    cases rest with
    | nil =>
      rw [List.append_nil] at hcut
      rw [hcut]
      exact .ended hw (.trivia (trivia_of_blanks hw))
    | cons b rest =>
      have hspace : isSpace b = false := by simpa using hstop
      rw [hcut] at ha hn
      obtain ⟨s₀, hsettle, ha₀⟩ := (accepts_blanks_iff hw hs hn).mp ha
      obtain ⟨hs₀, hn₀⟩ := between_of_settle hs hsettle
      obtain ⟨tok, d', htok', htok, hapart⟩ := exists_token hs₀ hn₀ hspace ha₀
      rw [htok'] at ha₀ hcut
      obtain ⟨s₁, ⟨hs₁, ha₁, -⟩, hn₁⟩ := htok.accepts hapart hs₀ hn₀ ha₀
      have hshort : d'.length < n := by
        have hpos : 0 < tok.length := List.length_pos_iff.mpr htok.ne_nil
        rw [← hlen, hcut, List.length_append, List.length_append]
        omega
      rw [hcut]
      exact .token hw (.trivia (trivia_of_blanks hw)) htok hapart (ih d'.length hshort hs₁ hn₁ ha₁ rfl)

end SharedPorts.Jsonc

namespace SharedPorts.PortLabels

open Json Jsonc

/-- The labels in a file that is a plain document. -/
def ofDocument (bs : Bytes) : Except LabelsError PortLabels :=
  match read .full bs with
  | .error fault => .error (.invalidJson fault)
  | .ok t =>
    match ofTree? t with
    | none => .error .shape
    | some labels => .ok labels

/-- The labels in a file are those in the plain document that both passes make of it. -/
theorem ofFile_eq (bs : Bytes) : ofFile bs = ofDocument (normalize bs) := rfl

/-- **Comments and trailing commas mean nothing.** A document that is read without them keeps its outcome,
    labels or the wrong shape, however it is loosened; and a file that is such a document already is read
    as it stands. -/
theorem ofFile_loosened (d : Bytes) (t : Tree) (hd : read .full d = .ok t) :
    (∀ loose, Loosened d loose → ofFile loose = ofDocument d) ∧ Loosened d d ∧ ofFile d = ofDocument d ∧
      (ofDocument d = .error .shape ∨ ∃ labels, ofDocument d = .ok labels) := by
  have ha : Accepts .full t .start d := readFrom_eq_ok_iff.mp hd
  have hself : Loosened d d := loosened_self rfl (by simp [State.inNumber, State.start]) ha
  have hloose : ∀ loose, Loosened d loose → ofFile loose = ofDocument d := by
    intro loose h
    have hread : read .full (normalize loose) = .ok t :=
      readFrom_eq_ok_iff.mpr (h.accepts rfl (by simp [State.inNumber, State.start]) ha)
    rw [ofFile_eq, ofDocument, ofDocument, hread, hd]
  refine ⟨hloose, hself, hloose d hself, ?_⟩
  rw [ofDocument, hd]
  dsimp only
  cases ofTree? t with
  | none => exact Or.inl rfl
  | some labels => exact Or.inr ⟨labels, rfl⟩

/-- A comment marker in a string of this document is no comment. Loosened, it has comments in front, behind
    and around a trailing comma; one holds a quote, and the last is never closed. -/
theorem ofFile_loosened_commented :
    read .full (Utf8.encode "\x7b\"/*\": null\x7d") = .ok (.object [([.byte 0x2F, .byte 0x2A], .null)]) ∧
    Loosened (Utf8.encode "\x7b\"/*\": null\x7d")
      (Utf8.encode "/**/\x7b\"/*\":null//\"\n,/***/\x7d/* \x7d") ∧
    ofFile (Utf8.encode "/**/\x7b\"/*\":null//\"\n,/***/\x7d/* \x7d") =
      ofDocument (Utf8.encode "\x7b\"/*\": null\x7d") := by
  have hread : read .full (Utf8.encode "\x7b\"/*\": null\x7d") =
      .ok (.object [([.byte 0x2F, .byte 0x2A], .null)]) := by rfl
  have hblock : ∀ body, Unclosed body → Trivia (0x2F :: 0x2A :: (body ++ [0x2A, 0x2F])) :=
    fun _ h => .block h .nil
  have hline : Trivia (Utf8.encode "//\"\n") := @Trivia.line [0x22] [] (by decide) .nil
  have hquoted : Quoted (Utf8.encode "/*\"") :=
    .byte (by decide) (by decide) (.byte (by decide) (by decide) .close)
  have hend : Loosened [] (Utf8.encode "/* \x7d") :=
    .ended blanks_nil (@Ending.block [] [0x20, 0x7D] .nil (by decide))
  have hbrace : Loosened (Utf8.encode "\x7d") (Utf8.encode "//\"\n,/***/\x7d/* \x7d") :=
    @Loosened.token [] _ [0x7D] _ _ blanks_nil (.comma hline (hblock [0x2A] (by decide)))
      (.mark rfl) (apart_mark rfl) hend
  have hbraceHead : ∀ c ∈ (Utf8.encode "\x7d").head?, isWordByte c = false := by
    intro c hc
    rw [← Option.some.inj hc]
    rfl
  have hnull : Loosened (Utf8.encode " null\x7d") (Utf8.encode "null//\"\n,/***/\x7d/* \x7d") :=
    @Loosened.token [0x20] [] (Utf8.encode "null") _ _ (blanks_nil.cons rfl) (.trivia .nil)
      (.word (List.all_eq_true.mp rfl)) (apart_of_head hbraceHead) hbrace
  have hcolon : Loosened (Utf8.encode ": null\x7d") (Utf8.encode ":null//\"\n,/***/\x7d/* \x7d") :=
    @Loosened.token [] [] [0x3A] _ _ blanks_nil (.trivia .nil) (.mark rfl) (apart_mark rfl) hnull
  have hkey : Loosened (Utf8.encode "\"/*\": null\x7d")
      (Utf8.encode "\"/*\":null//\"\n,/***/\x7d/* \x7d") :=
    @Loosened.token [] [] (Utf8.encode "\"/*\"") _ _ blanks_nil (.trivia .nil) (.string hquoted)
      hquoted.apart hcolon
  have hloose : Loosened (Utf8.encode "\x7b\"/*\": null\x7d")
      (Utf8.encode "/**/\x7b\"/*\":null//\"\n,/***/\x7d/* \x7d") :=
    @Loosened.token [] _ [0x7B] _ _ blanks_nil (.trivia (hblock [] (by decide))) (.mark rfl)
      (apart_mark rfl) hkey
  exact ⟨hread, hloose, (ofFile_loosened _ _ hread).1 _ hloose⟩

end SharedPorts.PortLabels
