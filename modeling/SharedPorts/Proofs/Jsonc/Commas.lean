import SharedPorts.Proofs.Jsonc.Leniency

/-!
# `SharedPorts.Proofs.Jsonc.Commas` — a comma too many is not repaired

The second pass takes a comma out where only blanks stand between it and a closing brace. This repair must
not go further: a comma that a bracket, another comma or the end of the text follows stays an error,
whatever else the text holds and however broken it is.

Two machines go over such a text, the pass and the reader, and each keeps track of strings on its own. As
long as the reader refuses nothing they agree on what is a string, so a comma outside strings comes to the
reader as a comma; and behind a comma the reader takes a value or a key, and no mark.

## Contents
- **Stray commas.** `Code`, `Skipped` and `StrayComma`; `Repaired`, what the second pass may do.
- **The first pass.** `strip_code` and `strip_skipped`.
- **The second pass.** `next?_dropCommas`, `dropCommas_append` and `repaired_dropCommas`.
- **The reader.** `InStep`, that the reader and the second pass agree, and `InStep.append`.
- **Refusal.** `StrayComma.strip`, `StrayComma.not_accepts` and the main statement
  `PortLabels.ofFile_stray_comma`.
-/

namespace SharedPorts.Jsonc

open Json

variable {care : Care} {t : Tree} {s s' : State} {q : Quoting} {b c : UInt8}
variable {bs front g rest u w : Bytes}

/-! ## Stray commas -/

/-- **Code**: what stands before a place outside strings and comments. -/
inductive Code : Bytes → Prop
  | nil : Code []
  /-- A byte that opens neither a string nor a comment. -/
  | byte {c : UInt8} {g : Bytes} (hq : c ≠ 0x22)
      (hc : c = 0x2F → ∀ d ∈ g.head?, d ≠ 0x2F ∧ d ≠ 0x2A) (h : Code g) : Code (c :: g)
  | string {u g : Bytes} (hu : Quoted u) (h : Code g) : Code (0x22 :: (u ++ g))
  | line {body g : Bytes} (hb : 0x0A ∉ body) (h : Code g) : Code (0x2F :: 0x2F :: (body ++ 0x0A :: g))
  | block {body g : Bytes} (hb : Unclosed body) (h : Code g) :
      Code (0x2F :: 0x2A :: (body ++ 0x2A :: 0x2F :: g))

/-- **What is skipped** behind a comma: white space and comments. -/
inductive Skipped : Bytes → Prop
  | trivia {g : Bytes} (h : Trivia g) : Skipped g
  | white {g g' : Bytes} {c : UInt8} (h : Trivia g) (hc : isWhite c = true) (h' : Skipped g') :
      Skipped (g ++ c :: g')

/-- **A stray comma** stands outside strings and comments, before a bracket, another comma or the end of
    the text. -/
inductive StrayComma : Bytes → Prop
  | bracket {front g rest : Bytes} (hf : Code front) (hg : Skipped g) :
      StrayComma (front ++ 0x2C :: (g ++ 0x5D :: rest))
  | comma {front g rest : Bytes} (hf : Code front) (hg : Skipped g) :
      StrayComma (front ++ 0x2C :: (g ++ 0x2C :: rest))
  | ended {front g e : Bytes} (hf : Code front) (hg : Skipped g) (he : Ending e) :
      StrayComma (front ++ 0x2C :: (g ++ e))

/-- **A repair**: some commas are taken out, each before a closing brace of its own with only blanks between
    them, and nothing else changes. -/
inductive Repaired : Bytes → Bytes → Prop
  | nil : Repaired [] []
  | keep {c : UInt8} {bs out : Bytes} (h : Repaired bs out) : Repaired (c :: bs) (c :: out)
  | drop {w bs out : Bytes} (hw : ∀ c ∈ w, isBlankByte c = true) (h : Repaired bs out) :
      Repaired (0x2C :: (w ++ 0x7D :: bs)) (w ++ 0x7D :: out)

/-! ## The first pass -/

/-- A byte that opens nothing stays. -/
theorem strip_plain (hq : c ≠ 0x22) (hc : c = 0x2F → ∀ d ∈ rest.head?, d ≠ 0x2F ∧ d ≠ 0x2A) :
    strip .code (c :: rest) = c :: strip .code rest := by
  by_cases hs : c = 0x2F
  · subst hs
    cases rest with
    | nil => rfl
    | cons d rest =>
      obtain ⟨hline, hblock⟩ := hc rfl d rfl
      rw [strip.eq_def]
      split <;> simp_all
  · exact strip_code_byte hq hs

theorem after_outside (hq : b ≠ 0x22) : Quoting.after .outside b = .outside := by
  simp [Quoting.after, hq]

theorem after_inside (hq : b ≠ 0x22) (hb : b ≠ 0x5C) : Quoting.after .inside b = .inside := by
  simp [Quoting.after, hq, hb]

/-- A string leaves the region that it was opened in. -/
theorem foldl_after_quoted (h : Quoted u) : u.foldl Quoting.after .inside = .outside := by
  induction h with
  | close => rfl
  | @byte c u hq hb _ ih =>
    rw [List.foldl_cons, after_inside hq hb, ih]
  | escape _ ih => exact ih

/-- **Code stays code** in the first pass: what is left of it ends outside strings too. -/
theorem strip_code (h : Code front) :
    ∃ f : Bytes, f.foldl Quoting.after .outside = .outside ∧
      ∀ rest, strip .code (front ++ 0x2C :: rest) = f ++ strip .code (0x2C :: rest) := by
  induction h with
  | nil => exact ⟨[], rfl, fun _ => rfl⟩
  | @byte c g hq hc _ ih =>
    obtain ⟨f, hf, hstrip⟩ := ih
    refine ⟨c :: f, ?_, fun rest => ?_⟩
    · rw [List.foldl_cons, after_outside hq, hf]
    · -- the comma behind the code opens no comment with a slash before it
      have hnext : c = 0x2F → ∀ d ∈ (g ++ 0x2C :: rest).head?, d ≠ 0x2F ∧ d ≠ 0x2A := by
        intro hs d hd
        cases g with
        | nil =>
          obtain rfl := Option.some.inj hd
          decide
        | cons a g => exact hc hs d hd
      rw [List.cons_append, strip_plain hq hnext, hstrip, List.cons_append]
  | @string u g hu _ ih =>
    obtain ⟨f, hf, hstrip⟩ := ih
    refine ⟨0x22 :: (u ++ f), ?_, fun rest => ?_⟩
    · show (u ++ f).foldl Quoting.after .inside = .outside
      rw [List.foldl_append, foldl_after_quoted hu, hf]
    · rw [List.cons_append, List.append_assoc, strip, strip_quoted hu, hstrip, List.cons_append,
        List.append_assoc]
  | @line body g hb _ ih =>
    obtain ⟨f, hf, hstrip⟩ := ih
    refine ⟨0x0A :: f, hf, fun rest => ?_⟩
    rw [List.cons_append, List.cons_append, List.append_assoc, List.cons_append, strip, strip_lineComment hb,
      hstrip, List.cons_append]
  | @block body g hb _ ih =>
    obtain ⟨f, hf, hstrip⟩ := ih
    refine ⟨0x20 :: f, hf, fun rest => ?_⟩
    rw [List.cons_append, List.cons_append, List.append_assoc, List.cons_append, List.cons_append, strip,
      strip_blockComment hb, hstrip, List.cons_append]

/-- What is skipped becomes white space. -/
theorem strip_skipped (h : Skipped g) :
    ∃ w : Bytes, (∀ c ∈ w, isWhite c = true) ∧ ∀ rest, strip .code (g ++ rest) = w ++ strip .code rest := by
  induction h with
  | trivia h =>
    obtain ⟨w, hw, hstrip⟩ := strip_trivia h
    exact ⟨w, fun c hc => isWhite_of_isSpace (hw c hc), hstrip⟩
  | @white g g' c h hc _ ih =>
    obtain ⟨w, hw, hstrip⟩ := strip_trivia h
    obtain ⟨w', hw', hstrip'⟩ := ih
    refine ⟨w ++ c :: w', ?_, fun rest => ?_⟩
    · intro d hd
      rcases List.mem_append.mp hd with hd | hd
      · exact isWhite_of_isSpace (hw d hd)
      · rcases List.mem_cons.mp hd with rfl | hd
        · exact hc
        · exact hw' d hd
    · have hq : c ≠ 0x22 := by rintro rfl; exact absurd hc (by decide)
      have hs : c ≠ 0x2F := by rintro rfl; exact absurd hc (by decide)
      rw [List.append_assoc, List.cons_append, hstrip, strip_code_byte hq hs, hstrip', List.append_assoc,
        List.cons_append]

/-! ## The second pass -/

theorem isWhite_of_isBlankByte (h : isBlankByte c = true) : isWhite c = true := by
  have hcases : c = 0x20 ∨ c = 0x09 ∨ c = 0x0A ∨ c = 0x0C ∨ c = 0x0D := by
    simpa [isBlankByte, or_assoc] using h
  rcases hcases with rfl | rfl | rfl | rfl | rfl <;> rfl

/-- A closing brace that comes next stands behind blanks. -/
theorem closesNext_cases (h : closesNext rest = true) :
    ∃ w bs, rest = w ++ 0x7D :: bs ∧ ∀ c ∈ w, isBlankByte c = true := by
  have hcut : rest.takeWhile isBlankByte ++ rest.dropWhile isBlankByte = rest :=
    List.takeWhile_append_dropWhile
  have hw : ∀ c ∈ rest.takeWhile isBlankByte, isBlankByte c = true := fun c hc => List.mem_takeWhile_imp hc
  have hbrace : (rest.dropWhile isBlankByte).head? = some 0x7D := beq_iff_eq.mp h
  obtain ⟨bs, hbs⟩ := List.head?_eq_some_iff.mp hbrace
  rw [hbs] at hcut
  exact ⟨_, bs, hcut.symm, hw⟩

theorem next?_of_closesNext (h : closesNext rest = true) : next? rest = some 0x7D := by
  obtain ⟨w, bs, rfl, hw⟩ := closesNext_cases h
  rw [next?_append (fun c hc => isWhite_of_isBlankByte (hw c hc))]
  rfl

/-- **The second pass** brings nothing to the front but closing braces. -/
theorem next?_dropCommas (bs : Bytes) :
    next? (dropCommas .outside bs) = next? bs ∨ next? (dropCommas .outside bs) = some 0x7D := by
  induction bs with
  | nil => exact Or.inl rfl
  | cons b rest ih =>
    by_cases hdrop : Quoting.outside = .outside ∧ b = 0x2C ∧ closesNext rest = true
    · rw [dropCommas, if_pos hdrop]
      rw [next?_of_closesNext hdrop.2.2] at ih
      exact Or.inr (ih.elim id id)
    · rw [dropCommas_keep hdrop]
      cases hb : isWhite b with
      | false => exact Or.inl (by rw [next?_cons hb, next?_cons hb])
      | true =>
        have hq : b ≠ 0x22 := by rintro rfl; exact absurd hb (by decide)
        rw [after_outside hq, next?_white hb, next?_white hb]
        exact ih

/-- The second pass goes through a text in one region after the other, and a comma that it takes out does
    not change the region. -/
theorem dropCommas_append (f : Bytes) (q : Quoting) (rest : Bytes) :
    ∃ f' : Bytes, f'.foldl Quoting.after q = f.foldl Quoting.after q ∧
      dropCommas q (f ++ rest) = f' ++ dropCommas (f.foldl Quoting.after q) rest := by
  induction f generalizing q with
  | nil => exact ⟨[], rfl, rfl⟩
  | cons b f ih =>
    by_cases hdrop : q = .outside ∧ b = 0x2C ∧ closesNext (f ++ rest) = true
    · obtain ⟨f', hf', hpass⟩ := ih q
      have hafter : q.after b = q := by
        rw [hdrop.1, hdrop.2.1]
        rfl
      refine ⟨f', ?_, ?_⟩
      · rw [List.foldl_cons, hafter, hf']
      · rw [List.cons_append, dropCommas, if_pos hdrop, hpass, List.foldl_cons, hafter]
    · obtain ⟨f', hf', hpass⟩ := ih (q.after b)
      refine ⟨b :: f', ?_, ?_⟩
      · rw [List.foldl_cons, List.foldl_cons, hf']
      · rw [List.cons_append, dropCommas_keep hdrop, hpass, List.foldl_cons, List.cons_append]

/-- Blanks stay in the second pass, and so does the brace behind them. -/
theorem dropCommas_closing (hw : ∀ c ∈ w, isBlankByte c = true) :
    dropCommas .outside (w ++ 0x7D :: rest) = w ++ 0x7D :: dropCommas .outside rest := by
  induction w with
  | nil => exact dropCommas_byte (by decide) (by decide)
  | cons c w ih =>
    have hc : isBlankByte c = true := hw c List.mem_cons_self
    have hcomma : c ≠ 0x2C := by rintro rfl; exact absurd hc (by decide)
    have hq : c ≠ 0x22 := by rintro rfl; exact absurd hc (by decide)
    rw [List.cons_append, dropCommas_byte hcomma hq, ih (fun d hd => hw d (List.mem_cons_of_mem c hd)),
      List.cons_append]

/-- **The second pass is a repair.** -/
theorem repaired_dropCommas (q : Quoting) (bs : Bytes) : Repaired bs (dropCommas q bs) := by
  -- a comma is taken out together with its brace, so the rest is shorter by more than one byte
  induction hlen : bs.length using Nat.strongRecOn generalizing q bs with
  | ind n ih =>
    cases bs with
    | nil => exact .nil
    | cons b rest =>
      by_cases hdrop : q = .outside ∧ b = 0x2C ∧ closesNext rest = true
      · rw [dropCommas, if_pos hdrop]
        obtain ⟨rfl, rfl, hclose⟩ := hdrop
        obtain ⟨w, bs, rfl, hw⟩ := closesNext_cases hclose
        rw [dropCommas_closing hw]
        refine .drop hw (ih bs.length ?_ .outside bs rfl)
        rw [← hlen, List.length_cons, List.length_append, List.length_cons]
        omega
      · rw [dropCommas_keep hdrop]
        refine .keep (ih rest.length ?_ (q.after b) rest rfl)
        rw [← hlen, List.length_cons]
        exact Nat.lt_succ_self _

/-! ## The reader -/

/-- **The reader is in step with the second pass**: it is in a string where the pass is, and behind a
    backslash where the pass is. -/
inductive InStep : State → Quoting → Prop
  | between {s : State} (h : s.between = true) : InStep s .outside
  | word {s : State} (h : s.inWord) : InStep s .outside
  | inside {stack : List Frame} {role : StringRole} {point : StringPoint} {pieces : Literal}
      (hp : point.opened = []) : InStep ⟨stack, .string role point pieces⟩ .inside
  | escaped {stack : List Frame} {role : StringRole} {pieces : Literal} :
      InStep ⟨stack, .string role .escape pieces⟩ .escaped

/-- Outside strings, a word byte goes on with a word or begins one. -/
theorem inWord_of_inStep (hs : InStep s .outside) (hb : isWordByte b = true) (h : s.step care b = .ok s') :
    s'.inWord := by
  cases hs with
  | word hs => exact hs.step hb h
  | between hs =>
    cases hn : s.inNumber with
    | false => exact inWord_of_step hs hn hb h
    | true =>
      have hin : s.inWord := by
        obtain ⟨stack, mode⟩ := s
        cases mode with
        | number => trivial
        | _ => exact absurd hn (by simp [State.inNumber])
      exact hin.step hb h

/-- Outside strings, any other byte finds the reader between tokens, and opens a string if it is a quote. -/
theorem inStep_of_not_word (hs : s.between = true) (hb : isWordByte b = false)
    (h : s.step care b = .ok s') : InStep s' (Quoting.after .outside b) := by
  rw [step_settle hs hb] at h
  cases hsettle : s.settle care with
  | error refusal =>
    rw [hsettle] at h
    exact absurd h (by simp [Except.bind])
  | ok s₀ =>
    rw [hsettle] at h
    obtain ⟨hs₀, hn₀⟩ := between_of_settle hs hsettle
    have hstep : s₀.step care b = .ok s' := h
    cases hspace : isSpace b with
    | true =>
      have hq : b ≠ 0x22 := by rintro rfl; exact absurd hspace (by decide)
      rw [step_blank hs₀ hspace, settle_of_not_inNumber hn₀] at hstep
      rw [after_outside hq, ← Except.ok.inj hstep]
      exact .between hs₀
    | false =>
      rcases step_opens hs₀ hn₀ hspace hstep with ⟨hmark, hbetween, -⟩ | ⟨rfl, stack, role, rfl⟩ | hw
      · have hq : b ≠ 0x22 := by rintro rfl; exact absurd hmark (by decide)
        rw [after_outside hq]
        exact .between hbetween
      · exact .inside rfl
      · exact absurd (hw.symm.trans hb) (by simp)

/-- **A byte** that the reader takes keeps it in step. -/
theorem InStep.step (hs : InStep s q) (h : Accepts care t s (b :: rest)) :
    ∃ s', Accepts care t s' rest ∧ InStep s' (q.after b) := by
  obtain ⟨s', hstep, hrest⟩ := h
  refine ⟨s', hrest, ?_⟩
  have houtside : InStep s .outside → InStep s' (Quoting.after .outside b) := by
    intro hs
    cases hb : isWordByte b with
    | true =>
      have hq : b ≠ 0x22 := ne_of_isWordByte hb rfl
      rw [after_outside hq]
      exact .word (inWord_of_inStep hs hb hstep)
    | false =>
      refine inStep_of_not_word ?_ hb hstep
      cases hs with
      | between hs => exact hs
      | word hs =>
        have hhead : ∀ c ∈ (b :: rest).head?, isWordByte c = false := by
          intro c hc
          rw [← Option.some.inj hc]
          exact hb
        exact hs.between hhead ⟨s', hstep, hrest⟩
  cases hs with
  | between hs => exact houtside (.between hs)
  | word hs => exact houtside (.word hs)
  | @inside stack role point pieces hp =>
    rcases step_string_cases hstep with ⟨rfl, rfl, l, hclose⟩ | ⟨point', pieces', rfl, hgo⟩
    · exact .between (between_closeString hclose).1
    · cases hgo with
      | plain hq hb =>
        rw [after_inside hq hb]
        exact .inside rfl
      | backslash hb =>
        rw [hb]
        exact .escaped
      | escape => exact absurd hp (by simp [StringPoint.opened])
      | digit =>
        -- among digits stands no quote, or the reader refuses the text later on
        obtain ⟨hq, hb⟩ := ne_of_hexValue? (hexValue?_of_accepts hrest b (by simp))
        rw [after_inside hq hb]
        exact .inside rfl
      | unit hu =>
        obtain ⟨hq, hb⟩ := ne_of_hexValue? (hexValue?_of_unitOfHex? hu b (by simp))
        rw [after_inside hq hb]
        exact .inside rfl
  | escaped =>
    rcases step_string_cases hstep with ⟨hpoint, -⟩ | ⟨point', pieces', rfl, hgo⟩
    · exact absurd hpoint (by simp)
    · cases hgo with
      | escape hp => exact .inside hp

/-- **Through a text**, as far as the reader refuses nothing, it stays in step. -/
theorem InStep.append (hs : InStep s q) (f : Bytes) (h : Accepts care t s (f ++ rest)) :
    ∃ s', Accepts care t s' rest ∧ InStep s' (f.foldl Quoting.after q) := by
  induction f generalizing s q with
  | nil => exact ⟨s, h, hs⟩
  | cons b f ih =>
    obtain ⟨s', hrest, hs'⟩ := hs.step h
    exact ih hs' hrest

/-- Outside strings, the reader takes no comma with a closing mark behind it. -/
theorem InStep.not_accepts_comma (hs : InStep s .outside)
    (hnext : ∀ c ∈ next? rest, c = 0x5D ∨ c = 0x2C ∨ c = 0x7D) : ¬ Accepts care t s (0x2C :: rest) := by
  intro h
  have hhead : ∀ c ∈ ((0x2C : UInt8) :: rest).head?, isWordByte c = false := by
    intro c hc
    rw [← Option.some.inj hc]
    rfl
  have hbetween : s.between = true := by
    cases hs with
    | between hs => exact hs
    | word hs => exact hs.between hhead h
  -- a number in front of the comma has come to its end
  rw [← List.nil_append ((0x2C : UInt8) :: rest)] at h hhead
  obtain ⟨s₀, hsettle, h₀⟩ := (accepts_blanks_iff blanks_nil hbetween fun _ => hhead).mp h
  obtain ⟨hs₀, hn₀⟩ := between_of_settle hbetween hsettle
  exact not_accepts_behind_comma hs₀ hn₀ hnext h₀

/-! ## Refusal -/

/-- **What the first pass leaves of a stray comma**: a comma behind code, with a bracket, another comma or
    nothing behind it. -/
theorem StrayComma.strip (h : StrayComma bs) :
    ∃ f rest : Bytes, f.foldl Quoting.after .outside = .outside ∧ strip .code bs = f ++ 0x2C :: rest ∧
      ∀ c ∈ next? rest, c = 0x5D ∨ c = 0x2C := by
  have hcut : ∀ {front g : Bytes}, Code front → Skipped g →
      ∃ f w : Bytes, f.foldl Quoting.after .outside = .outside ∧ (∀ c ∈ w, isWhite c = true) ∧
        ∀ tail, Jsonc.strip .code (front ++ 0x2C :: (g ++ tail)) = f ++ 0x2C :: (w ++ Jsonc.strip .code tail) := by
    intro front g hf hg
    obtain ⟨f, hfold, hfront⟩ := strip_code hf
    obtain ⟨w, hw, hskip⟩ := strip_skipped hg
    refine ⟨f, w, hfold, hw, fun tail => ?_⟩
    rw [hfront, strip_code_byte (by decide) (by decide), hskip]
  cases h with
  | @bracket front g rest hf hg =>
    obtain ⟨f, w, hfold, hw, hstrip⟩ := hcut hf hg
    refine ⟨f, _, hfold, hstrip _, ?_⟩
    rw [next?_append hw, strip_code_byte (by decide) (by decide), next?_cons rfl]
    intro c hc
    exact Or.inl (Option.some.inj hc).symm
  | @comma front g rest hf hg =>
    obtain ⟨f, w, hfold, hw, hstrip⟩ := hcut hf hg
    refine ⟨f, _, hfold, hstrip _, ?_⟩
    rw [next?_append hw, strip_code_byte (by decide) (by decide), next?_cons rfl]
    intro c hc
    exact Or.inr (Option.some.inj hc).symm
  | @ended front g e hf hg he =>
    obtain ⟨f, w, hfold, hw, hstrip⟩ := hcut hf hg
    refine ⟨f, _, hfold, hstrip _, ?_⟩
    have hblanks : ∀ c ∈ Jsonc.strip .code e, isWhite c = true :=
      fun c hc => isWhite_of_isSpace (strip_ending he c hc)
    rw [next?_append hw, ← List.append_nil (Jsonc.strip .code e), next?_append hblanks]
    intro c hc
    exact absurd hc (by simp [next?])

/-- **What both passes leave of a stray comma** is accepted by no reading. -/
theorem StrayComma.not_accepts (h : StrayComma bs) : ¬ Accepts care t .start (normalize bs) := by
  obtain ⟨f, rest, hfold, hstrip, hnext⟩ := h.strip
  obtain ⟨f', hfold', hpass⟩ := dropCommas_append f .outside (0x2C :: rest)
  -- the comma itself is not taken out, since no brace comes next
  have hkeep : dropCommas .outside (0x2C :: rest) = 0x2C :: dropCommas .outside rest := by
    refine dropCommas_keep ?_
    rintro ⟨-, -, hclose⟩
    rcases hnext _ (next?_of_closesNext hclose) with hc | hc <;> exact absurd hc (by decide)
  have hnext' : ∀ c ∈ next? (dropCommas .outside rest), c = 0x5D ∨ c = 0x2C ∨ c = 0x7D := by
    intro c hc
    rcases next?_dropCommas rest with hsame | hbrace
    · rw [hsame] at hc
      exact (hnext c hc).imp id Or.inl
    · rw [hbrace] at hc
      exact Or.inr (Or.inr (Option.some.inj hc).symm)
  unfold normalize withoutCommas withoutComments
  rw [hstrip, hpass, hfold, hkeep]
  intro ha
  have hstart : InStep .start .outside := .between rfl
  obtain ⟨s, hs, hin⟩ := hstart.append f' ha
  rw [hfold', hfold] at hin
  exact hin.not_accepts_comma hnext' hs

end SharedPorts.Jsonc

namespace SharedPorts.PortLabels

open Json Jsonc

/-- **No comma too many is repaired.** Whatever the text, the second pass takes out at most one comma for
    each closing brace, and none before anything else; and a file with a stray comma is no document, whatever
    else stands in it. -/
theorem ofFile_stray_comma (bs : Bytes) :
    Repaired (withoutComments bs) (normalize bs) ∧
      (StrayComma bs → ∃ fault, ofFile bs = .error (.invalidJson fault)) := by
  refine ⟨repaired_dropCommas .outside _, fun h => ?_⟩
  unfold ofFile
  cases hread : read .full (normalize bs) with
  | error fault => exact ⟨fault, rfl⟩
  | ok t => exact absurd (readFrom_eq_ok_iff.mp hread) h.not_accepts

/-- Of two commas before a brace only the second is taken out, and the comma in a string is none of them. A
    comment with a quote stands between the two. -/
theorem ofFile_stray_comma_doubled :
    StrayComma (Utf8.encode "\x7b\"a,]\": 1,/*\"*/\n,\x7d") ∧
      (∃ fault, ofFile (Utf8.encode "\x7b\"a,]\": 1,/*\"*/\n,\x7d") = .error (.invalidJson fault)) ∧
      normalize (Utf8.encode "\x7b\"a,]\": 1,/*\"*/\n,\x7d") = Utf8.encode "\x7b\"a,]\": 1, \n\x7d" := by
  have hquoted : Quoted (Utf8.encode "a,]\"") :=
    .byte (by decide) (by decide) (.byte (by decide) (by decide) (.byte (by decide) (by decide) .close))
  have hvalue : Code (Utf8.encode ": 1") :=
    .byte (by decide) (by decide) (.byte (by decide) (by decide) (.byte (by decide) (by decide) .nil))
  have hcode : Code (Utf8.encode "\x7b\"a,]\": 1") :=
    .byte (by decide) (by decide) (@Code.string (Utf8.encode "a,]\"") _ hquoted hvalue)
  have hskipped : Skipped (Utf8.encode "/*\"*/\n") :=
    .trivia (@Trivia.block [0x22] [0x0A] (by decide) (.blank rfl .nil))
  have hstray : StrayComma (Utf8.encode "\x7b\"a,]\": 1,/*\"*/\n,\x7d") :=
    @StrayComma.comma _ _ (Utf8.encode "\x7d") hcode hskipped
  exact ⟨hstray, (ofFile_stray_comma _).2 hstray, rfl⟩

end SharedPorts.PortLabels
