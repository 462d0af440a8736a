import SharedPorts.Proofs.Text.Fields

/-!
# `SharedPorts.Proofs.Text.Columns` — tables as they are written

A table is written line by line, and a line column by column, with as much blank space around the columns
as its author likes. Reading takes the lines apart again, and each line into its words. This module says how
a table may be written, and that whatever the blank space, the words of its lines are its columns.

## Contents
- **Columns.** `IsWord`, `IsGap` and `Spaced`; `spaced_iff`, the columns of a line are its words.
- **Lines.** `Lined` and `unlines`, and `Lined.words`, the words in the lines of a text.
-/

namespace SharedPorts.Text

variable {c : Char} {cs gap line rest w : List Char} {ws lines : List (List Char)}

/-! ## Columns -/

/-- A word: some characters, and none of them blank. -/
def IsWord (w : List Char) : Prop := w ≠ [] ∧ ∀ c ∈ w, isBlank c = false

/-- Blank space within a line. -/
def IsGap (gap : List Char) : Prop := ∀ c ∈ gap, isBlank c = true ∧ c ≠ '\n'

/-- **A line of some columns**: each has any blank space in front of it, between two of them there is some,
    and there may be more behind the last one. -/
inductive Spaced : List (List Char) → List Char → Prop
  | blank {gap : List Char} (hg : IsGap gap) : Spaced [] gap
  | column {gap w rest : List Char} {ws : List (List Char)} (hg : IsGap gap) (hw : IsWord w)
      (hapart : startsWord rest = false) (h : Spaced ws rest) : Spaced (w :: ws) (gap ++ (w ++ rest))

theorem IsGap.cons (hg : IsGap gap) (hc : isBlank c = true) (hne : c ≠ '\n') : IsGap (c :: gap) :=
  List.forall_mem_cons.mpr ⟨⟨hc, hne⟩, hg⟩

theorem isGap_nil : IsGap [] := fun _ hc => absurd hc List.not_mem_nil

theorem words_gap (hg : IsGap gap) : words (gap ++ rest) = words rest := by
  induction gap with
  | nil => rfl
  | cons c gap ih =>
    obtain ⟨hc, hgap⟩ := List.forall_mem_cons.mp hg
    rw [List.cons_append, words, if_pos hc.1, ih hgap]

theorem words_blank (hg : IsGap gap) : words gap = [] := by
  have h : words (gap ++ []) = words [] := words_gap hg
  rw [List.append_nil] at h
  exact h

/-- A word in front of a text is its first word, if it does not go on there. -/
theorem words_word (hw : IsWord w) (hapart : startsWord rest = false) : words (w ++ rest) = w :: words rest := by
  obtain ⟨hne, hw⟩ := hw
  induction w with
  | nil => exact absurd rfl hne
  | cons c w ih =>
    obtain ⟨hc, hw⟩ := List.forall_mem_cons.mp hw
    rw [List.cons_append, words, if_neg (by simp [hc])]
    cases w with
    | nil => rw [List.nil_append, hapart]; rfl
    | cons d w =>
      obtain ⟨hd, -⟩ := List.forall_mem_cons.mp hw
      rw [ih (List.cons_ne_nil d w) hw, List.cons_append, startsWord, hd]
      rfl

theorem startsWord_blank (hg : IsGap gap) : startsWord gap = false := by
  cases gap with
  | nil => rfl
  | cons c gap =>
    obtain ⟨hc, -⟩ := List.forall_mem_cons.mp hg
    rw [startsWord, hc.1]
    rfl

/-- Blank space in front of a line changes none of its columns. -/
theorem Spaced.cons (h : Spaced ws line) (hc : isBlank c = true) (hne : c ≠ '\n') : Spaced ws (c :: line) := by
  cases h with
  | blank hg => exact .blank (hg.cons hc hne)
  | @column gap w rest ws hg hw hapart h =>
    exact @Spaced.column (c :: gap) w rest ws (hg.cons hc hne) hw hapart h

/-- A character that is not blank is put in front of the first column, or is a column of its own. -/
theorem Spaced.push (h : Spaced ws line) (hc : isBlank c = false) :
    Spaced (joinWord c (startsWord line) ws) (c :: line) := by
  have hword : IsWord [c] := ⟨by simp, by simpa using hc⟩
  cases hstarts : startsWord line with
  | false =>
    have hjoin : joinWord c false ws = [c] :: ws := by cases ws <;> rfl
    rw [hjoin]
    exact @Spaced.column [] [c] line ws isGap_nil hword hstarts h
  | true =>
    cases h with
    | blank hg => exact absurd (hstarts.symm.trans (startsWord_blank hg)) (by simp)
    | @column gap w rest ws hg hw hapart h =>
      -- the line begins with a word, so there is nothing in front of its first column
      cases gap with
      | nil =>
        have hw' : IsWord (c :: w) := ⟨by simp, List.forall_mem_cons.mpr ⟨hc, hw.2⟩⟩
        exact @Spaced.column [] (c :: w) rest ws isGap_nil hw' hapart h
      | cons d gap =>
        obtain ⟨hd, -⟩ := List.forall_mem_cons.mp hg
        simp [startsWord, hd.1] at hstarts

theorem IsWord.noFeed (hw : IsWord w) : '\n' ∉ w :=
  fun hmem => absurd (hw.2 '\n' hmem) (by decide)

theorem IsGap.noFeed (hg : IsGap gap) : '\n' ∉ gap := fun hmem => (hg '\n' hmem).2 rfl

/-- **The columns of a line** are its words, and any line without line feeds is written so. -/
theorem spaced_iff : Spaced ws line ↔ words line = ws ∧ '\n' ∉ line := by
  constructor
  · intro h
    induction h with
    | blank hg => exact ⟨words_blank hg, hg.noFeed⟩
    | column hg hw hapart _ ih =>
      obtain ⟨hwords, hfeed⟩ := ih
      rw [words_gap hg, words_word hw hapart, hwords]
      exact ⟨rfl, by simp [hg.noFeed, hw.noFeed, hfeed]⟩
  · rintro ⟨rfl, hfeed⟩
    induction line with
    | nil => exact .blank isGap_nil
    | cons c line ih =>
      rw [List.mem_cons, not_or] at hfeed
      obtain ⟨hc, hfeed⟩ := hfeed
      cases hblank : isBlank c with
      | true =>
        rw [words, if_pos hblank]
        exact (ih hfeed).cons hblank (Ne.symm hc)
      | false =>
        rw [words, if_neg (by simp [hblank])]
        exact (ih hfeed).push hblank

/-! ## Lines -/

/-- **A text of some lines**: each ends with a line feed, which the last one does not need unless it is
    empty. -/
inductive Lined : List (List Char) → List Char → Prop
  | nil : Lined [] []
  | last {line : List Char} (hf : '\n' ∉ line) (hne : line ≠ []) : Lined [line] line
  | feed {line rest : List Char} {lines : List (List Char)} (hf : '\n' ∉ line) (h : Lined lines rest) :
      Lined (line :: lines) (line ++ '\n' :: rest)

/-- Some lines, each with its line feed. -/
def unlines (lines : List (List Char)) : List Char := lines.flatMap (· ++ ['\n'])

theorem lined_unlines (h : ∀ line ∈ lines, '\n' ∉ line) : Lined lines (unlines lines) := by
  induction lines with
  | nil => exact .nil
  | cons line lines ih =>
    obtain ⟨hline, hlines⟩ := List.forall_mem_cons.mp h
    have hcons : unlines (line :: lines) = line ++ '\n' :: unlines lines := by simp [unlines]
    rw [hcons]
    exact .feed hline (ih hlines)

/-- A carriage return at the end of a line is in no word. -/
theorem words_chomp (line : List Char) : words (chomp line) = words line := by
  unfold chomp
  split
  · rename_i hlast
    obtain ⟨front, rfl⟩ := List.getLast?_eq_some_iff.mp hlast
    rw [List.dropLast_concat]
    induction front with
    | nil => rfl
    | cons c front ih =>
      have hstarts : startsWord (front ++ ['\r']) = startsWord front := by cases front <;> rfl
      rw [List.cons_append, words, words, ih (by simp), hstarts]
  · rfl

theorem linesOfFields_cons {fs : List (List Char)} (h : fs ≠ []) :
    linesOfFields (line :: fs) = chomp line :: linesOfFields fs := by
  cases fs with
  | nil => exact absurd rfl h
  | cons f fs => rfl

/-- **The words in the lines of a text** are those of the lines that it was written in. -/
theorem Lined.words (h : Lined lines cs) : (Text.lines cs).map Text.words = lines.map Text.words := by
  induction h with
  | nil => rfl
  | @last line hf hne =>
    have hline : Text.lines line = [line] := by
      rw [Text.lines, fields_of_not_mem hf, linesOfFields, if_neg (by simpa using hne)]
    rw [hline]
  | @feed line rest lines hf h ih =>
    have hcons : Text.lines (line ++ '\n' :: rest) = chomp line :: Text.lines rest := by
      rw [Text.lines, fields_append, fields_of_not_mem hf]
      exact linesOfFields_cons (fields_ne_nil rest)
    rw [hcons, List.map_cons, List.map_cons, words_chomp, ih]

end SharedPorts.Text
