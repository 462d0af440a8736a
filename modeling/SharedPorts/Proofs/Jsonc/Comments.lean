import SharedPorts.Proofs.Jsonc.Commas
import SharedPorts.Proofs.Jsonc.Lines

/-!
# `SharedPorts.Proofs.Jsonc.Comments` — the first pass takes the comments out, and nothing else

Where a comment is taken out, bytes come together that were apart, and these must not open a comment or a
string of their own. They do not: a line comment goes up to its line feed, which stays, a block comment leaves
a blank in its place, and a slash right before a comment would have belonged to it.

This is said of texts in any state, with strings and comments that are left open. A text is divided into
lexemes in one way; the pass drops the comments among them, and what it leaves is divided into just the
others. So it leaves no comment, and a second pass changes nothing.

## Contents
- **Lexemes.** `Lexeme`, `Open`, and `Lexed`, the lexemes of a text.
- **Division.** `exists_lexed` and `Lexed.unique`: every text has its lexemes, and no others.
- **The pass.** `Lexeme.remains`, `Lexed.withoutComments` and `strings_remaining`.
- **Openers.** `HasOpener`, the marks of a comment outside strings; `Lexed.hasOpener_iff`.
- The main statement `withoutComments_exact`.
-/

namespace SharedPorts.Jsonc

open Json

variable {b c d : UInt8} {bs bs' body body' rest rest' u v : Bytes} {l : Lexeme} {ls ls' : List Lexeme}

/-! ## Lexemes -/

/-- **A lexeme** of a text: a string with its quotes, a comment, or a byte that is part of neither. -/
inductive Lexeme
  | byte (b : UInt8)
  | string (text : Bytes)
  /-- A line comment, without its line feed. -/
  | lineComment (body : Bytes)
  /-- A block comment, with the marks that close it, if it is closed. -/
  | blockComment (body : Bytes)
  deriving DecidableEq, Repr

/-- The bytes of a lexeme. -/
def Lexeme.written : Lexeme → Bytes
  | .byte b => [b]
  | .string text => text
  | .lineComment body => 0x2F :: 0x2F :: body
  | .blockComment body => 0x2F :: 0x2A :: body

/-- What follows the opening quote of a string that is never closed. -/
inductive Open : Bytes → Prop
  | nil : Open []
  | backslash : Open [0x5C]
  | byte {c : UInt8} {bs : Bytes} (hq : c ≠ 0x22) (hb : c ≠ 0x5C) (h : Open bs) : Open (c :: bs)
  | escape {c : UInt8} {bs : Bytes} (h : Open bs) : Open (0x5C :: c :: bs)

/-- **The lexemes of a text.** A quote opens a string, and two slashes, or a slash and a star, open a comment.
    A string or a block comment that is not closed takes all the rest. -/
inductive Lexed : Bytes → List Lexeme → Prop
  | ended : Lexed [] []
  | byte {b : UInt8} {rest : Bytes} {ls : List Lexeme} (hq : b ≠ 0x22)
      (hs : b = 0x2F → ∀ d ∈ rest.head?, d ≠ 0x2F ∧ d ≠ 0x2A) (h : Lexed rest ls) :
      Lexed (b :: rest) (.byte b :: ls)
  | string {u rest : Bytes} {ls : List Lexeme} (hu : Quoted u) (h : Lexed rest ls) :
      Lexed (0x22 :: (u ++ rest)) (.string (0x22 :: u) :: ls)
  | openString {u : Bytes} (hu : Open u) : Lexed (0x22 :: u) [.string (0x22 :: u)]
  | line {body rest : Bytes} {ls : List Lexeme} (hb : 0x0A ∉ body) (hr : ∀ d ∈ rest.head?, d = 0x0A)
      (h : Lexed rest ls) : Lexed (0x2F :: 0x2F :: (body ++ rest)) (.lineComment body :: ls)
  | block {body rest : Bytes} {ls : List Lexeme} (hb : Unclosed body) (h : Lexed rest ls) :
      Lexed (0x2F :: 0x2A :: (body ++ 0x2A :: 0x2F :: rest)) (.blockComment (body ++ [0x2A, 0x2F]) :: ls)
  | openBlock {body : Bytes} (hb : Unclosed body) : Lexed (0x2F :: 0x2A :: body) [.blockComment body]

/-- **The lexemes of a text** are the text. -/
theorem Lexed.written (h : Lexed bs ls) : ls.flatMap Lexeme.written = bs := by
  induction h with
  | ended => rfl
  | byte _ _ _ ih | string _ _ ih | line _ _ _ ih | block _ _ ih =>
    simp [List.flatMap_cons, Lexeme.written, ih]
  | openString _ | openBlock _ => simp [Lexeme.written]

/-! ## Division -/

/-- A string is closed, or it is not. -/
theorem quoted_or_open (bs : Bytes) : (∃ u rest, bs = u ++ rest ∧ Quoted u) ∨ Open bs := by
  induction hlen : bs.length using Nat.strongRecOn generalizing bs with
  | ind n ih =>
    match bs with
    | [] => exact Or.inr .nil
    | c :: rest =>
      by_cases hq : c = 0x22
      · exact Or.inl ⟨[c], rest, rfl, hq ▸ .close⟩
      · by_cases hb : c = 0x5C
        · subst hb
          match rest with
          | [] => exact Or.inr .backslash
          | d :: rest =>
            have hshort : rest.length < n := by
              simp only [← hlen, List.length_cons]
              omega
            rcases ih _ hshort rest rfl with ⟨u, tail, rfl, hu⟩ | hopen
            · exact Or.inl ⟨0x5C :: d :: u, tail, rfl, .escape hu⟩
            · exact Or.inr (.escape hopen)
        · rcases ih rest.length (by simp [← hlen]) rest rfl with ⟨u, tail, rfl, hu⟩ | hopen
          · exact Or.inl ⟨c :: u, tail, rfl, .byte hq hb hu⟩
          · exact Or.inr (.byte hq hb hopen)

/-- And not both. -/
theorem Open.ne_quoted (h : Open bs) (hu : Quoted u) : bs ≠ u ++ rest := by
  induction h generalizing u with
  | nil => cases hu <;> simp
  | backslash =>
    cases hu with
    | close => simp
    | byte _ hb _ =>
      intro heq
      exact hb (List.cons.inj heq).1.symm
    | escape _ => simp
  | @byte c bs hq hb _ ih =>
    intro heq
    cases hu with
    | close => exact hq (List.cons.inj heq).1
    | byte _ _ hu => exact ih hu (List.cons.inj heq).2
    | escape _ => exact hb (List.cons.inj heq).1
  | @escape c bs _ ih =>
    intro heq
    cases hu with
    | close => exact absurd (List.cons.inj heq).1 (by decide)
    | byte _ hb _ => exact hb (List.cons.inj heq).1.symm
    | escape hu => exact ih hu (List.cons.inj (List.cons.inj heq).2).2

/-- A block comment is closed, or it is not. -/
theorem closed_or_unclosed (bs : Bytes) :
    (∃ body rest, bs = body ++ 0x2A :: 0x2F :: rest ∧ Unclosed body) ∨ Unclosed bs := by
  induction bs with
  | nil => exact Or.inr unclosed_nil
  | cons c bs ih =>
    by_cases hclose : c = 0x2A ∧ ∃ tail, bs = 0x2F :: tail
    · obtain ⟨rfl, tail, rfl⟩ := hclose
      exact Or.inl ⟨[], tail, rfl, unclosed_nil⟩
    · have hnext : ∀ {body tail}, bs = body ++ tail → c = 0x2A → body.head? ≠ some 0x2F := by
        rintro body tail rfl rfl hhead
        obtain ⟨more, rfl⟩ := List.head?_eq_some_iff.mp hhead
        exact hclose ⟨rfl, more ++ tail, rfl⟩
      rcases ih with ⟨body, rest, rfl, hbody⟩ | hopen
      · exact Or.inl ⟨c :: body, rest, rfl, hbody.cons (hnext rfl)⟩
      · exact Or.inr (hopen.cons (hnext (List.append_nil bs).symm))

/-- It is closed by the first marks that close one. -/
theorem Unclosed.append_inj (h : Unclosed body) (h' : Unclosed body')
    (heq : body ++ 0x2A :: 0x2F :: rest = body' ++ 0x2A :: 0x2F :: rest') : body = body' ∧ rest = rest' := by
  induction body generalizing body' with
  | nil =>
    cases body' with
    | nil => simpa using heq
    | cons c body' =>
      obtain ⟨rfl, htail⟩ := List.cons.inj heq
      -- the marks in front of the other text close a comment there
      cases body' with
      | nil => simp at htail
      | cons d body' =>
        obtain ⟨rfl, -⟩ := List.cons.inj htail
        exact absurd ⟨[], body', rfl⟩ h'
  | cons c body ih =>
    cases body' with
    | nil =>
      obtain ⟨rfl, htail⟩ := List.cons.inj heq
      cases body with
      | nil => simp at htail
      | cons d body =>
        obtain ⟨rfl, -⟩ := List.cons.inj htail
        exact absurd ⟨[], body, rfl⟩ h
    | cons c' body' =>
      obtain ⟨rfl, htail⟩ := List.cons.inj heq
      obtain ⟨rfl, rfl⟩ := ih h.tail h'.tail htail
      exact ⟨rfl, rfl⟩

theorem Unclosed.not_closed (h : Unclosed (body ++ 0x2A :: 0x2F :: rest)) : False :=
  h ⟨body, rest, by simp⟩

/-- A line goes up to a line feed, or to the end. -/
theorem exists_line (bs : Bytes) :
    ∃ body rest, bs = body ++ rest ∧ 0x0A ∉ body ∧ ∀ d ∈ rest.head?, d = 0x0A := by
  refine ⟨bs.takeWhile (· != 0x0A), bs.dropWhile (· != 0x0A), List.takeWhile_append_dropWhile.symm, ?_, ?_⟩
  · intro hmem
    simpa using List.mem_takeWhile_imp hmem
  · intro d hd
    have hstop := List.head?_dropWhile_not (· != 0x0A) bs
    rw [hd] at hstop
    simpa using hstop

/-- **Every text has its lexemes.** -/
theorem exists_lexed (bs : Bytes) : ∃ ls, Lexed bs ls := by
  -- each lexeme leaves a shorter rest
  induction hlen : bs.length using Nat.strongRecOn generalizing bs with
  | ind n ih =>
    have hrest : ∀ rest : Bytes, rest.length < bs.length → ∃ ls, Lexed rest ls :=
      fun rest hshort => ih rest.length (hlen ▸ hshort) rest rfl
    clear ih hlen
    match bs with
    | [] => exact ⟨[], .ended⟩
    | b :: rest =>
      by_cases hq : b = 0x22
      · subst hq
        rcases quoted_or_open rest with ⟨u, tail, rfl, hu⟩ | hopen
        · obtain ⟨ls, h⟩ := hrest tail (by simp only [List.length_append, List.length_cons]; omega)
          exact ⟨_, .string hu h⟩
        · exact ⟨_, .openString hopen⟩
      · by_cases hs : b = 0x2F ∧ (rest.head? = some 0x2F ∨ rest.head? = some 0x2A)
        · obtain ⟨rfl, hline | hblock⟩ := hs
          · obtain ⟨rest, rfl⟩ := List.head?_eq_some_iff.mp hline
            obtain ⟨body, tail, rfl, hbody, hstop⟩ := exists_line rest
            obtain ⟨ls, h⟩ := hrest tail (by simp only [List.length_append, List.length_cons]; omega)
            exact ⟨_, .line hbody hstop h⟩
          · obtain ⟨rest, rfl⟩ := List.head?_eq_some_iff.mp hblock
            rcases closed_or_unclosed rest with ⟨body, tail, rfl, hbody⟩ | hopen
            · obtain ⟨ls, h⟩ := hrest tail (by simp only [List.length_append, List.length_cons]; omega)
              exact ⟨_, .block hbody h⟩
            · exact ⟨_, .openBlock hopen⟩
        · obtain ⟨ls, h⟩ := hrest rest (by simp)
          refine ⟨_, .byte hq ?_ h⟩
          intro hb d hd
          constructor
          · rintro rfl
            exact hs ⟨hb, Or.inl hd⟩
          · rintro rfl
            exact hs ⟨hb, Or.inr hd⟩

/-! What a lexeme is shows in its first two bytes. -/

theorem Lexed.of_quote (h : Lexed (b :: rest) ls) (hb : b = 0x22) :
    (∃ u tail ls', rest = u ++ tail ∧ Quoted u ∧ Lexed tail ls' ∧ ls = .string (0x22 :: u) :: ls') ∨
    Open rest ∧ ls = [.string (0x22 :: rest)] := by
  cases h with
  | byte hq _ _ => exact absurd hb hq
  | string hu h => exact Or.inl ⟨_, _, _, rfl, hu, h, rfl⟩
  | openString hu => exact Or.inr ⟨hu, rfl⟩
  | line | block | openBlock => exact absurd hb (by decide)

theorem Lexed.of_line (h : Lexed (b :: c :: rest) ls) (hb : b = 0x2F) (hc : c = 0x2F) :
    ∃ body tail ls', rest = body ++ tail ∧ 0x0A ∉ body ∧ (∀ d ∈ tail.head?, d = 0x0A) ∧ Lexed tail ls' ∧
      ls = .lineComment body :: ls' := by
  generalize hbs : b :: c :: rest = bs at h
  cases h with
  | ended => exact absurd hbs (by simp)
  | byte _ hs _ =>
    obtain ⟨rfl, rfl⟩ := List.cons.inj hbs
    exact absurd hc (hs hb c rfl).1
  | string | openString => exact absurd ((List.cons.inj hbs).1.symm.trans hb) (by decide)
  | line hbody hr h =>
    obtain ⟨-, htail⟩ := List.cons.inj hbs
    obtain ⟨-, rfl⟩ := List.cons.inj htail
    exact ⟨_, _, _, rfl, hbody, hr, h, rfl⟩
  | block | openBlock =>
    obtain ⟨-, htail⟩ := List.cons.inj hbs
    exact absurd ((List.cons.inj htail).1.symm.trans hc) (by decide)

theorem Lexed.of_block (h : Lexed (b :: c :: rest) ls) (hb : b = 0x2F) (hc : c = 0x2A) :
    (∃ body tail ls', rest = body ++ 0x2A :: 0x2F :: tail ∧ Unclosed body ∧ Lexed tail ls' ∧
      ls = .blockComment (body ++ [0x2A, 0x2F]) :: ls') ∨
    Unclosed rest ∧ ls = [.blockComment rest] := by
  generalize hbs : b :: c :: rest = bs at h
  cases h with
  | ended => exact absurd hbs (by simp)
  | byte _ hs _ =>
    obtain ⟨rfl, rfl⟩ := List.cons.inj hbs
    exact absurd hc (hs hb c rfl).2
  | string | openString => exact absurd ((List.cons.inj hbs).1.symm.trans hb) (by decide)
  | line =>
    obtain ⟨-, htail⟩ := List.cons.inj hbs
    exact absurd ((List.cons.inj htail).1.symm.trans hc) (by decide)
  | block hbody h =>
    obtain ⟨-, htail⟩ := List.cons.inj hbs
    obtain ⟨-, rfl⟩ := List.cons.inj htail
    exact Or.inl ⟨_, _, _, rfl, hbody, h, rfl⟩
  | openBlock hbody =>
    obtain ⟨-, htail⟩ := List.cons.inj hbs
    obtain ⟨-, rfl⟩ := List.cons.inj htail
    exact Or.inr ⟨hbody, rfl⟩

theorem Lexed.of_byte (h : Lexed (b :: rest) ls) (hq : b ≠ 0x22)
    (hs : b = 0x2F → ∀ d ∈ rest.head?, d ≠ 0x2F ∧ d ≠ 0x2A) : ∃ ls', Lexed rest ls' ∧ ls = .byte b :: ls' := by
  cases h with
  | byte _ _ h => exact ⟨_, h, rfl⟩
  | string | openString => exact absurd rfl hq
  | line => exact absurd rfl (hs rfl 0x2F rfl).1
  | block | openBlock => exact absurd rfl (hs rfl 0x2A rfl).2

/-- A line comment ends with its line. -/
theorem line_append_inj (hb : 0x0A ∉ body) (hb' : 0x0A ∉ body') (hr : ∀ d ∈ rest.head?, d = 0x0A)
    (hr' : ∀ d ∈ rest'.head?, d = 0x0A) (h : body ++ rest = body' ++ rest') : body = body' ∧ rest = rest' := by
  have htake : ∀ {body rest : Bytes}, 0x0A ∉ body → (∀ d ∈ rest.head?, d = 0x0A) →
      (body ++ rest).takeWhile (· != 0x0A) = body := by
    intro body rest hb hr
    have hall : ∀ c ∈ body, (c != 0x0A) = true := fun c hc => bne_iff_ne.mpr fun heq => hb (heq ▸ hc)
    rw [List.takeWhile_append_of_pos hall]
    cases rest with
    | nil => simp
    | cons d rest => simp [hr d rfl]
  obtain rfl : body = body' := by rw [← htake hb hr, h, htake hb' hr']
  exact ⟨rfl, List.append_cancel_left h⟩

/-- **And no others.** -/
theorem Lexed.unique (h : Lexed bs ls) (h' : Lexed bs ls') : ls = ls' := by
  induction h generalizing ls' with
  | ended =>
    cases h'
    rfl
  | byte hq hs _ ih =>
    obtain ⟨ls', hrest, rfl⟩ := h'.of_byte hq hs
    rw [ih hrest]
  | string hu _ ih =>
    rcases h'.of_quote rfl with ⟨u', tail, ls', heq, hu', htail, rfl⟩ | ⟨hopen, -⟩
    · obtain ⟨rfl, rfl⟩ := hu.append_inj hu' heq
      rw [ih htail]
    · exact absurd rfl (hopen.ne_quoted hu)
  | openString hopen =>
    rcases h'.of_quote rfl with ⟨u', tail, ls', heq, hu', -, -⟩ | ⟨-, rfl⟩
    · exact absurd heq (hopen.ne_quoted hu')
    · rfl
  | line hb hr _ ih =>
    obtain ⟨body', tail, ls', heq, hb', hr', htail, rfl⟩ := h'.of_line rfl rfl
    obtain ⟨rfl, rfl⟩ := line_append_inj hb hb' hr hr' heq
    rw [ih htail]
  | block hb _ ih =>
    rcases h'.of_block rfl rfl with ⟨body', tail, ls', heq, hb', htail, rfl⟩ | ⟨hopen, -⟩
    · obtain ⟨rfl, rfl⟩ := hb.append_inj hb' heq
      rw [ih htail]
    · exact absurd hopen Unclosed.not_closed
  | openBlock hopen =>
    rcases h'.of_block rfl rfl with ⟨body', tail, ls', rfl, -, -, -⟩ | ⟨-, rfl⟩
    · exact absurd hopen Unclosed.not_closed
    · rfl

/-! ## The pass -/

/-- What remains of a lexeme: of a block comment a blank, and of a line comment nothing. -/
def Lexeme.remains : Lexeme → List Lexeme
  | .byte b => [.byte b]
  | .string text => [.string text]
  | .lineComment _ => []
  | .blockComment _ => [.byte 0x20]

/-- What remains of some lexemes. -/
def remaining (ls : List Lexeme) : List Lexeme := ls.flatMap Lexeme.remains

/-- A comment. -/
inductive Lexeme.IsComment : Lexeme → Prop
  | line (body : Bytes) : IsComment (.lineComment body)
  | block (body : Bytes) : IsComment (.blockComment body)

theorem not_isComment_byte : ¬ (Lexeme.byte b).IsComment := nofun

theorem not_isComment_string : ¬ (Lexeme.string u).IsComment := nofun

theorem exists_isComment_cons (hl : ¬ l.IsComment) :
    (∃ k ∈ l :: ls, k.IsComment) ↔ ∃ k ∈ ls, k.IsComment := by
  simp only [List.mem_cons, exists_eq_or_imp, hl, false_or]

/-- The strings among some lexemes, each with all its bytes. -/
def strings : List Lexeme → List Bytes
  | [] => []
  | .string text :: ls => text :: strings ls
  | _ :: ls => strings ls

theorem remaining_cons (l : Lexeme) (ls : List Lexeme) : remaining (l :: ls) = l.remains ++ remaining ls := rfl

/-- **The strings remain**, in their order. -/
theorem strings_remaining (ls : List Lexeme) : strings (remaining ls) = strings ls := by
  induction ls with
  | nil => rfl
  | cons l ls ih =>
    rw [remaining_cons]
    cases l <;> simp [Lexeme.remains, strings, ih]

/-- **No comment remains.** -/
theorem not_isComment_of_mem_remaining (h : l ∈ remaining ls) : ¬ l.IsComment := by
  obtain ⟨k, -, hl⟩ := List.mem_flatMap.mp h
  intro hcomment
  cases k <;> cases hcomment <;> simp [Lexeme.remains] at hl

/-- Where there is no comment, all remains. -/
theorem remaining_eq_self (h : ∀ l ∈ ls, ¬ l.IsComment) : remaining ls = ls := by
  induction ls with
  | nil => rfl
  | cons l ls ih =>
    obtain ⟨hl, hls⟩ := List.forall_mem_cons.mp h
    rw [remaining_cons, ih hls]
    cases l with
    | byte | string => rfl
    | lineComment body => exact absurd (.line body) hl
    | blockComment body => exact absurd (.block body) hl

theorem strip_open (h : Open u) : strip .string u = u := by
  induction h with
  | nil | backslash => rfl
  | @byte c bs hq hb _ ih =>
    rw [strip, ih]
    · rintro _ _ rfl
      exact absurd rfl hb
    · exact hq
  | escape _ ih => rw [strip, ih]

/-- The pass puts neither a slash nor a star in front of a text. -/
theorem head_strip (h : ∀ d ∈ rest.head?, d ≠ 0x2F ∧ d ≠ 0x2A) :
    ∀ d ∈ (strip .code rest).head?, d ≠ 0x2F ∧ d ≠ 0x2A := by
  cases rest with
  | nil => exact h
  | cons c rest =>
    obtain ⟨hs, hstar⟩ := h c rfl
    have hhead : (strip .code (c :: rest)).head? = some c := by
      by_cases hq : c = 0x22
      · rw [hq, strip]
        rfl
      · rw [strip_code_byte hq hs]
        rfl
    rw [hhead]
    exact h

/-- **What the pass leaves of a text** is what remains of its lexemes. -/
theorem Lexed.withoutComments (h : Lexed bs ls) : Lexed (withoutComments bs) (remaining ls) := by
  induction h with
  | ended => exact .ended
  | byte hq hs _ ih =>
    rw [Jsonc.withoutComments, strip_plain hq hs]
    exact .byte hq (fun hb => head_strip (hs hb)) ih
  | string hu _ ih =>
    rw [Jsonc.withoutComments, strip, strip_quoted hu]
    exact .string hu ih
  | openString hopen =>
    rw [Jsonc.withoutComments, strip, strip_open hopen]
    exact .openString hopen
  | @line body rest ls hb hr _ ih =>
    have hpass : strip .lineComment (body ++ rest) = strip .code rest := by
      cases rest with
      | nil =>
        rw [List.append_nil, strip_lineComment_open hb]
        rfl
      | cons d rest =>
        obtain rfl := hr d rfl
        rw [strip_lineComment hb, strip_code_byte (by decide) (by decide)]
    rw [Jsonc.withoutComments, strip, hpass]
    exact ih
  | block hb _ ih =>
    rw [Jsonc.withoutComments, strip, strip_blockComment hb]
    exact .byte (by decide) (fun heq => absurd heq (by decide)) ih
  | openBlock hb =>
    rw [Jsonc.withoutComments, strip, strip_blockComment_open hb]
    exact .byte (by decide) (fun heq => absurd heq (by decide)) .ended

/-- A text with a comment is longer than what remains of it. -/
theorem length_remaining (ls : List Lexeme) :
    ((remaining ls).flatMap Lexeme.written).length ≤ (ls.flatMap Lexeme.written).length ∧
    ((∃ l ∈ ls, l.IsComment) →
      ((remaining ls).flatMap Lexeme.written).length < (ls.flatMap Lexeme.written).length) := by
  induction ls with
  | nil => simp [remaining]
  | cons l ls ih =>
    obtain ⟨hle, hlt⟩ := ih
    rw [remaining_cons, List.flatMap_append, List.flatMap_cons, List.length_append, List.length_append]
    cases l with
    | byte b =>
      rw [exists_isComment_cons not_isComment_byte]
      simp only [Lexeme.remains, List.flatMap_singleton]
      exact ⟨Nat.add_le_add_left hle _, fun h => Nat.add_lt_add_left (hlt h) _⟩
    | string text =>
      rw [exists_isComment_cons not_isComment_string]
      simp only [Lexeme.remains, List.flatMap_singleton]
      exact ⟨Nat.add_le_add_left hle _, fun h => Nat.add_lt_add_left (hlt h) _⟩
    | lineComment body =>
      simp only [Lexeme.remains, Lexeme.written, List.flatMap_nil, List.length_nil, List.length_cons]
      omega
    | blockComment body =>
      simp only [Lexeme.remains, Lexeme.written, List.flatMap_singleton, List.length_cons, List.length_nil]
      omega

/-! ## Openers -/

/-- **The marks of a comment outside strings**: a slash, and a slash or a star behind it. -/
def HasOpener (bs : Bytes) : Prop :=
  ∃ front mark back, bs = front ++ 0x2F :: mark :: back ∧ (mark = 0x2F ∨ mark = 0x2A) ∧
    front.foldl Quoting.after .outside = .outside

theorem HasOpener.behind {front : Bytes} (h : HasOpener rest)
    (hf : front.foldl Quoting.after .outside = .outside) : HasOpener (front ++ rest) := by
  obtain ⟨front', mark, back, rfl, hmark, hf'⟩ := h
  refine ⟨front ++ front', mark, back, (List.append_assoc ..).symm, hmark, ?_⟩
  rw [List.foldl_append, hf, hf']

/-- A string is left by its closing quote only. -/
theorem quoted_left {front back : Bytes} (hu : Quoted u) (h : u = front ++ back)
    (hf : front.foldl Quoting.after .inside = .outside) : back = [] := by
  induction hu generalizing front with
  | close =>
    cases front with
    | nil => exact absurd hf nofun
    | cons c front => exact (List.append_eq_nil_iff.mp (List.cons.inj h).2.symm).2
  | byte hq hb _ ih =>
    cases front with
    | nil => exact absurd hf nofun
    | cons c front =>
      obtain ⟨rfl, htail⟩ := List.cons.inj h
      rw [List.foldl_cons, after_inside hq hb] at hf
      exact ih htail hf
  | escape _ ih =>
    match front with
    | [] => exact absurd hf nofun
    | [c] =>
      obtain ⟨rfl, -⟩ := List.cons.inj h
      exact absurd hf nofun
    | c :: d :: front =>
      obtain ⟨rfl, htail⟩ := List.cons.inj h
      exact ih (List.cons.inj htail).2 hf

/-- One that is not closed is never left. -/
theorem open_not_left {front back : Bytes} (hu : Open u) (h : u = front ++ back) :
    front.foldl Quoting.after .inside ≠ .outside := by
  induction hu generalizing front with
  | nil =>
    obtain ⟨rfl, -⟩ := List.append_eq_nil_iff.mp h.symm
    nofun
  | backslash =>
    cases front with
    | nil => nofun
    | cons c front =>
      obtain ⟨rfl, htail⟩ := List.cons.inj h
      obtain ⟨rfl, -⟩ := List.append_eq_nil_iff.mp htail.symm
      nofun
  | byte hq hb _ ih =>
    cases front with
    | nil => nofun
    | cons c front =>
      obtain ⟨rfl, htail⟩ := List.cons.inj h
      rw [List.foldl_cons, after_inside hq hb]
      exact ih htail
  | escape _ ih =>
    match front with
    | [] => nofun
    | [c] =>
      obtain ⟨rfl, -⟩ := List.cons.inj h
      nofun
    | c :: d :: inner =>
      obtain ⟨rfl, htail⟩ := List.cons.inj h
      show inner.foldl Quoting.after .inside ≠ .outside
      exact ih (List.cons.inj htail).2

/-- An opener behind a byte that opens nothing. -/
theorem HasOpener.of_byte (h : HasOpener (b :: rest)) (hq : b ≠ 0x22)
    (hs : b = 0x2F → ∀ d ∈ rest.head?, d ≠ 0x2F ∧ d ≠ 0x2A) : HasOpener rest := by
  obtain ⟨front, mark, back, heq, hmark, hf⟩ := h
  cases front with
  | nil =>
    obtain ⟨rfl, rfl⟩ := List.cons.inj heq
    obtain ⟨hline, hblock⟩ := hs rfl mark rfl
    exact absurd hmark (by simp [hline, hblock])
  | cons c front =>
    obtain ⟨rfl, rfl⟩ := List.cons.inj heq
    rw [List.foldl_cons, after_outside hq] at hf
    exact ⟨front, mark, back, rfl, hmark, hf⟩

/-- An opener behind a quote stands behind the string. -/
theorem HasOpener.of_quote (h : HasOpener (0x22 :: rest)) :
    ∃ front mark back, rest = front ++ 0x2F :: mark :: back ∧ (mark = 0x2F ∨ mark = 0x2A) ∧
      front.foldl Quoting.after .inside = .outside := by
  obtain ⟨front, mark, back, heq, hmark, hf⟩ := h
  cases front with
  | nil => exact absurd (List.cons.inj heq).1 (by decide)
  | cons c front =>
    obtain ⟨rfl, rfl⟩ := List.cons.inj heq
    exact ⟨front, mark, back, rfl, hmark, hf⟩

theorem HasOpener.of_string (h : HasOpener (0x22 :: (u ++ rest))) (hu : Quoted u) : HasOpener rest := by
  obtain ⟨front, mark, back, heq, hmark, hf⟩ := h.of_quote
  rcases List.append_eq_append_iff.mp heq with ⟨front', rfl, rfl⟩ | ⟨inner, rfl, hrest⟩
  · rw [List.foldl_append, foldl_after_quoted hu] at hf
    exact ⟨front', mark, back, rfl, hmark, hf⟩
  · -- the string is left at the opener, which is then the first thing behind it
    obtain rfl := quoted_left hu rfl hf
    exact ⟨[], mark, back, hrest.symm, hmark, rfl⟩

/-- **There is an opener** outside strings just where there is a comment. -/
theorem Lexed.hasOpener_iff (h : Lexed bs ls) : HasOpener bs ↔ ∃ l ∈ ls, l.IsComment := by
  induction h with
  | ended =>
    constructor
    · rintro ⟨front, mark, back, heq, -⟩
      simp at heq
    · rintro ⟨l, hl, -⟩
      exact absurd hl List.not_mem_nil
  | @byte b rest ls hq hs _ ih =>
    have hleft : [b].foldl Quoting.after .outside = .outside := after_outside hq
    rw [exists_isComment_cons not_isComment_byte, ← ih]
    exact ⟨fun h => h.of_byte hq hs, fun h => h.behind hleft⟩
  | @string u rest ls hu _ ih =>
    have hleft : (0x22 :: u).foldl Quoting.after .outside = .outside := foldl_after_quoted hu
    rw [exists_isComment_cons not_isComment_string, ← ih]
    exact ⟨fun h => h.of_string hu, fun h => h.behind hleft⟩
  | openString hopen =>
    constructor
    · intro h
      obtain ⟨front, mark, back, heq, -, hf⟩ := h.of_quote
      exact absurd hf (open_not_left hopen heq)
    · rintro ⟨l, hl, hcomment⟩
      rw [List.mem_singleton.mp hl] at hcomment
      exact absurd hcomment not_isComment_string
  | line =>
    have hopens : ∀ rest, HasOpener (0x2F :: 0x2F :: rest) := fun rest => ⟨[], 0x2F, rest, rfl, Or.inl rfl, rfl⟩
    exact iff_of_true (hopens _) ⟨_, List.mem_cons_self, .line _⟩
  | block | openBlock =>
    have hopens : ∀ rest, HasOpener (0x2F :: 0x2A :: rest) := fun rest => ⟨[], 0x2A, rest, rfl, Or.inr rfl, rfl⟩
    exact iff_of_true (hopens _) ⟨_, List.mem_cons_self, .block _⟩

/-- **The first pass takes all comments out, and nothing else.** Of a text and its lexemes it leaves a text
    with just those lexemes that are no comments, a blank for each block comment, and every string with all
    its bytes. So there is no opener of a comment left outside strings, a text stays as it is just if it has
    none, and a second pass changes nothing. -/
theorem withoutComments_exact (bs : Bytes) :
    (∃ ls, (∀ ls', Lexed bs ls' ↔ ls' = ls) ∧ ls.flatMap Lexeme.written = bs ∧
      (∀ ls', Lexed (withoutComments bs) ls' ↔ ls' = remaining ls) ∧
      (remaining ls).flatMap Lexeme.written = withoutComments bs ∧ strings (remaining ls) = strings ls) ∧
    ¬ HasOpener (withoutComments bs) ∧
    (withoutComments bs = bs ↔ ¬ HasOpener bs) ∧
    withoutComments (withoutComments bs) = withoutComments bs := by
  obtain ⟨ls, h⟩ := exists_lexed bs
  have hout := h.withoutComments
  have hlexed : ∀ {bs ls}, Lexed bs ls → ∀ ls', Lexed bs ls' ↔ ls' = ls :=
    fun h ls' => ⟨fun h' => h'.unique h, fun heq => heq ▸ h⟩
  have hclean : ¬ HasOpener (withoutComments bs) := by
    rw [hout.hasOpener_iff]
    rintro ⟨l, hl, hcomment⟩
    exact not_isComment_of_mem_remaining hl hcomment
  have hstays : ∀ {bs ls}, Lexed bs ls → (withoutComments bs = bs ↔ ¬ HasOpener bs) := by
    intro bs ls h
    constructor
    · intro heq hopener
      have hshort := (length_remaining ls).2 (h.hasOpener_iff.mp hopener)
      rw [h.withoutComments.written, h.written, heq] at hshort
      exact absurd hshort (Nat.lt_irrefl _)
    · intro hnone
      rw [h.hasOpener_iff] at hnone
      have hkeep : remaining ls = ls := remaining_eq_self fun l hl hcomment => hnone ⟨l, hl, hcomment⟩
      rw [← h.withoutComments.written, hkeep, h.written]
  exact ⟨⟨ls, hlexed h, h.written, hlexed hout, hout.written, strings_remaining ls⟩, hclean, hstays h,
    (hstays hout).mpr hclean⟩

end SharedPorts.Jsonc
