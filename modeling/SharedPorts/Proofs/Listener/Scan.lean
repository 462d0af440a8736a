import SharedPorts.Listener.Scan
import SharedPorts.Proofs.Text.Utf8
import Mathlib.Data.List.Sort

/-!
# `SharedPorts.Proofs.Listener.Scan` — a scan lists every port once, in order

A table of sockets has many lines that show nothing, and may show a port more than once. A scan drops the
former, keeps the first line of each port, and sorts what is left. Here this is told without the scan: which
line shows which socket, and which line of a port is the first. All that is done in between neither loses a
port nor takes one from nowhere, so that lines that show nothing make no difference, and the order of the
others only to the host that is shown.

## Contents
- **Lines.** `Platform.body` and `Platform.Shows`, which lines count, and what they show.
- **First lines.** `Platform.ShowsFirst`, a socket whose line is the first for its port.
- **Listings.** `Platform.Lists`, the list that a scan should come to; there is only one.
- **Scans.** `Listener.mem_collect_iff`, `Listener.collect_ordered` and `Listener.scan_lists`.
- **Other lines.** `Platform.Alike`, lines that differ in lines that show nothing; `scan_lossless`.
-/

namespace SharedPorts

namespace Platform

variable {p : Platform} {line : List Char} {lines lines' : List (List Char)} {l k : Listener} {port : Port}

/-! ## Lines -/

/-- The lines of a table that may show sockets: those behind the header of `lsof`, and all of `ss`. -/
def body (p : Platform) (text : String) : List (List Char) :=
  match p with
  | .linux => Text.lines text.toList
  | .macOS => (Text.lines text.toList).drop 1
  | .windows => []

/-- **A column that may be an address**: there is a colon in it, and it begins neither as a device nor as an
    offset does. -/
structure MayBeAddress (column : List Char) : Prop where
  colon : ':' ∈ column
  noDevice : ¬ ['0', 'x'] <+: column
  noOffset : ¬ ['0', 't'] <+: column

/-- **What a line shows**: the socket whose address stands in its address column. -/
inductive Shows : Platform → List Char → Listener → Prop
  /-- With `ss` that is the fourth of at least five columns. -/
  | linux {line state received sent address peer : List Char} {more : List (List Char)} {l : Listener}
      (hw : Text.words line = state :: received :: sent :: address :: peer :: more)
      (ha : Listener.parse? address = some l) : Shows .linux line l
  /-- With `lsof` it is the last column that may be an address, behind the first eight. -/
  | macOS {line address : List Char} {front behind : List (List Char)} {l : Listener}
      (hw : Text.words line = front ++ address :: behind) (hf : 8 ≤ front.length)
      (hm : MayBeAddress address) (hb : ∀ column ∈ behind, ¬ MayBeAddress column)
      (ha : Listener.parse? address = some l) : Shows .macOS line l

theorem looksLikeAddress_iff {column : List Char} :
    Listener.looksLikeAddress column = true ↔ MayBeAddress column := by
  have hprefix (a b : Char) : column.take 2 ≠ [a, b] ↔ ¬ [a, b] <+: column := by
    rw [List.prefix_iff_eq_take]
    exact not_congr eq_comm
  unfold Listener.looksLikeAddress
  simp only [Bool.and_eq_true, List.contains_iff_mem, bne_iff_ne, hprefix]
  constructor
  · rintro ⟨⟨hcolon, hdevice⟩, hoffset⟩
    exact ⟨hcolon, hdevice, hoffset⟩
  · rintro ⟨hcolon, hdevice, hoffset⟩
    exact ⟨⟨hcolon, hdevice⟩, hoffset⟩

theorem socketColumn?_eq_some_iff {columns : List (List Char)} {address : List Char} :
    Listener.socketColumn? columns = some address ↔
      ∃ state received sent peer more, columns = state :: received :: sent :: address :: peer :: more := by
  constructor
  · intro h
    unfold Listener.socketColumn? at h
    split at h
    · obtain rfl := Option.some.inj h
      exact ⟨_, _, _, _, _, rfl⟩
    · exact absurd h nofun
  · rintro ⟨state, received, sent, peer, more, rfl⟩
    rfl

theorem fileColumn?_eq_some_iff {columns : List (List Char)} {address : List Char} :
    Listener.fileColumn? columns = some address ↔ ∃ front behind, columns = front ++ address :: behind ∧
      8 ≤ front.length ∧ MayBeAddress address ∧ ∀ column ∈ behind, ¬ MayBeAddress column := by
  unfold Listener.fileColumn?
  rw [List.find?_eq_some_iff_append, looksLikeAddress_iff]
  constructor
  · rintro ⟨hm, back, rest, hsplit, hb⟩
    -- the search begins at the last column, so what it has passed over stands behind
    have hdrop : columns.drop 8 = rest.reverse ++ address :: back.reverse := by
      rw [← List.reverse_reverse (columns.drop 8), hsplit]
      simp
    have hlength : 8 ≤ columns.length := by
      have hne : columns.drop 8 ≠ [] := by simp [hdrop]
      have := List.length_pos_iff.mpr hne
      simp only [List.length_drop] at this
      omega
    refine ⟨columns.take 8 ++ rest.reverse, back.reverse, ?_, ?_, hm, ?_⟩
    · rw [List.append_assoc, ← hdrop, List.take_append_drop]
    · simp only [List.length_append, List.length_take]
      omega
    · intro column hcolumn hmay
      have hnot := hb column (List.mem_reverse.mp hcolumn)
      rw [looksLikeAddress_iff.mpr hmay] at hnot
      exact absurd hnot (by simp)
  · rintro ⟨front, behind, rfl, hf, hm, hb⟩
    refine ⟨hm, behind.reverse, (front.drop 8).reverse, ?_, ?_⟩
    · rw [List.drop_append_of_le_length hf]
      simp
    · intro column hcolumn
      have hnot := hb column (List.mem_reverse.mp hcolumn)
      rw [← looksLikeAddress_iff] at hnot
      simpa using hnot

/-- The address column of a line. -/
def column? : Platform → List (List Char) → Option (List Char)
  | .linux => Listener.socketColumn?
  | .macOS => Listener.fileColumn?
  | .windows => fun _ => none

/-- **The socket in a line** is the one that it shows. -/
theorem shows_iff : p.Shows line l ↔ Listener.ofLine? p.column? line = some l := by
  unfold Listener.ofLine?
  rw [Option.bind_eq_some_iff]
  constructor
  · intro h
    cases h with
    | linux hw ha => exact ⟨_, socketColumn?_eq_some_iff.mpr ⟨_, _, _, _, _, hw⟩, ha⟩
    | macOS hw hf hm hb ha => exact ⟨_, fileColumn?_eq_some_iff.mpr ⟨_, _, hw, hf, hm, hb⟩, ha⟩
  · rintro ⟨address, hcolumn, ha⟩
    cases p with
    | linux =>
      obtain ⟨state, received, sent, peer, more, hw⟩ := socketColumn?_eq_some_iff.mp hcolumn
      exact .linux hw ha
    | macOS =>
      obtain ⟨front, behind, hw, hf, hm, hb⟩ := fileColumn?_eq_some_iff.mp hcolumn
      exact .macOS hw hf hm hb ha
    | windows => exact absurd hcolumn nofun

/-- A line shows one socket at most. -/
theorem Shows.unique (h : p.Shows line l) (h' : p.Shows line k) : l = k :=
  Option.some.inj ((shows_iff.mp h).symm.trans (shows_iff.mp h'))

/-! ## First lines -/

/-- **A socket is shown first** in some lines, where no line before it shows its port. -/
def ShowsFirst (p : Platform) (lines : List (List Char)) (l : Listener) : Prop :=
  ∃ front line back, lines = front ++ line :: back ∧ p.Shows line l ∧
    ∀ d ∈ front, ∀ k, p.Shows d k → k.port ≠ l.port

theorem not_showsFirst_nil : ¬ p.ShowsFirst [] l := by
  rintro ⟨front, line, back, hlines, -⟩
  simp at hlines

/-- It is shown by the first line, or first by the others, and then its port is not in the first line. -/
theorem showsFirst_cons_iff : p.ShowsFirst (line :: lines) l ↔
    p.Shows line l ∨ p.ShowsFirst lines l ∧ ∀ k, p.Shows line k → k.port ≠ l.port := by
  constructor
  · rintro ⟨front, first, back, hlines, hshows, hf⟩
    cases front with
    | nil =>
      obtain ⟨rfl, -⟩ := List.cons.inj hlines
      exact Or.inl hshows
    | cons d front =>
      obtain ⟨rfl, rfl⟩ := List.cons.inj hlines
      refine Or.inr ⟨⟨front, first, back, rfl, hshows, ?_⟩, hf line List.mem_cons_self⟩
      intro d hd
      exact hf d (List.mem_cons_of_mem _ hd)
  · rintro (hshows | ⟨⟨front, first, back, rfl, hshows, hf⟩, hline⟩)
    · exact ⟨[], line, lines, rfl, hshows, fun _ hd => absurd hd List.not_mem_nil⟩
    · exact ⟨line :: front, first, back, rfl, hshows, List.forall_mem_cons.mpr ⟨hline, hf⟩⟩

/-- A line that shows nothing does not matter. -/
theorem showsFirst_cons_of_silent (h : ∀ k, ¬ p.Shows line k) :
    p.ShowsFirst (line :: lines) l ↔ p.ShowsFirst lines l := by
  rw [showsFirst_cons_iff, or_iff_right (h l)]
  exact and_iff_left fun k hk => absurd hk (h k)

/-- **A port is shown first** just if it is shown at all. -/
theorem exists_showsFirst_iff :
    (∃ l, p.ShowsFirst lines l ∧ l.port = port) ↔ ∃ line ∈ lines, ∃ l, p.Shows line l ∧ l.port = port := by
  constructor
  · rintro ⟨l, ⟨front, line, back, rfl, hshows, -⟩, hport⟩
    exact ⟨line, List.mem_append_right _ List.mem_cons_self, l, hshows, hport⟩
  · rintro ⟨line, hline, l, hshows, hport⟩
    induction lines with
    | nil => exact absurd hline List.not_mem_nil
    | cons first lines ih =>
      by_cases hfirst : ∃ k, p.Shows first k ∧ k.port = port
      · obtain ⟨k, hk, hkport⟩ := hfirst
        exact ⟨k, showsFirst_cons_iff.mpr (Or.inl hk), hkport⟩
      · rcases List.mem_cons.mp hline with rfl | hline
        · exact absurd ⟨l, hshows, hport⟩ hfirst
        · obtain ⟨k, hk, hkport⟩ := ih hline
          refine ⟨k, showsFirst_cons_iff.mpr (Or.inr ⟨hk, ?_⟩), hkport⟩
          intro k' hk' heq
          exact hfirst ⟨k', hk', heq.trans hkport⟩

/-! ## Listings -/

/-- **The list of the sockets in some lines**: the ports in order and each of them once, just those that some
    line shows, and each with the host that the first such line shows. -/
structure Lists (p : Platform) (lines : List (List Char)) (ls : List Listener) : Prop where
  ordered : ls.Pairwise (·.port < ·.port)
  port_iff : ∀ port, (∃ l ∈ ls, l.port = port) ↔ ∃ line ∈ lines, ∃ l, p.Shows line l ∧ l.port = port
  mem_iff : ∀ l, l ∈ ls ↔ p.ShowsFirst lines l

variable {ls ls' : List Listener}

/-- Sockets in the order of ports, each port once, can be listed in one way only. -/
theorem eq_of_ordered (h : ls.Pairwise (·.port < ·.port)) (h' : ls'.Pairwise (·.port < ·.port))
    (hmem : ∀ l, l ∈ ls ↔ l ∈ ls') : ls = ls' := by
  have hirrefl : Std.Irrefl fun l k : Listener => l.port < k.port := ⟨fun l => UInt16.lt_irrefl l.port⟩
  have hantisymm : Std.Antisymm fun l k : Listener => l.port < k.port :=
    ⟨fun _ _ hlt hgt => absurd hgt (UInt16.lt_asymm hlt)⟩
  exact h.eq_of_mem_iff h' hmem

/-- Some lines have only one list of their sockets. -/
theorem Lists.unique (h : p.Lists lines ls) (h' : p.Lists lines ls') : ls = ls' := by
  apply eq_of_ordered h.ordered h'.ordered
  intro l
  rw [h.mem_iff, h'.mem_iff]

/-- Lines that show the same ports list the same ports. -/
theorem Lists.ports_eq (h : p.Lists lines ls) (h' : p.Lists lines' ls')
    (hports : ∀ port, (∃ line ∈ lines, ∃ l, p.Shows line l ∧ l.port = port) ↔
      ∃ line ∈ lines', ∃ l, p.Shows line l ∧ l.port = port) :
    ls.map (·.port) = ls'.map (·.port) := by
  have hirrefl : Std.Irrefl fun a b : Port => a < b := ⟨UInt16.lt_irrefl⟩
  have hantisymm : Std.Antisymm fun a b : Port => a < b := ⟨fun _ _ hlt hgt => absurd hgt (UInt16.lt_asymm hlt)⟩
  have hordered := List.pairwise_map.mpr h.ordered
  have hordered' := List.pairwise_map.mpr h'.ordered
  apply hordered.eq_of_mem_iff hordered'
  intro port
  rw [List.mem_map, List.mem_map, h.port_iff, h'.port_iff, hports]

end Platform

/-! ## Scans -/

namespace Listener

variable {p : Platform} {lines : List (List Char)} {l k : Listener} {ls : List Listener}

/-- What is kept of the sockets of some lines are those that are shown first. -/
theorem mem_firstOfEach_iff :
    l ∈ firstOfEach (lines.filterMap (ofLine? p.column?)) ↔ p.ShowsFirst lines l := by
  induction lines with
  | nil => simp [firstOfEach, Platform.not_showsFirst_nil]
  | cons line lines ih =>
    cases hline : ofLine? p.column? line with
    | none =>
      have hsilent : ∀ k, ¬ p.Shows line k := by
        intro k hk
        rw [Platform.shows_iff, hline] at hk
        exact absurd hk nofun
      rw [List.filterMap_cons_none hline, Platform.showsFirst_cons_of_silent hsilent]
      exact ih
    | some k =>
      -- the line bars the port of its one socket from what the others show
      have hshows : ∀ k', p.Shows line k' ↔ k' = k := by
        intro k'
        rw [Platform.shows_iff, hline, Option.some.injEq, eq_comm]
      rw [List.filterMap_cons_some hline, firstOfEach, List.mem_cons, List.mem_filter, ih,
        Platform.showsFirst_cons_iff]
      simp only [hshows, bne_iff_ne, forall_eq, ne_comm]

/-- No port is kept twice. -/
theorem pairwise_firstOfEach (ls : List Listener) : (firstOfEach ls).Pairwise (·.port ≠ ·.port) := by
  induction ls with
  | nil => exact .nil
  | cons l ls ih =>
    refine List.pairwise_cons.mpr ⟨?_, ih.sublist List.filter_sublist⟩
    intro k hk
    have hne := (List.mem_filter.mp hk).2
    exact Ne.symm (by simpa using hne)

theorem mem_collect_iff : l ∈ collect ls ↔ l ∈ firstOfEach ls := List.mem_mergeSort

/-- **The sockets are in the order of ports**, and each port is there once. -/
theorem collect_ordered (ls : List Listener) : (collect ls).Pairwise (·.port < ·.port) := by
  have hsorted : (collect ls).Pairwise fun l k => decide (l.port ≤ k.port) = true := by
    apply List.pairwise_mergeSort
    · intro a b c hab hbc
      simp only [decide_eq_true_eq] at hab hbc ⊢
      exact UInt16.le_trans hab hbc
    · intro a b
      simp only [Bool.or_eq_true, decide_eq_true_eq]
      exact UInt16.le_total a.port b.port
  have hne : (collect ls).Pairwise (·.port ≠ ·.port) := by
    apply ((List.mergeSort_perm _ _).pairwise_iff ?_).mpr (pairwise_firstOfEach ls)
    intro a b hab
    exact Ne.symm hab
  -- in order, and none equal: strictly in order
  apply (hsorted.and hne).imp
  rintro l k ⟨hle, hne⟩
  exact UInt16.lt_of_le_of_ne (of_decide_eq_true hle) hne

/-- What is collected from some lines is the list of their sockets. -/
theorem collect_lists (p : Platform) (lines : List (List Char)) :
    p.Lists lines (collect (lines.filterMap (ofLine? p.column?))) where
  ordered := collect_ordered _
  port_iff := by
    intro port
    rw [← Platform.exists_showsFirst_iff]
    simp only [mem_collect_iff, mem_firstOfEach_iff]
  mem_iff := by
    intro l
    rw [mem_collect_iff, mem_firstOfEach_iff]

/-- **A scan** of a table comes to the list of the sockets in its lines. -/
theorem scan_lists (hp : p ≠ .windows) (text : String) :
    ∃ ls, scan p (some (Utf8.encode text)) = .ok ls ∧ p.Lists (p.body text) ls := by
  have hdecode : Utf8.decode (Utf8.encode text) = .ok text := by
    have h := Utf8.decode?_encode text
    unfold Utf8.decode? at h
    cases hresult : Utf8.decode (Utf8.encode text) with
    | error fault => simp [hresult, Except.toOption] at h
    | ok text' => simpa [hresult, Except.toOption] using h
  refine ⟨_, ?_, collect_lists p (p.body text)⟩
  cases p with
  | linux => simp only [scan, scanOutput, hdecode]; rfl
  | macOS => simp only [scan, scanOutput, hdecode]; rfl
  | windows => exact absurd rfl hp

end Listener

/-! ## Other lines -/

namespace Platform

variable {p : Platform} {lines lines' : List (List Char)} {l : Listener} {ls : List Listener}

/-- **Lines that are alike**: they differ only in lines that show nothing. -/
inductive Alike (p : Platform) : List (List Char) → List (List Char) → Prop
  | nil : Alike p [] []
  | same {line : List Char} {lines lines' : List (List Char)} (h : Alike p lines lines') :
      Alike p (line :: lines) (line :: lines')
  | inserted {line : List Char} {lines lines' : List (List Char)} (hs : ∀ l, ¬ p.Shows line l)
      (h : Alike p lines lines') : Alike p lines (line :: lines')
  | deleted {line : List Char} {lines lines' : List (List Char)} (hs : ∀ l, ¬ p.Shows line l)
      (h : Alike p lines lines') : Alike p (line :: lines) lines'

theorem Alike.refl (lines : List (List Char)) : p.Alike lines lines := by
  induction lines with
  | nil => exact .nil
  | cons line lines ih => exact .same ih

/-- A line that shows nothing may be left out anywhere. -/
theorem Alike.without {line : List Char} (front back : List (List Char)) (hs : ∀ l, ¬ p.Shows line l) :
    p.Alike (front ++ line :: back) (front ++ back) := by
  induction front with
  | nil => exact .deleted hs (.refl back)
  | cons first front ih => exact .same ih

/-- They show the same sockets first. -/
theorem Alike.showsFirst_iff (h : p.Alike lines lines') : p.ShowsFirst lines l ↔ p.ShowsFirst lines' l := by
  induction h with
  | nil => exact Iff.rfl
  | same h ih => rw [showsFirst_cons_iff, showsFirst_cons_iff, ih]
  | inserted hs h ih => rw [showsFirst_cons_of_silent hs, ih]
  | deleted hs h ih => rw [showsFirst_cons_of_silent hs, ih]

/-- And they have the same list. -/
theorem Alike.lists (h : p.Alike lines lines') (hl : p.Lists lines ls) : p.Lists lines' ls where
  ordered := hl.ordered
  port_iff := by
    intro port
    rw [hl.port_iff, ← exists_showsFirst_iff, ← exists_showsFirst_iff]
    simp only [h.showsFirst_iff]
  mem_iff := by
    intro l
    rw [hl.mem_iff, h.showsFirst_iff]

/-- **A scan loses nothing.** It lists the ports in order and each of them once, just those that some line
    shows, and each with the host that the first such line shows. A table whose lines differ only in lines that
    show nothing has the same list; one with the same lines in another order has one of the same ports. -/
theorem scan_lossless (p : Platform) (hp : p ≠ .windows) (text : String) :
    ∃ ls, Listener.scan p (some (Utf8.encode text)) = .ok ls ∧ p.Lists (p.body text) ls ∧
      (∀ text', p.Alike (p.body text) (p.body text') →
        Listener.scan p (some (Utf8.encode text')) = .ok ls) ∧
      ∀ text', (p.body text).Perm (p.body text') →
        ∃ ls', Listener.scan p (some (Utf8.encode text')) = .ok ls' ∧ ls'.map (·.port) = ls.map (·.port) := by
  obtain ⟨ls, hscan, hlists⟩ := Listener.scan_lists hp text
  refine ⟨ls, hscan, hlists, ?_, ?_⟩
  · intro text' halike
    obtain ⟨ls', hscan', hlists'⟩ := Listener.scan_lists hp text'
    rw [hscan', (halike.lists hlists).unique hlists']
  · intro text' hperm
    obtain ⟨ls', hscan', hlists'⟩ := Listener.scan_lists hp text'
    refine ⟨ls', hscan', hlists'.ports_eq hlists ?_⟩
    intro port
    simp only [hperm.mem_iff]

/-- A table of `ss` that shows a port twice. -/
def shownTwice : String := "LISTEN 0 5 *:80 *:*\nLISTEN 0 5 [::1]:80 *:*\nLISTEN 0 5 *:22 *:*\n"

/-- The same with lines between that show nothing, and with other ends of lines. -/
def shownBetween : String := "State\nLISTEN 0 5 *:80 *:*\r\n\nLISTEN 0 5 [::1]:80 *:*\r\nLISTEN 0 5 *:22 *:*"

/-- The same in another order. -/
def shownBackwards : String := "LISTEN 0 5 *:22 *:*\nLISTEN 0 5 [::1]:80 *:*\nLISTEN 0 5 *:80 *:*\n"

/-- The host that is shown first is listed, unless the order is another one. -/
theorem scan_lossless_twice :
    Platform.linux ≠ .windows ∧
    ∃ ls, Listener.scan .linux (some (Utf8.encode shownTwice)) = .ok ls ∧ ⟨80, "*"⟩ ∈ ls ∧
      Listener.scan .linux (some (Utf8.encode shownBetween)) = .ok ls ∧
      ∃ ls', Listener.scan .linux (some (Utf8.encode shownBackwards)) = .ok ls' ∧
        ls'.map (·.port) = ls.map (·.port) := by
  refine ⟨by decide, ?_⟩
  have htwice : body .linux shownTwice =
      ["LISTEN 0 5 *:80 *:*".toList, "LISTEN 0 5 [::1]:80 *:*".toList, "LISTEN 0 5 *:22 *:*".toList] := by decide
  have hbetween : body .linux shownBetween =
      ["State".toList, "LISTEN 0 5 *:80 *:*".toList, [], "LISTEN 0 5 [::1]:80 *:*".toList,
        "LISTEN 0 5 *:22 *:*".toList] := by decide
  have hbackwards : body .linux shownBackwards =
      ["LISTEN 0 5 *:22 *:*".toList, "LISTEN 0 5 [::1]:80 *:*".toList, "LISTEN 0 5 *:80 *:*".toList] := by decide
  obtain ⟨ls, hscan, hlists, halike, hperm⟩ := scan_lossless .linux (by decide) shownTwice
  rw [htwice] at hlists halike hperm
  have hshows : Shows .linux "LISTEN 0 5 *:80 *:*".toList ⟨80, "*"⟩ := shows_iff.mpr (by decide)
  have hfirst := (hlists.mem_iff _).mpr (showsFirst_cons_iff.mpr (Or.inl hshows))
  have hsilent : ∀ line, Listener.ofLine? (column? .linux) line = none → ∀ l, ¬ Shows .linux line l := by
    intro line hline l hshows
    rw [shows_iff, hline] at hshows
    exact absurd hshows nofun
  refine ⟨ls, hscan, hfirst, ?_, ?_⟩
  · apply halike shownBetween
    rw [hbetween]
    exact .inserted (hsilent _ (by decide)) (.same (.inserted (hsilent _ (by decide)) (.same (.same .nil))))
  · apply hperm shownBackwards
    rw [hbackwards]
    exact (List.reverse_perm [_, _, _]).symm

end Platform

end SharedPorts
