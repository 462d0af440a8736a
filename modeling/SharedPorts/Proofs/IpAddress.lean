import SharedPorts.IpAddress
import SharedPorts.Proofs.Text.Digits

/-!
# `SharedPorts.Proofs.IpAddress` — addresses through their text and back

An address is written in one way and read in many. Reading what was written comes down to where each reader
stops: an octet and a group stop at a point or colon, a run of groups stops at `::` or at the end, and four
numbers are never found where there is no point.

## Contents
- **Digits.** `takeDigits_of_writes`, `readOctet_toDigits` and `readGroup_toDigits`.
- **Four numbers.** `readFour_fourChars` and `readFour_of_no_dot`.
- **Groups.** `groupChars` and `readGroups_groupChars`.
- **Eight groups.** `readEight_whole`, `readEight_sides` and `readEight_mapped`.
- **The run of zeros.** `longestZeros_spec`.
- **Addresses.** `parse?_text`.
- **Characters.** `IsPlain` and `Takes`, what the readers take; `plain_of_parse?`.
-/

namespace SharedPorts.IpAddress

open Digits

variable {digit? : Char → Option Nat} {cs rest : List Char} {ds : List Nat}

/-! ## Digits -/

/-- A text does not begin with a digit. -/
def Stops (digit? : Char → Option Nat) (cs : List Char) : Prop := ∀ c rest, cs = c :: rest → digit? c = none

theorem stops_nil : Stops digit? [] := fun _ _ h => absurd h (by simp)

theorem stops_cons {c : Char} (h : digit? c = none) : Stops digit? (c :: cs) := by
  intro d rest heq
  rw [← (List.cons.inj heq).1]
  exact h

theorem takeDigits_of_stops (h : Stops digit? cs) : takeDigits digit? cs = ([], cs) := by
  cases cs with
  | nil => rfl
  | cons c cs =>
    unfold takeDigits
    rw [h c cs rfl]

theorem takeDigits_of_writes (h : Writes digit? cs ds) (hs : Stops digit? rest) :
    takeDigits digit? (cs ++ rest) = (ds, rest) := by
  induction cs generalizing ds with
  | nil =>
    obtain rfl := h.eq_nil_iff.mp rfl
    exact takeDigits_of_stops hs
  | cons c cs ih =>
    obtain ⟨d, ds, rfl, hc, hw⟩ := h.exists_cons
    rw [List.cons_append]
    unfold takeDigits
    rw [hc]
    dsimp only
    rw [ih hw]

/-- An octet is read up to where its digits end. -/
theorem readOctet_toDigits (a : UInt8) (hs : Stops Integer.digit? rest) :
    readOctet (Nat.toDigits 10 a.toNat ++ rest) = some (a, rest) := by
  obtain ⟨ds, hw, hv, hfirst⟩ := toDigits_writes (by decide) digit?_digitChar a.toNat
  have ha : a.toNat < 256 := a.toNat_lt
  have hfold : ds.foldl (fun n d => 10 * n + d) 0 = a.toNat := hv
  unfold readOctet
  rw [takeDigits_of_writes hw hs]
  split
  · rename_i heq
    rcases hfirst with ⟨-, rfl⟩ | ⟨d, more, rfl, -⟩ <;> exact absurd (Prod.mk.inj heq).1 (by simp)
  · -- a zero in front of other digits is never written
    rename_i heq
    rcases hfirst with ⟨-, rfl⟩ | ⟨d, more, rfl, hne⟩
    · exact absurd (Prod.mk.inj heq).1 (by simp)
    · exact absurd (List.cons.inj (Prod.mk.inj heq).1).1 hne
  · rename_i heq
    obtain ⟨rfl, rfl⟩ := Prod.mk.inj heq
    dsimp only
    rw [hfold, if_pos (by omega), UInt8.ofNat_toNat]

theorem hexadecimal?_digitChar : ∀ d < 16, hexadecimal? (Nat.digitChar d) = some d := by decide

/-- A group is read up to where its digits end. -/
theorem readGroup_toDigits (g : UInt16) (hs : Stops hexadecimal? rest) :
    readGroup (Nat.toDigits 16 g.toNat ++ rest) = some (g, rest) := by
  obtain ⟨ds, hw, hv, hfirst⟩ := toDigits_writes (by decide) hexadecimal?_digitChar g.toNat
  have hg : g.toNat < 16 ^ 4 := g.toNat_lt
  have hlen : ds.length ≤ 4 := by
    rw [← hw.length_eq]
    exact (Nat.length_toDigits_le_iff (by decide) (by decide)).mpr hg
  have hfold : ds.foldl (fun n d => 16 * n + d) 0 = g.toNat := hv
  unfold readGroup
  rw [takeDigits_of_writes hw hs]
  cases ds with
  | nil => exact absurd (hw.eq_nil_iff.mpr rfl) Nat.toDigits_ne_nil
  | cons d ds =>
    dsimp only
    rw [if_pos hlen, hfold, UInt16.ofNat_toNat]

/-! ## Four numbers -/

/-- The characters of four numbers. -/
def fourChars (a b c d : UInt8) : List Char :=
  Nat.toDigits 10 a.toNat ++ '.' :: (Nat.toDigits 10 b.toNat ++ '.' ::
    (Nat.toDigits 10 c.toNat ++ '.' :: Nat.toDigits 10 d.toNat))

theorem readMark_self (c : Char) (cs : List Char) : readMark c (c :: cs) = some cs := by
  show (if c = c then some cs else none) = some cs
  rw [if_pos rfl]

theorem readFour_fourChars (a b c d : UInt8) : readFour (fourChars a b c d) = some ((a, b, c, d), []) := by
  have hdot : ∀ cs, Stops Integer.digit? ('.' :: cs) := fun _ => stops_cons rfl
  have hlast := readOctet_toDigits d stops_nil
  rw [List.append_nil] at hlast
  unfold readFour fourChars
  simp only [readOctet_toDigits _ (hdot _), readMark_self, hlast, Option.bind_eq_bind, Option.bind_some,
    Option.pure_def]

theorem mem_of_mem_takeDigits {c : Char} (h : c ∈ (takeDigits digit? cs).2) : c ∈ cs := by
  induction cs with
  | nil => exact h
  | cons d cs ih =>
    unfold takeDigits at h
    cases hd : digit? d with
    | none =>
      rw [hd] at h
      exact h
    | some n =>
      rw [hd] at h
      exact List.mem_cons_of_mem d (ih h)

/-- What an octet leaves of a text is what its digits leave. -/
theorem readOctet_rest {a : UInt8} (h : readOctet cs = some (a, rest)) :
    rest = (takeDigits Integer.digit? cs).2 := by
  unfold readOctet at h
  split at h
  · exact absurd h (by simp)
  · exact absurd h (by simp)
  · rename_i heq
    dsimp only at h
    split at h
    · rw [heq]
      exact (Prod.mk.inj (Option.some.inj h)).2.symm
    · exact absurd h (by simp)

theorem readMark_of_not_mem {c : Char} (h : c ∉ cs) : readMark c cs = none := by
  cases cs with
  | nil => rfl
  | cons d cs =>
    have hne : d ≠ c := by
      rintro rfl
      exact h List.mem_cons_self
    show (if d = c then some cs else none) = none
    rw [if_neg hne]

/-- Four numbers are not found where there is no point. -/
theorem readFour_of_no_dot (h : '.' ∉ cs) : readFour cs = none := by
  unfold readFour
  cases ho : readOctet cs with
  | none => rfl
  | some found =>
    obtain ⟨a, rest⟩ := found
    have hrest : '.' ∉ rest := by
      rw [readOctet_rest ho]
      exact fun hmem => h (mem_of_mem_takeDigits hmem)
    simp only [Option.bind_eq_bind, Option.bind_some, readMark_of_not_mem hrest, Option.bind_none]

/-! ## Groups -/

/-- The characters of some groups, with a colon in front of each; the first one may do without. -/
def groupChars : Bool → List UInt16 → List Char
  | _, [] => []
  | first, g :: gs => (if first then [] else [':']) ++ (Nat.toDigits 16 g.toNat ++ groupChars false gs)

theorem groupsText_toList (gs : List UInt16) : (groupsText gs).toList = groupChars true gs := by
  unfold groupsText
  rw [String.toList_intercalate, List.map_map]
  have hhex : ∀ g : UInt16, (Text.hex g.toNat).toList = Nat.toDigits 16 g.toNat :=
    fun g => String.toList_ofList
  induction gs with
  | nil => rfl
  | cons g gs ih =>
    cases gs with
    | nil =>
      show List.intercalate _ [(Text.hex g.toNat).toList] = Nat.toDigits 16 g.toNat ++ []
      rw [List.intercalate_singleton, hhex, List.append_nil]
    | cons k gs =>
      rw [List.map_cons, List.map_cons, List.intercalate_cons_cons, ← List.map_cons, ih]
      show (Text.hex g.toNat).toList ++ [':'] ++ _ = Nat.toDigits 16 g.toNat ++ (':' :: _)
      rw [hhex, List.append_assoc]
      rfl

/-- No group is written with a point. -/
theorem dot_not_mem_groupChars (first : Bool) (gs : List UInt16) : '.' ∉ groupChars first gs := by
  induction gs generalizing first with
  | nil => exact List.not_mem_nil
  | cons g gs ih =>
    obtain ⟨ds, hw, -⟩ := toDigits_writes (by decide) hexadecimal?_digitChar g.toNat
    have hdigits : '.' ∉ Nat.toDigits 16 g.toNat := by
      intro hmem
      have hmapped : hexadecimal? '.' ∈ (Nat.toDigits 16 g.toNat).map hexadecimal? := List.mem_map_of_mem hmem
      rw [show (Nat.toDigits 16 g.toNat).map hexadecimal? = ds.map some from hw] at hmapped
      obtain ⟨d, -, hd⟩ := List.mem_map.mp hmapped
      rw [show hexadecimal? '.' = none from rfl] at hd
      exact absurd hd (by simp)
    unfold groupChars
    intro hmem
    rcases List.mem_append.mp hmem with hmem | hmem
    · cases first <;> simp at hmem
    · rcases List.mem_append.mp hmem with hmem | hmem
      · exact hdigits hmem
      · exact ih false hmem

theorem stops_groupChars (gs : List UInt16) (hs : Stops hexadecimal? rest) :
    Stops hexadecimal? (groupChars false gs ++ rest) := by
  cases gs with
  | nil => exact hs
  | cons g gs => exact stops_cons rfl

theorem readColon_groupChars (first : Bool) (g : UInt16) (gs : List UInt16) :
    readColon first (groupChars first (g :: gs) ++ rest) =
      some (Nat.toDigits 16 g.toNat ++ (groupChars false gs ++ rest)) := by
  cases first with
  | true =>
    show some ([] ++ (Nat.toDigits 16 g.toNat ++ groupChars false gs) ++ rest) = _
    rw [List.nil_append, List.append_assoc]
  | false =>
    show readMark ':' (':' :: (Nat.toDigits 16 g.toNat ++ groupChars false gs ++ rest)) = _
    rw [readMark_self, List.append_assoc]

/-- Without a point, groups are not ended by four numbers. -/
theorem no_four_of_no_dot (room : Nat) (first : Bool) (h : '.' ∉ cs) :
    (if room = 0 then none else (readColon first cs).bind readFour) = none := by
  have hcolon : (readColon first cs).bind readFour = none := by
    refine Option.bind_eq_none_iff.mpr (fun rest hrest => readFour_of_no_dot ?_)
    unfold readColon at hrest
    cases first with
    | true =>
      obtain rfl := Option.some.inj hrest
      exact h
    | false =>
      cases cs with
      | nil => exact absurd hrest (by simp [readMark])
      | cons c cs =>
        by_cases hc : c = ':'
        · subst hc
          obtain rfl := Option.some.inj ((readMark_self ':' cs).symm.trans hrest)
          exact fun hmem => h (List.mem_cons_of_mem _ hmem)
        · exact absurd hrest (by simp [readMark, hc])
  rw [hcolon, ite_self]

/-- **Groups are read** one by one, as long as there is room, up to where no other group follows. -/
theorem readGroups_groupChars {room : Nat} {first : Bool} {gs : List UInt16} (hroom : gs.length ≤ room)
    (hdot : '.' ∉ rest) (hs : Stops hexadecimal? rest)
    (hend : gs.length < room → (readColon (first && gs.isEmpty) rest).bind readGroup = none) :
    readGroups room first (groupChars first gs ++ rest) = (gs, false, rest) := by
  induction gs generalizing room first with
  | nil =>
    cases room with
    | zero => rfl
    | succ room =>
      have hgroup := hend (Nat.succ_pos room)
      rw [List.isEmpty_nil, Bool.and_true] at hgroup
      show readGroups (room + 1) first rest = _
      unfold readGroups
      rw [no_four_of_no_dot room first hdot, hgroup]
  | cons g gs ih =>
    cases room with
    | zero => exact absurd hroom (by simp)
    | succ room =>
      have hall : '.' ∉ groupChars first (g :: gs) ++ rest := by
        intro hmem
        exact (List.mem_append.mp hmem).elim (dot_not_mem_groupChars first _) hdot
      -- behind the first group each has its colon in front
      have hmore : readGroups room false (groupChars false gs ++ rest) = (gs, false, rest) := by
        refine ih (Nat.le_of_succ_le_succ hroom) ?_
        intro hlt
        have hgroup := hend (Nat.succ_lt_succ hlt)
        rw [List.isEmpty_cons, Bool.and_false] at hgroup
        rw [Bool.false_and]
        exact hgroup
      unfold readGroups
      rw [no_four_of_no_dot room first hall, readColon_groupChars, Option.bind_some,
        readGroup_toDigits g (stops_groupChars gs hs)]
      dsimp only
      rw [hmore]

/-! ## Eight groups -/

theorem ofSides_eq {head tail : List UInt16} {groups : Vector UInt16 8}
    (h : head ++ List.replicate (8 - head.length - tail.length) 0 ++ tail = groups.toList) :
    ofSides head tail = some (.v6 groups) := by
  unfold ofSides
  dsimp only
  rw [dif_pos (by rw [h, Vector.length_toList])]
  congr 2
  rw [← Vector.toArray_inj]
  show (head ++ List.replicate (8 - head.length - tail.length) 0 ++ tail).toArray = groups.toArray
  rw [h, Vector.toArray_toList]

/-- No group begins with a colon. -/
theorem readGroup_colon (cs : List Char) : readGroup (':' :: cs) = none := by
  unfold readGroup
  rw [takeDigits_of_stops (stops_cons rfl)]

/-- An address that leaves nothing out. -/
theorem readEight_whole {groups : Vector UInt16 8} :
    readEight (groupChars true groups.toList) = some (.v6 groups, []) := by
  have hlen : groups.toList.length = 8 := Vector.length_toList
  have hread : readGroups 8 true (groupChars true groups.toList ++ []) = (groups.toList, false, []) := by
    refine readGroups_groupChars (Nat.le_of_eq hlen) List.not_mem_nil stops_nil ?_
    intro hlt
    omega
  rw [List.append_nil] at hread
  unfold readEight
  rw [hread]
  dsimp only
  have hsides : ofSides groups.toList [] = some (.v6 groups) := by
    apply ofSides_eq
    rw [hlen, List.append_nil]
    exact List.append_nil _
  rw [if_pos hlen, hsides, Option.map_some]

/-- Groups in front of `::` are read up to it. -/
theorem readGroups_colons {room : Nat} {head : List UInt16} (h : head.length ≤ room) (hdot : '.' ∉ cs) :
    readGroups room true (groupChars true head ++ ':' :: ':' :: cs) = (head, false, ':' :: ':' :: cs) := by
  refine readGroups_groupChars h ?_ (stops_cons rfl) ?_
  · intro hmem
    rcases List.mem_cons.mp hmem with heq | hmem
    · exact absurd heq (by decide)
    · rcases List.mem_cons.mp hmem with heq | hmem
      · exact absurd heq (by decide)
      · exact hdot hmem
  · intro _
    cases head with
    | nil => exact readGroup_colon (':' :: cs)
    | cons g gs =>
      show (readMark ':' (':' :: ':' :: cs)).bind readGroup = none
      rw [readMark_self]
      exact readGroup_colon cs

/-- An address that leaves out some groups. -/
theorem readEight_sides {head tail : List UInt16} {groups : Vector UInt16 8}
    (hlen : head.length + tail.length ≤ 7)
    (h : head ++ List.replicate (8 - head.length - tail.length) 0 ++ tail = groups.toList) :
    readEight (groupChars true head ++ ':' :: ':' :: groupChars true tail) = some (.v6 groups, []) := by
  have hhead : readGroups 8 true (groupChars true head ++ ':' :: ':' :: groupChars true tail) =
      (head, false, ':' :: ':' :: groupChars true tail) :=
    readGroups_colons (by omega) (dot_not_mem_groupChars true tail)
  have htail : readGroups (7 - head.length) true (groupChars true tail ++ []) = (tail, false, []) := by
    refine readGroups_groupChars (by omega) List.not_mem_nil stops_nil ?_
    intro _
    cases tail <;> rfl
  rw [List.append_nil] at htail
  unfold readEight
  rw [hhead]
  dsimp only
  rw [if_neg (by omega)]
  simp only [Bool.false_eq_true, if_false, readMark_self, Option.bind_eq_bind, Option.bind_some, htail,
    ofSides_eq h, Option.pure_def]

/-- The two halves of a group are octets. -/
theorem toNat_halves (u : UInt16) :
    (UInt8.ofNat (u.toNat / 256)).toNat = u.toNat / 256 ∧ (UInt8.ofNat (u.toNat % 256)).toNat = u.toNat % 256 := by
  have hu : u.toNat < 65536 := u.toNat_lt
  constructor
  · rw [UInt8.toNat_ofNat']
    exact Nat.mod_eq_of_lt (by omega)
  · rw [UInt8.toNat_ofNat']
    exact Nat.mod_mod _ _

/-- A group is the two numbers of its halves. -/
theorem joinOctets_halves (u : UInt16) :
    joinOctets (UInt8.ofNat (u.toNat / 256)) (UInt8.ofNat (u.toNat % 256)) = u := by
  obtain ⟨hhigh, hlow⟩ := toNat_halves u
  unfold joinOctets
  rw [hhigh, hlow, Nat.div_add_mod', UInt16.ofNat_toNat]

/-- A last group before four numbers, and the numbers. -/
theorem readGroups_four (a b c d : UInt8) :
    readGroups 7 true (groupChars true [0xFFFF] ++ ':' :: fourChars a b c d) =
      ([0xFFFF, joinOctets a b, joinOctets c d], true, []) := by
  have hnone : (readColon true (groupChars true [0xFFFF] ++ ':' :: fourChars a b c d)).bind readFour = none :=
    rfl
  have hgroup : readGroup (Nat.toDigits 16 (0xFFFF : UInt16).toNat ++
      (groupChars false [] ++ ':' :: fourChars a b c d)) = some (0xFFFF, ':' :: fourChars a b c d) :=
    readGroup_toDigits 0xFFFF (stops_cons rfl)
  have hfour : readGroups 6 false (':' :: fourChars a b c d) =
      ([joinOctets a b, joinOctets c d], true, []) := by
    unfold readGroups readColon
    simp only [Bool.false_eq_true, if_false, readMark_self, Option.bind_some, readFour_fourChars,
      Nat.succ_ne_zero]
  unfold readGroups
  rw [hnone, ite_self, readColon_groupChars, Option.bind_some, hgroup]
  dsimp only
  rw [hfour]

/-- An address that ends in four numbers, behind the mark of mapped addresses. -/
theorem readEight_mapped {g k : UInt16} {groups : Vector UInt16 8}
    (h : groups.toList = [0, 0, 0, 0, 0, 0xFFFF, g, k]) :
    readEight (':' :: ':' :: (groupChars true [0xFFFF] ++ ':' ::
      fourChars (UInt8.ofNat (g.toNat / 256)) (UInt8.ofNat (g.toNat % 256))
        (UInt8.ofNat (k.toNat / 256)) (UInt8.ofNat (k.toNat % 256)))) = some (.v6 groups, []) := by
  have hhead : ∀ cs, readGroups 8 true (':' :: ':' :: cs) = ([], false, ':' :: ':' :: cs) := by
    intro cs
    rfl
  have hsides : ofSides [] [0xFFFF, g, k] = some (.v6 groups) := by
    apply ofSides_eq
    rw [h]
    rfl
  unfold readEight
  rw [hhead]
  simp only [List.length_nil, Bool.false_eq_true, if_false, readMark_self, Option.bind_eq_bind,
    Option.bind_some, readGroups_four, joinOctets_halves, hsides, Option.pure_def, Nat.reduceEqDiff, Nat.sub_zero]

/-! ## The run of zeros -/

theorem leadingZeros_spec (gs : List UInt16) :
    gs = List.replicate (leadingZeros gs) 0 ++ gs.drop (leadingZeros gs) := by
  induction gs with
  | nil => rfl
  | cons g gs ih =>
    unfold leadingZeros at ih ⊢
    by_cases hg : g = 0
    · subst hg
      rw [List.takeWhile_cons_of_pos (by simp), List.length_cons, List.replicate_succ, List.drop_succ_cons,
        List.cons_append, ← ih]
    · rw [List.takeWhile_cons_of_neg (by simpa using hg)]
      rfl

/-- The run that is left out consists of zeros. -/
theorem longestZeros_spec (gs : List UInt16) :
    (longestZeros gs).1 + (longestZeros gs).2 ≤ gs.length ∧
      gs.drop (longestZeros gs).1 =
        List.replicate (longestZeros gs).2 0 ++ gs.drop ((longestZeros gs).1 + (longestZeros gs).2) := by
  induction gs with
  | nil => exact ⟨Nat.le_refl 0, rfl⟩
  | cons g gs ih =>
    obtain ⟨hbound, hdrop⟩ := ih
    unfold longestZeros
    dsimp only
    by_cases hle : (longestZeros gs).2 ≤ leadingZeros (g :: gs)
    · rw [if_pos hle]
      have hzeros := leadingZeros_spec (g :: gs)
      have hlen := congrArg List.length hzeros
      rw [List.length_append, List.length_replicate] at hlen
      refine ⟨by omega, ?_⟩
      rw [Nat.zero_add, List.drop_zero]
      exact hzeros
    · rw [if_neg hle]
      refine ⟨by rw [List.length_cons]; omega, ?_⟩
      rw [List.drop_succ_cons, Nat.add_right_comm, List.drop_succ_cons]
      exact hdrop

/-! ## Addresses -/

theorem toList_toString (n : Nat) : (toString n).toList = Nat.toDigits 10 n := Nat.toList_repr

theorem text_v4_toList (a b c d : UInt8) : (text (.v4 a b c d)).toList = fourChars a b c d := by
  have hdot : (toString ".").toList = ['.'] := rfl
  have hbyte : ∀ n : UInt8, (toString n).toList = Nat.toDigits 10 n.toNat := fun n => toList_toString n.toNat
  unfold text fourChars
  simp only [String.toList_append, hdot, hbyte, List.append_assoc, List.cons_append, List.nil_append]

/-- How an address of eight groups is written. -/
theorem text_v6_toList (groups : Vector UInt16 8) :
    (∃ g k, groups.toList = [0, 0, 0, 0, 0, 0xFFFF, g, k] ∧
      (text (.v6 groups)).toList = ':' :: ':' :: (groupChars true [0xFFFF] ++ ':' ::
        fourChars (UInt8.ofNat (g.toNat / 256)) (UInt8.ofNat (g.toNat % 256))
          (UInt8.ofNat (k.toNat / 256)) (UInt8.ofNat (k.toNat % 256)))) ∨
    (text (.v6 groups)).toList = groupChars true groups.toList ∨
    ∃ head tail, head.length + tail.length ≤ 7 ∧
      head ++ List.replicate (8 - head.length - tail.length) 0 ++ tail = groups.toList ∧
      (text (.v6 groups)).toList = groupChars true head ++ ':' :: ':' :: groupChars true tail := by
  have hlen : groups.toList.length = 8 := Vector.length_toList
  unfold text
  dsimp only
  split
  · rename_i g k heq
    left
    have hmark : (toString "::ffff:").toList = ':' :: ':' :: (groupChars true [0xFFFF] ++ [':']) := by decide
    have hdot : (toString ".").toList = ['.'] := rfl
    refine ⟨g, k, heq, ?_⟩
    unfold fourChars
    rw [(toNat_halves g).1, (toNat_halves g).2, (toNat_halves k).1, (toNat_halves k).2]
    simp only [String.toList_append, hmark, hdot, toList_toString, List.append_assoc, List.cons_append,
      List.nil_append]
  · right
    obtain ⟨hbound, hdrop⟩ := longestZeros_spec groups.toList
    split
    · exact Or.inl (groupsText_toList _)
    · right
      refine ⟨groups.toList.take (longestZeros groups.toList).1,
        groups.toList.drop ((longestZeros groups.toList).1 + (longestZeros groups.toList).2), ?_, ?_, ?_⟩
      · rw [List.length_take, List.length_drop]
        omega
      · rw [List.length_take, List.length_drop, hlen]
        have hrun : 8 - min (longestZeros groups.toList).1 8 -
            (8 - ((longestZeros groups.toList).1 + (longestZeros groups.toList).2)) =
            (longestZeros groups.toList).2 := by omega
        rw [hrun, List.append_assoc, ← hdrop, List.take_append_drop]
      · rw [String.toList_append, String.toList_append, groupsText_toList, groupsText_toList,
          List.append_assoc]
        rfl

/-- **An address is read** from its text. -/
theorem parse?_text (a : IpAddress) : parse? (text a) = some a := by
  cases a with
  | v4 a b c d =>
    unfold parse?
    rw [text_v4_toList, readFour_fourChars]
  | v6 groups =>
    have hparse : ∀ cs, (text (.v6 groups)).toList = cs → readFour cs = none →
        readEight cs = some (.v6 groups, []) → parse? (text (.v6 groups)) = some (.v6 groups) := by
      intro cs hcs hfour height
      unfold parse?
      rw [hcs, hfour, height]
    -- one case for each form of the text; the reader of four numbers refuses all of them first
    rcases text_v6_toList groups with ⟨g, k, heq, htext⟩ | htext | ⟨head, tail, hlen, hsides, htext⟩
    · exact hparse _ htext rfl (readEight_mapped heq)
    · exact hparse _ htext (readFour_of_no_dot (dot_not_mem_groupChars true _)) readEight_whole
    · refine hparse _ htext (readFour_of_no_dot ?_) (readEight_sides hlen hsides)
      intro hmem
      rcases List.mem_append.mp hmem with hmem | hmem
      · exact dot_not_mem_groupChars true _ hmem
      · rcases List.mem_cons.mp hmem with heq | hmem
        · exact absurd heq (by decide)
        · rcases List.mem_cons.mp hmem with heq | hmem
          · exact absurd heq (by decide)
          · exact dot_not_mem_groupChars true _ hmem

/-! ## Characters -/

/-- A character of addresses: a digit in either base, a colon or a point. -/
def IsPlain (c : Char) : Prop := c = ':' ∨ c = '.' ∨ ∃ d, hexadecimal? c = some d

/-- **What a reader takes** from the beginning of a text: characters of addresses. -/
def Takes (cs rest : List Char) : Prop := ∃ front, cs = front ++ rest ∧ ∀ c ∈ front, IsPlain c

theorem Takes.refl (cs : List Char) : Takes cs cs := ⟨[], rfl, nofun⟩

theorem Takes.trans {more : List Char} (h : Takes cs rest) (h' : Takes rest more) : Takes cs more := by
  obtain ⟨front, rfl, hf⟩ := h
  obtain ⟨front', rfl, hf'⟩ := h'
  refine ⟨front ++ front', by rw [List.append_assoc], ?_⟩
  intro c hc
  rcases List.mem_append.mp hc with hc | hc
  · exact hf c hc
  · exact hf' c hc

theorem plain_of_hexadecimal? {c : Char} {d : Nat} (h : hexadecimal? c = some d) : IsPlain c :=
  Or.inr (Or.inr ⟨d, h⟩)

theorem plain_of_digit? {c : Char} {d : Nat} (h : Integer.digit? c = some d) : IsPlain c := by
  apply Or.inr
  apply Or.inr
  unfold hexadecimal?
  split
  · exact ⟨_, rfl⟩
  · split
    · exact ⟨_, rfl⟩
    · exact ⟨d, h⟩

theorem takes_takeDigits (hd : ∀ c d, digit? c = some d → IsPlain c) (cs : List Char) :
    Takes cs (takeDigits digit? cs).2 := by
  induction cs with
  | nil => exact .refl []
  | cons c cs ih =>
    unfold takeDigits
    cases hc : digit? c with
    | none => exact .refl (c :: cs)
    | some d =>
      have hfirst : Takes (c :: cs) cs := by
        refine ⟨[c], rfl, ?_⟩
        intro c' hc'
        rw [List.mem_singleton.mp hc']
        exact hd c d hc
      exact hfirst.trans ih

theorem takes_readOctet {a : UInt8} (h : readOctet cs = some (a, rest)) : Takes cs rest := by
  rw [readOctet_rest h]
  exact takes_takeDigits (fun _ _ => plain_of_digit?) cs

theorem takes_readMark {c : Char} (hc : IsPlain c) (h : readMark c cs = some rest) : Takes cs rest := by
  cases cs with
  | nil => exact absurd h nofun
  | cons d cs =>
    have hmark : (if d = c then some cs else none) = some rest := h
    split at hmark
    · rename_i hd
      obtain rfl := Option.some.inj hmark
      refine ⟨[d], rfl, ?_⟩
      intro c' hc'
      rw [List.mem_singleton.mp hc', hd]
      exact hc
    · exact absurd hmark nofun

theorem takes_readFour {a b c d : UInt8} (h : readFour cs = some ((a, b, c, d), rest)) : Takes cs rest := by
  have hdot : IsPlain '.' := Or.inr (Or.inl rfl)
  simp only [readFour, Option.bind_eq_bind, Option.bind_eq_some_iff, Prod.exists, Option.pure_def,
    Option.some.injEq, Prod.mk.injEq] at h
  obtain ⟨_, cs₁, h₁, cs₂, h₂, _, cs₃, h₃, cs₄, h₄, _, cs₅, h₅, cs₆, h₆, _, cs₇, h₇, -, rfl⟩ := h
  have hfirst : Takes cs cs₂ := (takes_readOctet h₁).trans (takes_readMark hdot h₂)
  have hsecond : Takes cs₂ cs₄ := (takes_readOctet h₃).trans (takes_readMark hdot h₄)
  have hthird : Takes cs₄ cs₆ := (takes_readOctet h₅).trans (takes_readMark hdot h₆)
  exact hfirst.trans (hsecond.trans (hthird.trans (takes_readOctet h₇)))

theorem takes_readGroup {g : UInt16} (h : readGroup cs = some (g, rest)) : Takes cs rest := by
  have htakes := takes_takeDigits (fun _ _ => plain_of_hexadecimal?) cs
  unfold readGroup at h
  split at h
  · exact absurd h nofun
  · rename_i heq
    split at h
    · rw [heq] at htakes
      rw [(Prod.mk.inj (Option.some.inj h)).2] at htakes
      exact htakes
    · exact absurd h nofun

theorem takes_readColon {first : Bool} (h : readColon first cs = some rest) : Takes cs rest := by
  unfold readColon at h
  split at h
  · obtain rfl := Option.some.inj h
    exact .refl cs
  · exact takes_readMark (Or.inl rfl) h

theorem takes_readGroups {room : Nat} {first four : Bool} {gs : List UInt16}
    (h : readGroups room first cs = (gs, four, rest)) : Takes cs rest := by
  induction room generalizing first four cs gs with
  | zero =>
    obtain ⟨-, -, rfl⟩ := h
    exact .refl _
  | succ room ih =>
    unfold readGroups at h
    split at h
    · -- four numbers end the groups
      rename_i hfour
      split at hfour
      · exact absurd hfour nofun
      · obtain ⟨cs₁, hcolon, hnumbers⟩ := Option.bind_eq_some_iff.mp hfour
        obtain ⟨-, -, rfl⟩ := h
        exact (takes_readColon hcolon).trans (takes_readFour hnumbers)
    · split at h
      · obtain ⟨-, -, rfl⟩ := h
        exact .refl _
      · rename_i hgroup
        obtain ⟨cs₁, hcolon, hnumber⟩ := Option.bind_eq_some_iff.mp hgroup
        obtain ⟨-, -, rfl⟩ := h
        exact (takes_readColon hcolon).trans ((takes_readGroup hnumber).trans (ih rfl))

theorem takes_readEight {address : IpAddress} (h : readEight cs = some (address, rest)) : Takes cs rest := by
  have hcolon : IsPlain ':' := Or.inl rfl
  unfold readEight at h
  cases hgroups : readGroups 8 true cs with
  | mk head more =>
    obtain ⟨four, cs₁⟩ := more
    have hhead := takes_readGroups hgroups
    rw [hgroups] at h
    dsimp only at h
    split at h
    · obtain ⟨a, -, ha⟩ := Option.map_eq_some_iff.mp h
      rw [(Prod.mk.inj ha).2] at hhead
      exact hhead
    · split at h
      · exact absurd h nofun
      · simp only [Option.bind_eq_bind, Option.bind_eq_some_iff, Option.pure_def, Option.some.injEq,
          Prod.mk.injEq] at h
        obtain ⟨cs₂, h₂, cs₃, h₃, a, -, -, hrest⟩ := h
        have hcolons : Takes cs cs₃ := hhead.trans ((takes_readMark hcolon h₂).trans (takes_readMark hcolon h₃))
        rw [← hrest]
        exact hcolons.trans (takes_readGroups rfl)

/-- **An address consists of its characters**: what is read as one has no others. -/
theorem plain_of_parse? {s : String} {address : IpAddress} (h : parse? s = some address) :
    ∀ c ∈ s.toList, IsPlain c := by
  have hwhole : Takes s.toList [] := by
    unfold parse? at h
    split at h
    · rename_i hfour
      exact takes_readFour hfour
    · split at h
      · rename_i height
        exact takes_readEight height
      · exact absurd h nofun
  obtain ⟨front, hs, hf⟩ := hwhole
  rw [List.append_nil] at hs
  rw [hs]
  exact hf

/-- There are no brackets in an address. -/
theorem not_plain_bracket : ¬ IsPlain '[' ∧ ¬ IsPlain ']' := by
  have hopen : hexadecimal? '[' = none := by decide
  have hclose : hexadecimal? ']' = none := by decide
  simp [IsPlain, hopen, hclose]

end SharedPorts.IpAddress
