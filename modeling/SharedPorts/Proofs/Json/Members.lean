import Mathlib.Data.List.Basic
import SharedPorts.Json.Tree

/-!
# `SharedPorts.Proofs.Json.Members` — what an object says under a key

An object may hold a key many times. Keys are compared by the texts that they denote, however they are
spelled. One reader of objects lets the last member with a key count, another wants it to be the only one; what
the members say under a key is told here for both.

## Contents
- **The last member.** `Members.Has` and `LastUnder`; `lookup_lastOfEach`.
- **All members.** `Members.under`, the values under a key; `Members.Named`, that all keys are texts.
-/

namespace SharedPorts.Json

variable {members front back : Members} {key : Literal} {k j : String} {t t' : Tree}

/-! ## The last member -/

/-- There is a member with a given key. -/
def Members.Has (members : Members) (k : String) : Prop := ∃ m ∈ members, m.1.text? = some k

/-- **The last member with a key**, and its value. Keys are compared by the texts that they denote. -/
def LastUnder (members : Members) (k : String) (t : Tree) : Prop :=
  ∃ front key back, members = front ++ (key, t) :: back ∧ key.text? = some k ∧ ¬ Members.Has back k

theorem has_cons_iff : Members.Has ((key, t) :: members) k ↔ key.text? = some k ∨ members.Has k := by
  unfold Members.Has
  rw [List.exists_mem_cons_iff]

theorem lastOfEach_textless (h : key.text? = none) :
    lastOfEach ((key, t) :: members) = lastOfEach members := by
  rw [lastOfEach, h]

theorem lastOfEach_cons (h : key.text? = some k) :
    lastOfEach ((key, t) :: members) =
      if (lastOfEach members).any (·.1 == k) then lastOfEach members else (k, t) :: lastOfEach members := by
  rw [lastOfEach, h]

theorem any_lastOfEach_iff : (lastOfEach members).any (·.1 == k) = true ↔ members.Has k := by
  induction members with
  | nil => exact iff_of_false (by simp [lastOfEach]) (fun ⟨_, h, _⟩ => absurd h List.not_mem_nil)
  | cons m members ih =>
    obtain ⟨key, t⟩ := m
    rw [has_cons_iff, ← ih]
    cases hkey : key.text? with
    | none =>
      rw [lastOfEach_textless hkey]
      simp
    | some j =>
      rw [lastOfEach_cons hkey, Option.some.injEq]
      by_cases hj : (lastOfEach members).any (·.1 == j) = true
      · rw [if_pos hj]
        constructor
        · exact Or.inr
        · rintro (rfl | h)
          · exact hj
          · exact h
      · rw [if_neg hj, List.any_cons, Bool.or_eq_true, beq_iff_eq]

/-- The last member with a key is the last behind the first member, or is the first and only one. -/
theorem lastUnder_cons_iff : LastUnder ((key, t') :: members) k t ↔
    LastUnder members k t ∨ (key.text? = some k ∧ t' = t ∧ ¬ members.Has k) := by
  constructor
  · rintro ⟨front, key', back, heq, hkey, hback⟩
    cases front with
    | nil =>
      obtain ⟨hm, rfl⟩ := List.cons.inj heq
      obtain ⟨rfl, rfl⟩ := Prod.mk.inj hm
      exact Or.inr ⟨hkey, rfl, hback⟩
    | cons m front =>
      obtain ⟨-, rfl⟩ := List.cons.inj heq
      exact Or.inl ⟨front, key', back, rfl, hkey, hback⟩
  · rintro (⟨front, key', back, rfl, hkey, hback⟩ | ⟨hkey, rfl, hback⟩)
    · exact ⟨(key, t') :: front, key', back, rfl, hkey, hback⟩
    · exact ⟨[], key, members, rfl, hkey, hback⟩

theorem LastUnder.has (h : LastUnder members k t) : members.Has k := by
  obtain ⟨front, key, back, rfl, hkey, -⟩ := h
  exact ⟨(key, t), List.mem_append_right _ List.mem_cons_self, hkey⟩

/-- **What is found under a key** is the value of the last member with it. -/
theorem lookup_lastOfEach : (lastOfEach members).lookup k = some t ↔ LastUnder members k t := by
  induction members with
  | nil =>
    apply iff_of_false (by simp [lastOfEach])
    intro h
    obtain ⟨m, hm, -⟩ := h.has
    exact absurd hm List.not_mem_nil
  | cons m members ih =>
    obtain ⟨key, t'⟩ := m
    rw [lastUnder_cons_iff, ← ih]
    cases hkey : key.text? with
    | none =>
      rw [lastOfEach_textless hkey]
      simp
    | some j =>
      rw [lastOfEach_cons hkey, Option.some.injEq, ← any_lastOfEach_iff]
      by_cases hj : (lastOfEach members).any (·.1 == j) = true
      · rw [if_pos hj]
        constructor
        · exact Or.inl
        · rintro (h | ⟨rfl, -, hnot⟩)
          · exact h
          · exact absurd hj hnot
      · rw [if_neg hj, List.lookup_cons]
        by_cases hk : k = j
        · obtain rfl := hk
          have hlater : (lastOfEach members).lookup k ≠ some t := fun h => hj (any_lastOfEach_iff.mpr (ih.mp h).has)
          rw [beq_self_eq_true]
          dsimp only
          rw [Option.some.injEq, or_iff_right hlater, and_iff_right rfl, and_iff_left hj]
        · rw [beq_false_of_ne hk]
          dsimp only
          rw [or_iff_left (fun h => hk h.1.symm)]

theorem LastUnder.unique (h : LastUnder members k t) (h' : LastUnder members k t') : t = t' :=
  Option.some.inj ((lookup_lastOfEach.mpr h).symm.trans (lookup_lastOfEach.mpr h'))

theorem lookup_lastOfEach_eq_none : (lastOfEach members).lookup k = none ↔ ¬ members.Has k := by
  rw [← any_lastOfEach_iff, List.lookup_eq_none_iff, List.any_eq_true, not_exists]
  apply forall_congr'
  intro m
  rw [not_and, beq_iff_eq, bne_iff_ne, ne_comm]

/-! ## All members -/

/-- The values of the members with a key, in their order. -/
def Members.under (members : Members) (k : String) : List Tree :=
  members.filterMap fun m => if m.1.text? = some k then some m.2 else none

/-- All keys are texts. -/
def Members.Named (members : Members) : Prop := ∀ m ∈ members, ∃ k, m.1.text? = some k

/-- A key has one text. -/
theorem text?_ne (h : key.text? = some k) (hne : k ≠ j) : key.text? ≠ some j := by
  rwa [h, ne_eq, Option.some.injEq]

theorem under_cons_of_key (h : key.text? = some k) :
    Members.under ((key, t) :: members) k = t :: members.under k :=
  List.filterMap_cons_some (if_pos h)

theorem under_cons_of_ne (h : key.text? ≠ some k) : Members.under ((key, t) :: members) k = members.under k :=
  List.filterMap_cons_none (if_neg h)

theorem under_append : Members.under (front ++ back) k = front.under k ++ back.under k :=
  List.filterMap_append

/-- A member among others is there under its key. -/
theorem under_amid_of_key (h : key.text? = some k) :
    Members.under (front ++ (key, t) :: back) k = front.under k ++ t :: back.under k := by
  rw [under_append, under_cons_of_key h]

/-- Under another key it does not show. -/
theorem under_amid_of_ne (h : key.text? ≠ some k) :
    Members.under (front ++ (key, t) :: back) k = Members.under (front ++ back) k := by
  rw [under_append, under_cons_of_ne h, under_append]

theorem named_amid_iff : Members.Named (front ++ (key, t) :: back) ↔
    (∃ k, key.text? = some k) ∧ Members.Named (front ++ back) := by
  unfold Members.Named
  simp only [List.forall_mem_append, List.forall_mem_cons]
  exact and_left_comm

end SharedPorts.Json
