import SharedPorts.Text.Blank

/-!
# `SharedPorts.Proofs.Text.Fields` — the fields of a text

A text is cut into fields at a separator. Where it stands just once, or where only the first of its places
counts, the fields are the parts of the text before it and behind it.

## Contents
- **Fields.** `fields_append`, and `intercalate_fields`, which puts a text together again.
- **Parts.** `fields_eq_cons_iff` and `fields_eq_pair_iff`, the first fields as parts of the text, and
  `lastField_inj`, its last field.
-/

namespace SharedPorts.Text

variable {sep : Char} {cs f f' g g' : List Char} {fs : List (List Char)}

/-! ## Fields -/

theorem fields_ne_nil (cs : List Char) : fields sep cs ≠ [] := by
  cases cs with
  | nil => simp [fields]
  | cons c cs =>
    unfold fields
    split
    · simp
    · split <;> simp

/-- Fields on both sides of a separator. -/
theorem fields_append (cs ds : List Char) : fields sep (cs ++ sep :: ds) = fields sep cs ++ fields sep ds := by
  induction cs with
  | nil => simp [fields]
  | cons c cs ih =>
    by_cases hc : c = sep
    · simp [fields, hc, ih]
    · cases hf : fields sep cs with
      | nil => exact absurd hf (fields_ne_nil cs)
      | cons f fs => simp [fields, hc, ih, hf]

/-- A text without separators is one field. -/
theorem fields_of_not_mem {cs : List Char} (h : sep ∉ cs) : fields sep cs = [cs] := by
  induction cs with
  | nil => rfl
  | cons c cs ih =>
    rw [List.mem_cons, not_or] at h
    obtain ⟨hc, hcs⟩ := h
    simp [fields, Ne.symm hc, ih hcs]

/-- **The fields of a text**, with separators between them, are the text. -/
theorem intercalate_fields (cs : List Char) : [sep].intercalate (fields sep cs) = cs := by
  induction cs with
  | nil => rfl
  | cons c cs ih =>
    cases hf : fields sep cs with
    | nil => exact absurd hf (fields_ne_nil cs)
    | cons f fs =>
      rw [hf] at ih
      by_cases hc : c = sep
      · rw [fields, if_pos hc, hf, List.intercalate_cons_cons, ih, hc]
        rfl
      · rw [fields, if_neg hc, hf]
        cases fs with
        | nil => rw [List.intercalate_singleton] at ih ⊢; rw [ih]
        | cons g gs =>
          rw [List.intercalate_cons_cons] at ih ⊢
          rw [← ih]
          rfl

/-! ## Parts -/

/-- A text is one field just if there is no separator in it. -/
theorem fields_eq_singleton_iff : fields sep cs = [f] ↔ cs = f ∧ sep ∉ cs := by
  constructor
  · intro h
    have hsep : sep ∉ cs := by
      intro hmem
      obtain ⟨front, back, rfl⟩ := List.append_of_mem hmem
      rw [fields_append] at h
      have hlength := congrArg List.length h
      have hfront : 0 < (fields sep front).length := List.length_pos_iff.mpr (fields_ne_nil front)
      have hback : 0 < (fields sep back).length := List.length_pos_iff.mpr (fields_ne_nil back)
      rw [List.length_append, List.length_singleton] at hlength
      omega
    rw [fields_of_not_mem hsep] at h
    exact ⟨(List.cons.inj h).1, hsep⟩
  · rintro ⟨rfl, hsep⟩
    exact fields_of_not_mem hsep

/-- **The first field** stands before the first separator, and the others are those of what is behind it. -/
theorem fields_eq_cons_iff (hfs : fs ≠ []) :
    fields sep cs = f :: fs ↔ ∃ rest, cs = f ++ sep :: rest ∧ sep ∉ f ∧ fields sep rest = fs := by
  constructor
  · intro h
    by_cases hsep : sep ∈ cs
    · obtain ⟨front, back, rfl, hfront⟩ := List.eq_append_cons_of_mem hsep
      rw [fields_append, fields_of_not_mem hfront] at h
      obtain ⟨rfl, hback⟩ := List.cons.inj h
      exact ⟨back, rfl, hfront, hback⟩
    · rw [fields_of_not_mem hsep] at h
      exact absurd (List.cons.inj h).2.symm hfs
  · rintro ⟨rest, rfl, hf, rfl⟩
    rw [fields_append, fields_of_not_mem hf]
    rfl

/-- **A text has two fields** just if there is one separator in it. -/
theorem fields_eq_pair_iff : fields sep cs = [f, g] ↔ cs = f ++ sep :: g ∧ sep ∉ f ∧ sep ∉ g := by
  rw [fields_eq_cons_iff (by simp)]
  constructor
  · rintro ⟨rest, rfl, hf, hrest⟩
    obtain ⟨rfl, hg⟩ := fields_eq_singleton_iff.mp hrest
    exact ⟨rfl, hf, hg⟩
  · rintro ⟨rfl, hf, hg⟩
    exact ⟨g, rfl, hf, fields_of_not_mem hg⟩

/-- **The last field** is what stands behind the last separator, whatever stands before it. -/
theorem lastField_inj (h : f ++ sep :: g = f' ++ sep :: g') (hg : sep ∉ g) (hg' : sep ∉ g') : f = f' ∧ g = g' := by
  have hfields : fields sep f ++ [g] = fields sep f' ++ [g'] := by
    rw [← fields_of_not_mem hg, ← fields_of_not_mem hg', ← fields_append, ← fields_append, h]
  obtain rfl : g = g' := List.singleton_inj.mp (List.append_inj_right' hfields rfl)
  exact ⟨List.append_cancel_right h, rfl⟩

end SharedPorts.Text
