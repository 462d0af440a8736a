import Mathlib.Data.List.TakeWhile
import SharedPorts.Path
import SharedPorts.Proofs.Text.Fields

/-!
# `SharedPorts.Proofs.Path` — paths above a path, and beside it

Creating what is missing above a path and writing a file beside it are told by the pieces of the paths: what
is above a path is a beginning of it that stops before a piece which leads somewhere, and the path with
another extension differs from it in its last name only.

## Contents
- **Above.** `Path.Above`, and `above_of_mem_parents`.
- **Extensions.** `stem_append`.
- **Beside.** `Path.Beside`, and `beside_of_withExtension`, for the path with another extension.
-/

namespace SharedPorts

/-! ## Above -/

namespace Path

/-- Nothing can be created at the root or at the empty path. -/
def Bare (q : Path) : Prop := q.pieces = ["", ""] ∨ q.pieces = [""]

/-- **A path is above another**: it is a beginning of it, up to pieces that stay, and the piece behind these
    leads somewhere. -/
structure Above (q p : Path) (stays : List String) (piece : String) (more : List String) : Prop where
  pieces : p.pieces = q.pieces ++ stays ++ piece :: more
  stays : ∀ other ∈ stays, Path.stays other = true
  leads : Path.stays piece = false
  noSlash : ∃ name, q.pieces.getLast? = some name ∧ name ≠ ""
  absolute : p.isAbsolute = q.isAbsolute

/-- What is left without pieces that stay begins with one that leads somewhere. -/
theorem leads_of_dropWhile {pieces rest : List String} {piece : String}
    (h : pieces.dropWhile stays = piece :: rest) : stays piece = false := by
  have hhead := List.head?_dropWhile_not stays pieces
  rw [h] at hhead
  simpa using hhead

/-- A path that goes on behind a first piece leads from the root just if that piece is empty. -/
theorem isAbsolute_cons (first second : String) (rest : List String) :
    (Path.mk (first :: second :: rest)).isAbsolute = (first == "") := by
  simp [isAbsolute, isEmpty]

theorem upTo_above (first : String) (back : List String) {piece : String} (hp : stays piece = false)
    (more : List String) :
    (upTo first back).Bare ∨
      ∃ still, (upTo first back).Above ⟨first :: (back.reverse ++ piece :: more)⟩ still piece more := by
  have hback : back.reverse = (back.dropWhile stays).reverse ++ (back.takeWhile stays).reverse := by
    rw [← List.reverse_append, List.takeWhile_append_dropWhile]
  have hstays : ∀ other ∈ (back.takeWhile stays).reverse, stays other = true := by
    intro other hother
    exact List.mem_takeWhile_imp (List.mem_reverse.mp hother)
  have habsolute : (Path.mk (first :: (back.reverse ++ piece :: more))).isAbsolute = (first == "") := by
    cases back.reverse with
    | nil => exact isAbsolute_cons _ _ _
    | cons second rest => exact isAbsolute_cons _ _ _
  unfold upTo
  cases hdrop : back.dropWhile stays with
  | nil =>
    dsimp only
    rw [hdrop] at hback
    by_cases hfirst : first = ""
    · rw [if_pos (beq_iff_eq.mpr hfirst)]
      exact Or.inl (Or.inl rfl)
    · rw [if_neg (by simpa using hfirst)]
      refine Or.inr ⟨(back.takeWhile stays).reverse, ?_, hstays, hp, ⟨first, rfl, hfirst⟩, ?_⟩
      · rw [hback]
        rfl
      · rw [habsolute]
        simp [isAbsolute, hfirst]
  | cons last rest =>
    dsimp only
    rw [hdrop] at hback
    have hlast := leads_of_dropWhile hdrop
    refine Or.inr ⟨(back.takeWhile stays).reverse, ?_, hstays, hp, ⟨last, ?_, ?_⟩, ?_⟩
    · rw [hback]
      simp
    · rw [List.reverse_cons, ← List.cons_append, List.getLast?_concat]
    · rintro rfl
      exact absurd hlast (by decide)
    · rw [habsolute]
      cases hrev : (last :: rest).reverse with
      | nil => exact absurd hrev (by simp)
      | cons second others => exact (isAbsolute_cons _ _ _).symm

theorem mem_above {first : String} {back : List String} {q : Path} (h : q ∈ above first back)
    (tail : List String) :
    q.Bare ∨ ∃ still piece more, q.Above ⟨first :: (back.reverse ++ tail)⟩ still piece more := by
  induction back generalizing tail with
  | nil =>
    left
    unfold above at h
    split at h
    · exact absurd h List.not_mem_nil
    · rw [List.mem_singleton.mp h]
      exact Or.inr rfl
  | cons piece back ih =>
    rw [List.reverse_cons, List.append_assoc]
    unfold above at h
    cases hp : stays piece with
    | true =>
      rw [hp] at h
      exact ih h _
    | false =>
      rw [hp] at h
      rcases List.mem_cons.mp h with rfl | h
      · rcases upTo_above first back hp tail with hbare | ⟨still, habove⟩
        · exact Or.inl hbare
        · exact Or.inr ⟨still, piece, tail, habove⟩
      · exact ih h _

/-- **The parents of a path** are above it, or bare. -/
theorem above_of_mem_parents {p q : Path} (h : q ∈ p.parents) :
    q.Bare ∨ ∃ still piece more, q.Above p still piece more := by
  unfold parents at h
  cases hp : p.pieces with
  | nil =>
    rw [hp] at h
    exact absurd h List.not_mem_nil
  | cons first rest =>
    rw [hp] at h
    have hmem := mem_above h []
    rw [List.reverse_reverse, List.append_nil, ← hp] at hmem
    exact hmem

/-- What is above a path above another is above that one, too. -/
theorem Above.trans {o q p : Path} {still still' more more' : List String} {piece piece' : String}
    (h : o.Above q still' piece' more') (h' : q.Above p still piece more) :
    o.Above p still' piece' (more' ++ still ++ piece :: more) where
  pieces := by
    rw [h'.pieces, h.pieces]
    simp
  stays := h.stays
  leads := h.leads
  noSlash := h.noSlash
  absolute := h'.absolute.trans h.absolute

/-- Nothing is above a bare path. -/
theorem Bare.parents {q : Path} (h : q.Bare) : q.parents = [] := by
  unfold Path.parents
  rcases h with h | h
  · rw [h]
    rfl
  · rw [h]
    rfl

/-- The parent of a path, and all that is above it, are above the path or bare. -/
theorem above_of_parent? {p q d : Path} (hd : p.parent? = some d) (h : q ∈ d :: d.parents) :
    q.Bare ∨ ∃ still piece more, q.Above p still piece more := by
  have hparent := above_of_mem_parents (List.mem_of_mem_head? hd)
  rcases List.mem_cons.mp h with rfl | h
  · exact hparent
  rcases hparent with hbare | ⟨still, piece, more, habove⟩
  · rw [hbare.parents] at h
    exact absurd h List.not_mem_nil
  · rcases above_of_mem_parents h with hbare | ⟨still', piece', more', habove'⟩
    · exact Or.inl hbare
    · exact Or.inr ⟨_, _, _, habove'.trans habove⟩

end Path

/-! ## Extensions -/

namespace Path

/-- A name without its extension. -/
theorem stem_append (name back extension : String) (h : '.' ∉ extension.toList) :
    stem (name ++ "." ++ (back ++ "." ++ extension)) = name ++ "." ++ back := by
  have hfields : Text.fields '.' (name ++ "." ++ (back ++ "." ++ extension)).toList =
      Text.fields '.' (name ++ "." ++ back).toList ++ [extension.toList] := by
    have hsplit : (name ++ "." ++ (back ++ "." ++ extension)).toList =
        (name ++ "." ++ back).toList ++ '.' :: extension.toList := by simp
    rw [hsplit, Text.fields_append, Text.fields_of_not_mem h]
  have hmany : ∃ before last more, (Text.fields '.' (name ++ "." ++ back).toList).reverse =
      before :: last :: more := by
    have hsplit : (name ++ "." ++ back).toList = name.toList ++ '.' :: back.toList := by simp
    rw [hsplit, Text.fields_append, List.reverse_append]
    cases hb : (Text.fields '.' back.toList).reverse with
    | nil => exact absurd (List.reverse_eq_nil_iff.mp hb) (Text.fields_ne_nil _)
    | cons before others =>
      cases hn : (Text.fields '.' name.toList).reverse with
      | nil => exact absurd (List.reverse_eq_nil_iff.mp hn) (Text.fields_ne_nil _)
      | cons last more =>
        cases others with
        | nil => exact ⟨before, last, more, rfl⟩
        | cons other others => exact ⟨before, other, others ++ last :: more, rfl⟩
  obtain ⟨before, last, more, hmany⟩ := hmany
  unfold stem
  rw [hfields, List.reverse_append, hmany]
  show ".".intercalate ((before :: last :: more).reverse.map String.ofList) = _
  rw [← hmany, List.reverse_reverse]
  refine String.toList_inj.mp ?_
  rw [String.toList_intercalate, List.map_map]
  have hid : String.toList ∘ String.ofList = id := funext fun cs => String.toList_ofList
  rw [hid, List.map_id]
  exact Text.intercalate_fields _

/-! ## Beside -/

/-- **A path beside another**: both lead to names in one directory, and the names differ. The other path may
    go on behind its name, by pieces that stay. -/
structure Beside (t p : Path) (front : List String) (name other : String) (stays : List String) : Prop where
  pieces : p.pieces = front ++ name :: stays
  stays : ∀ piece ∈ stays, Path.stays piece = true
  leads : Path.stays name = false
  notUp : name ≠ ".."
  besidePieces : t.pieces = front ++ [other]
  besideLeads : Path.stays other = false
  besideNotUp : other ≠ ".."
  differs : name ≠ other
  absolute : p.isAbsolute = t.isAbsolute

/-- A name is not what it becomes with an extension of two parts. -/
theorem ne_stem_append (name back extension : String) (h : '.' ∉ extension.toList) :
    name ≠ stem name ++ "." ++ (back ++ "." ++ extension) := by
  intro heq
  have hstem := stem_append (stem name) back extension h
  rw [← heq] at hstem
  have hlength := congrArg (fun text => text.toList.length) hstem
  simp only [String.toList_append, List.length_append] at hlength
  have hdot : ".".toList.length = 1 := rfl
  omega

/-- Two paths with one front, and names behind it, both lead from the root or neither does. -/
theorem isAbsolute_of_front (front rest rest' : List String) {name name' : String} (hn : name ≠ "")
    (hn' : name' ≠ "") :
    (Path.mk (front ++ name :: rest)).isAbsolute = (Path.mk (front ++ name' :: rest')).isAbsolute := by
  cases front with
  | nil =>
    have hname : (some name == some "") = false := beq_false_of_ne (by simp [hn])
    have hname' : (some name' == some "") = false := beq_false_of_ne (by simp [hn'])
    unfold isAbsolute
    rw [List.nil_append, List.nil_append, List.head?_cons, List.head?_cons, hname, hname']
    rfl
  | cons first front => cases front <;> simp [isAbsolute, isEmpty]

/-- **A path with another extension**, where a file can be written to it, is beside the path. -/
theorem beside_of_withExtension {p : Path} {back extension other : String} {front : List String}
    (hext : '.' ∉ extension.toList) (ht : (p.withExtension (back ++ "." ++ extension)).pieces = front ++ [other])
    (hleads : Path.stays other = false) (hup : other ≠ "..") :
    ∃ name still, (p.withExtension (back ++ "." ++ extension)).Beside p front name other still := by
  have hsplit : p.pieces.reverse = p.pieces.reverse.takeWhile stays ++ p.pieces.reverse.dropWhile stays :=
    List.takeWhile_append_dropWhile.symm
  have hstays : ∀ piece ∈ (p.pieces.reverse.takeWhile stays).reverse, Path.stays piece = true := by
    intro piece hpiece
    exact List.mem_takeWhile_imp (List.mem_reverse.mp hpiece)
  have hempty : ∀ {name}, Path.stays name = false → name ≠ "" := by
    rintro name hname rfl
    exact absurd hname (by decide)
  -- a path that is its own neighbour ends with the name, so the name is what its pieces go back to
  have hown : p.pieces = front ++ [other] → p.pieces.reverse.dropWhile stays = other :: front.reverse := by
    intro hp
    rw [hp, List.reverse_append, List.reverse_singleton, List.singleton_append,
      List.dropWhile_cons_of_neg (by simp [hleads])]
  unfold withExtension at ht ⊢
  cases hdrop : p.pieces.reverse.dropWhile stays with
  | nil =>
    rw [hdrop] at ht
    exact absurd (hdrop.symm.trans (hown ht)) (by simp)
  | cons name rest =>
    rw [hdrop] at ht hsplit
    have hpieces : p.pieces = rest.reverse ++ name :: (p.pieces.reverse.takeWhile stays).reverse := by
      have h := congrArg List.reverse hsplit
      simpa using h
    have hname := leads_of_dropWhile hdrop
    dsimp only at ht ⊢
    by_cases hdots : name = ".."
    · rw [if_pos (beq_iff_eq.mpr hdots)] at ht
      obtain ⟨rfl, -⟩ := List.cons.inj (hdrop.symm.trans (hown ht))
      exact absurd hdots hup
    rw [if_neg (by simpa using hdots)] at ht ⊢
    by_cases hstem : (stem name == "." && p.pieces.getLast? == some name) = true
    · rw [if_pos hstem] at ht
      obtain ⟨-, hlast⟩ := List.append_inj' ht rfl
      exact absurd (List.cons.inj hlast).1.symm hup
    rw [if_neg hstem] at ht ⊢
    obtain ⟨hfront, hlast⟩ := List.append_inj' ht rfl
    obtain ⟨rfl, -⟩ := List.cons.inj hlast
    subst hfront
    refine ⟨name, (p.pieces.reverse.takeWhile stays).reverse, hpieces, hstays, hname, hdots, rfl, hleads, hup,
      ne_stem_append name back extension hext, ?_⟩
    have habsolute := isAbsolute_of_front rest.reverse (p.pieces.reverse.takeWhile stays).reverse []
      (hempty hname) (hempty hleads)
    rw [← hpieces] at habsolute
    exact habsolute

end Path

end SharedPorts
