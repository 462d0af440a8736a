import SharedPorts.FileSystem.Basic
import SharedPorts.Proofs.Attempt

/-!
# `SharedPorts.Proofs.FileSystem.Walk` — requests to the file system, and what they leave

Writing and renaming a file leave every directory a directory, so a path that led somewhere still leads
there afterwards. With this a file that was written beside another, and then renamed to it, is found under
the new name with all that was written.

## Contents
- **Places.** What putting and erasing leave at other places, and `Node.Keeps`.
- **Walks.** `FileSystem.Sound`, a trail along the tree, and `Keeps.foldlM_step`.
- **Requests.** `approach_cases`, `writeFile_cases`, `rename_cases` and `find_of_rename_writeFile`.
-/

namespace SharedPorts

/-! ## Places -/

namespace Node

variable {node child new : Node} {p q : Place} {entries : List (String × Node)} {name : String}

theorem get?_nil (node : Node) : node.get? [] = some node := by
  cases node <;> rfl

theorem get?_directory_cons (p : Place) :
    (Node.directory entries).get? (name :: p) = (entries.lookup name).bind fun child => child.get? p := by
  cases h : entries.lookup name <;> simp [get?, h]

/-- A way down leads through a directory. -/
theorem get?_cons_eq_some (h : node.get? (name :: p) = some child) :
    ∃ es below, node = .directory es ∧ es.lookup name = some below ∧ below.get? p = some child := by
  cases node with
  | file bytes => exact absurd h (by simp [get?])
  | directory es =>
    rw [get?_directory_cons] at h
    obtain ⟨below, hlook, hbelow⟩ := Option.bind_eq_some_iff.1 h
    exact ⟨es, below, rfl, hlook, hbelow⟩

/-- What stands below a place is what stands below the node there. -/
theorem get?_append (node : Node) (p q : Place) :
    node.get? (p ++ q) = (node.get? p).bind fun child => child.get? q := by
  induction p generalizing node with
  | nil => rw [get?_nil, List.nil_append, Option.bind_some]
  | cons a p ih =>
    cases node with
    | file bytes => rfl
    | directory es =>
      rw [List.cons_append, get?_directory_cons, get?_directory_cons]
      cases es.lookup a with
      | none => rfl
      | some below => exact ih below

theorem get?_append_of_some (h : node.get? p = some child) (q : Place) : node.get? (p ++ q) = child.get? q := by
  rw [get?_append, h, Option.bind_some]

/-- Nothing stands below a place where nothing stands. -/
theorem get?_append_of_none (h : node.get? p = none) (q : Place) : node.get? (p ++ q) = none := by
  rw [get?_append, h, Option.bind_none]

theorem get?_singleton : (Node.directory entries).get? [name] = entries.lookup name := by
  rw [get?_directory_cons]
  cases entries.lookup name with
  | none => rfl
  | some child => exact get?_nil child

/-- A place in a directory is where the directory is, or below it, or somewhere else. -/
theorem place_cases (p q : Place) :
    (∃ a s, p = q ++ a :: s) ∨ (∃ s, q = p ++ s) ∨
      ∃ c a b r s, a ≠ b ∧ p = c ++ a :: r ∧ q = c ++ b :: s := by
  induction p generalizing q with
  | nil => exact Or.inr (Or.inl ⟨q, rfl⟩)
  | cons a p ih =>
    cases q with
    | nil => exact Or.inl ⟨a, p, rfl⟩
    | cons b q =>
      by_cases hab : a = b
      · subst hab
        rcases ih q with ⟨d, s, rfl⟩ | ⟨s, rfl⟩ | ⟨c, d, e, r, s, hne, rfl, rfl⟩
        · exact Or.inl ⟨d, s, rfl⟩
        · exact Or.inr (Or.inl ⟨s, rfl⟩)
        · exact Or.inr (Or.inr ⟨a :: c, d, e, r, s, hne, rfl, rfl⟩)
      · exact Or.inr (Or.inr ⟨[], a, b, p, q, hab, rfl, rfl⟩)

/-- Putting a node below a directory leaves it a directory. -/
theorem get?_put_above (h : node.get? q = some (.directory entries)) (s : Place) :
    ∃ es, (node.put (q ++ name :: s) new).get? q = some (.directory es) := by
  induction q generalizing node with
  | nil =>
    rw [get?_nil] at h
    obtain rfl := Option.some.inj h
    exact ⟨_, rfl⟩
  | cons a q ih =>
    obtain ⟨es, below, rfl, ha, hbelow⟩ := get?_cons_eq_some h
    simpa [put, get?, lookup_enter, ha] using ih hbelow

/-- Erasing a node below a directory leaves it a directory. -/
theorem get?_erase_above (h : node.get? q = some (.directory entries)) (s : Place) :
    ∃ es, (node.erase (q ++ name :: s)).get? q = some (.directory es) := by
  induction q generalizing node with
  | nil =>
    rw [get?_nil] at h
    obtain rfl := Option.some.inj h
    cases s with
    | nil => exact ⟨_, rfl⟩
    | cons b s =>
      cases hb : entries.lookup name with
      | none => exact ⟨entries, by simp [erase, get?, hb]⟩
      | some below => exact ⟨enter entries name (below.erase (b :: s)), by simp [erase, get?, hb]⟩
  | cons a q ih =>
    obtain ⟨es, below, rfl, ha, hbelow⟩ := get?_cons_eq_some h
    cases q <;> simpa [erase, get?, lookup_enter, ha] using ih hbelow

/-- Erasing makes no directory. -/
theorem get?_of_erase (h : (node.erase p).get? q = some (.directory entries)) :
    ∃ es, node.get? q = some (.directory es) := by
  induction p generalizing node q with
  | nil => exact ⟨entries, by cases node <;> exact h⟩
  | cons a p ih =>
    cases node with
    | file bytes => exact ⟨entries, h⟩
    | directory es =>
      -- the place of the directory may part from the erased one here, or go on along with it
      cases q with
      | nil => exact ⟨es, rfl⟩
      | cons b q =>
        by_cases hba : b = a
        · subst hba
          cases hb : es.lookup b with
          | none => cases p <;> simp [erase, get?, lookup_filter_self, hb] at h
          | some below =>
            cases p with
            | nil => simp [erase, get?, lookup_filter_self] at h
            | cons c p =>
              have hbelow : (below.erase (c :: p)).get? q = some (.directory entries) := by
                simpa [erase, get?, lookup_enter, hb] using h
              obtain ⟨es', hes'⟩ := ih hbelow
              exact ⟨es', by simp [get?, hb, hes']⟩
        · have hsame : (Node.erase (.directory es) ([] ++ a :: p)).get? ([] ++ b :: q) =
              (Node.directory es).get? ([] ++ b :: q) := get?_erase_of_ne hba
          exact ⟨entries, hsame.symm.trans h⟩

/-- Directories stay directories. -/
def Keeps (node node' : Node) : Prop :=
  ∀ q entries, node.get? q = some (.directory entries) → ∃ es, node'.get? q = some (.directory es)

/-- A change at a place where no directory stands, which leaves the directories above it and changes
    nothing elsewhere, keeps all directories. -/
theorem keeps_of_change {node' : Node} (hplace : ∀ es, node.get? p ≠ some (.directory es))
    (habove : ∀ q name s es, p = q ++ name :: s → node.get? q = some (.directory es) →
      ∃ es', node'.get? q = some (.directory es'))
    (hother : ∀ c a b r s, a ≠ b → p = c ++ a :: r → node'.get? (c ++ b :: s) = node.get? (c ++ b :: s)) :
    node.Keeps node' := by
  intro q es hq
  rcases place_cases p q with ⟨a, s, hp⟩ | ⟨s, rfl⟩ | ⟨c, a, b, r, s, hne, hp, rfl⟩
  · exact habove q a s es hp hq
  · -- below a place without a directory there is none either
    cases hp : node.get? p with
    | none =>
      rw [get?_append_of_none hp] at hq
      exact absurd hq (by simp)
    | some found =>
      rw [get?_append_of_some hp] at hq
      cases found with
      | file bytes => cases s <;> exact absurd hq (by simp [get?])
      | directory es => exact absurd hp (hplace es)
  · exact ⟨es, by rw [hother c a b r s hne hp, hq]⟩

theorem keeps_put (h : ∀ es, node.get? (p ++ [name]) ≠ some (.directory es)) :
    node.Keeps (node.put (p ++ [name]) new) := by
  refine keeps_of_change h ?_ ?_
  · intro q a s es hp hq
    rw [hp]
    exact get?_put_above hq s
  · intro c a b r s hne hp
    rw [hp]
    exact get?_put_of_ne (Ne.symm hne)

theorem keeps_erase (h : ∀ es, node.get? (p ++ [name]) ≠ some (.directory es)) :
    node.Keeps (node.erase (p ++ [name])) := by
  refine keeps_of_change h ?_ ?_
  · intro q a s es hp hq
    rw [hp]
    exact get?_erase_above hq s
  · intro c a b r s hne hp
    rw [hp]
    exact get?_erase_of_ne (Ne.symm hne)

end Node

/-! ## Walks -/

namespace FileSystem

variable {fs fs' fs'' : FileSystem} {p : Path} {piece : String} {pieces : List String} {bytes : Bytes}
variable {trail trail' last : Trail} {entries : List (String × Node)}

/-- Every step of a trail leads from a directory to what stands in it. -/
def Sound (fs : FileSystem) : Trail → Prop
  | [] => True
  | (name, node) :: trail =>
    (∃ entries, fs.here trail = .directory entries ∧ entries.lookup name = some node) ∧ fs.Sound trail

/-- What a sound trail has come to stands at its place. -/
theorem Sound.get? (h : fs.Sound trail) : fs.get? (placeOf trail) = some (fs.here trail) := by
  induction trail with
  | nil => rfl
  | cons step trail ih =>
    obtain ⟨name, node⟩ := step
    obtain ⟨⟨entries, hhere, hlook⟩, hrest⟩ := h
    have hplace : placeOf ((name, node) :: trail) = placeOf trail ++ [name] := by
      unfold placeOf
      rw [List.map_cons, List.reverse_cons]
    have hdirectory := ih hrest
    rw [hhere] at hdirectory
    rw [hplace]
    show fs.root.get? (placeOf trail ++ [name]) = some node
    rw [Node.get?_append_of_some hdirectory, Node.get?_singleton, hlook]

theorem sound_nil (fs : FileSystem) : fs.Sound [] := trivial

theorem Sound.tail (h : fs.Sound trail) : fs.Sound trail.tail := by
  cases trail with
  | nil => exact h
  | cons step trail => exact h.2

theorem step_of_stays (hhere : fs.here trail = .directory entries) (h : Path.stays piece = true) :
    fs.step trail piece = .ok trail := by
  unfold step
  rw [hhere]
  exact if_pos h

theorem step_up (hhere : fs.here trail = .directory entries) : fs.step trail ".." = .ok trail.tail := by
  unfold step
  rw [hhere]
  rfl

theorem step_down {node : Node} (hhere : fs.here trail = .directory entries) (hstays : Path.stays piece = false)
    (hup : piece ≠ "..") (hsize : ¬ piece.utf8ByteSize > longestName)
    (hlook : entries.lookup piece = some node) : fs.step trail piece = .ok ((piece, node) :: trail) := by
  have hup' : (piece == "..") = false := beq_false_of_ne hup
  unfold step
  rw [hhere]
  dsimp only
  rw [hstays, hup']
  unfold look
  rw [if_neg hsize, hlook]
  rfl

/-- **What a step does**, where it is taken: it stays, or leads up, or leads down. -/
theorem step_cases (h : fs.step trail piece = .ok trail') :
    ∃ entries, fs.here trail = .directory entries ∧
      ((Path.stays piece = true ∧ trail' = trail) ∨
       (piece = ".." ∧ trail' = trail.tail) ∨
       (Path.stays piece = false ∧ piece ≠ ".." ∧ ¬ piece.utf8ByteSize > longestName ∧
         ∃ node, entries.lookup piece = some node ∧ trail' = (piece, node) :: trail)) := by
  cases hhere : fs.here trail with
  | file bytes =>
    unfold step at h
    rw [hhere] at h
    exact absurd h (by simp)
  | directory entries =>
    refine ⟨entries, rfl, ?_⟩
    by_cases hstays : Path.stays piece = true
    · exact Or.inl ⟨hstays, (Except.ok.inj ((step_of_stays hhere hstays).symm.trans h)).symm⟩
    rw [Bool.not_eq_true] at hstays
    right
    by_cases hup : piece = ".."
    · subst hup
      exact Or.inl ⟨rfl, (Except.ok.inj ((step_up hhere).symm.trans h)).symm⟩
    right
    have hup' : (piece == "..") = false := beq_false_of_ne hup
    unfold step at h
    rw [hhere] at h
    dsimp only at h
    rw [hstays, hup'] at h
    unfold look at h
    by_cases hsize : piece.utf8ByteSize > longestName
    · rw [if_pos hsize] at h
      exact absurd h (by simp)
    · rw [if_neg hsize] at h
      cases hlook : entries.lookup piece with
      | none =>
        rw [hlook] at h
        exact absurd h (by simp)
      | some node =>
        rw [hlook] at h
        exact ⟨hstays, hup, hsize, node, rfl, (Except.ok.inj h).symm⟩

/-- Steps lead along sound trails. -/
theorem Sound.step (hs : fs.Sound trail) (h : fs.step trail piece = .ok trail') : fs.Sound trail' := by
  obtain ⟨entries, hhere, ⟨-, rfl⟩ | ⟨-, rfl⟩ | ⟨-, -, -, node, hlook, rfl⟩⟩ := step_cases h
  · exact hs
  · exact hs.tail
  · exact ⟨⟨entries, hhere, hlook⟩, hs⟩

/-- One file system has the directories of another, and the same current place. -/
structure Keeps (fs fs' : FileSystem) : Prop where
  current : fs'.current = fs.current
  directories : fs.root.Keeps fs'.root

theorem Keeps.trans (h : fs.Keeps fs') (h' : fs'.Keeps fs'') : fs.Keeps fs'' where
  current := h'.current.trans h.current
  directories := by
    intro q entries hq
    obtain ⟨es, hes⟩ := h.directories q entries hq
    exact h'.directories q es hes

theorem placeOf_congr (h : trail'.map (·.1) = trail.map (·.1)) : placeOf trail' = placeOf trail := by
  unfold placeOf
  rw [h]

/-- A trail by the same names leads to a directory, too, where directories are kept. -/
theorem Keeps.here (hk : fs.Keeps fs') (hs : fs.Sound trail) (hs' : fs'.Sound trail')
    (hnames : trail'.map (·.1) = trail.map (·.1)) (hhere : fs.here trail = .directory entries) :
    ∃ es, fs'.here trail' = .directory es := by
  have hplace := hs.get?
  rw [hhere] at hplace
  obtain ⟨es, hes⟩ := hk.directories _ _ hplace
  have hplace' := hs'.get?
  rw [placeOf_congr hnames] at hplace'
  exact ⟨es, Option.some.inj (hplace'.symm.trans hes)⟩

/-- A step to a directory can be taken where directories are kept. -/
theorem Keeps.step (hk : fs.Keeps fs') (hs : fs.Sound trail) (hs' : fs'.Sound trail')
    (hnames : trail'.map (·.1) = trail.map (·.1)) (h : fs.step trail piece = .ok last)
    (hd : fs.here last = .directory entries) :
    ∃ last', fs'.step trail' piece = .ok last' ∧ fs'.Sound last' ∧ last'.map (·.1) = last.map (·.1) := by
  obtain ⟨es, hhere, hcases⟩ := step_cases h
  obtain ⟨es', hhere'⟩ := hk.here hs hs' hnames hhere
  rcases hcases with ⟨hstays, rfl⟩ | ⟨rfl, rfl⟩ | ⟨hstays, hup, hsize, node, hlook, rfl⟩
  · exact ⟨trail', step_of_stays hhere' hstays, hs', hnames⟩
  · refine ⟨trail'.tail, step_up hhere', hs'.tail, ?_⟩
    rw [List.map_tail, List.map_tail, hnames]
  · have hnode : node = .directory entries := hd
    subst hnode
    -- the directory below is kept, so the name leads to it there as well
    have hbelow : fs.get? (placeOf trail ++ [piece]) = some (.directory entries) := by
      have hplace := hs.get?
      rw [hhere] at hplace
      show fs.root.get? (placeOf trail ++ [piece]) = _
      rw [Node.get?_append_of_some hplace, Node.get?_singleton, hlook]
    obtain ⟨below, hbelow'⟩ := hk.directories _ _ hbelow
    have hplace' := hs'.get?
    rw [hhere', placeOf_congr hnames] at hplace'
    have hlook' : es'.lookup piece = some (.directory below) := by
      rw [← hbelow', ← Node.get?_singleton]
      exact (Node.get?_append_of_some hplace' [piece]).symm
    refine ⟨_, step_down hhere' hstays hup hsize hlook', ⟨⟨es', hhere', hlook'⟩, hs'⟩, ?_⟩
    rw [List.map_cons, List.map_cons, hnames]

/-- **Where a walk leads to a directory**, the same walk in a file system that has kept all directories
    leads to the same place. -/
theorem Keeps.foldlM_step (hk : fs.Keeps fs') (hs : fs.Sound trail) (hs' : fs'.Sound trail')
    (hnames : trail'.map (·.1) = trail.map (·.1)) (h : pieces.foldlM fs.step trail = .ok last)
    (hd : fs.here last = .directory entries) :
    ∃ last', pieces.foldlM fs'.step trail' = .ok last' ∧ fs'.Sound last' ∧
      last'.map (·.1) = last.map (·.1) := by
  induction pieces generalizing trail trail' with
  | nil =>
    rw [← Except.ok.inj h]
    exact ⟨trail', rfl, hs', hnames⟩
  | cons piece pieces ih =>
    obtain ⟨next, hstep, hgo⟩ := foldlM_cons_eq_ok_iff.mp h
    -- the walk goes on from a directory, or ends in one
    have hnext : ∃ es, fs.here next = .directory es := by
      cases pieces with
      | nil =>
        rw [Except.ok.inj hgo]
        exact ⟨entries, hd⟩
      | cons piece' pieces =>
        obtain ⟨after, hstep', -⟩ := foldlM_cons_eq_ok_iff.mp hgo
        obtain ⟨es, hes, -⟩ := step_cases hstep'
        exact ⟨es, hes⟩
    obtain ⟨es, hes⟩ := hnext
    obtain ⟨next', hstep', hsound', hnames'⟩ := hk.step hs hs' hnames hstep hes
    obtain ⟨last', hgo', hlast⟩ := ih (hs.step hstep) hsound' hnames' hgo
    exact ⟨last', foldlM_cons_eq_ok_iff.mpr ⟨next', hstep', hgo'⟩, hlast⟩

/-- Walks lead along sound trails. -/
theorem sound_of_foldlM (hs : fs.Sound trail) (h : pieces.foldlM fs.step trail = .ok last) : fs.Sound last := by
  induction pieces generalizing trail with
  | nil =>
    rw [← Except.ok.inj h]
    exact hs
  | cons piece pieces ih =>
    obtain ⟨next, hstep, hgo⟩ := foldlM_cons_eq_ok_iff.mp h
    exact ih (hs.step hstep) hgo

/-! ## Requests -/

/-- **Where a path can be approached**, it leads to a directory. -/
theorem approach_cases {spot : Spot} (h : fs.approach p = .ok spot) :
    refused? p = none ∧ spot.ending = p.split.2 ∧ ∃ trail, fs.follow p.isAbsolute p.split.1 = .ok trail ∧
      fs.Sound trail ∧ fs.here trail = .directory spot.entries ∧ spot.directory = placeOf trail ∧
      fs.get? spot.directory = some (.directory spot.entries) := by
  unfold approach at h
  cases hrefused : refused? p with
  | some e =>
    rw [hrefused] at h
    exact absurd h (by simp)
  | none =>
    rw [hrefused] at h
    dsimp only at h
    cases hfollow : fs.follow p.isAbsolute p.split.1 with
    | error e =>
      rw [hfollow] at h
      exact absurd h (by simp)
    | ok trail =>
      rw [hfollow] at h
      dsimp only at h
      cases hhere : fs.here trail with
      | file bytes =>
        rw [hhere] at h
        exact absurd h (by simp)
      | directory entries =>
        rw [hhere] at h
        obtain rfl := Except.ok.inj h
        have hsound : fs.Sound trail := sound_of_foldlM fs.sound_nil hfollow
        have hplace := hsound.get?
        rw [hhere] at hplace
        exact ⟨rfl, rfl, trail, rfl, hsound, hhere, rfl, hplace⟩

/-- What may be approached stays so where directories are kept, and is in the same place. -/
theorem Keeps.approach (hk : fs.Keeps fs') {spot : Spot} (h : fs.approach p = .ok spot) :
    ∃ spot', fs'.approach p = .ok spot' ∧ spot'.directory = spot.directory ∧ spot'.ending = spot.ending := by
  obtain ⟨hrefused, hending, trail, hfollow, hs, hhere, hplace, -⟩ := approach_cases h
  have hfollow' : ((if p.isAbsolute then [] else fs.current) ++ p.split.1).foldlM fs.step [] = .ok trail :=
    hfollow
  rw [← hk.current] at hfollow'
  obtain ⟨trail', hgo, hs', hnames⟩ := hk.foldlM_step fs.sound_nil fs'.sound_nil rfl hfollow' hhere
  obtain ⟨es, hes⟩ := hk.here hs hs' hnames hhere
  have hgo' : fs'.follow p.isAbsolute p.split.1 = .ok trail' := hgo
  refine ⟨⟨placeOf trail', es, p.split.2⟩, ?_, ?_, hending.symm⟩
  · unfold FileSystem.approach
    rw [hrefused]
    dsimp only
    rw [hgo']
    dsimp only
    rw [hes]
  · rw [hplace]
    exact placeOf_congr hnames

/-- A path that ends with a name is its directory's pieces and the name. -/
theorem pieces_of_named {name : String} (h : p.split.2 = .named name false) :
    p.pieces = p.split.1 ++ [name] ∧ Path.stays name = false ∧ name ≠ ".." := by
  unfold Path.split at h ⊢
  cases hdrop : p.pieces.reverse.dropWhile (· == "") with
  | nil =>
    rw [hdrop] at h
    exact absurd h (by simp)
  | cons found back =>
    rw [hdrop] at h
    dsimp only at h ⊢
    by_cases hdots : (found == "." || found == "..") = true
    · rw [if_pos hdots] at h
      exact absurd h (by simp)
    rw [if_neg hdots] at h
    obtain ⟨rfl, hslash⟩ := Path.Ending.named.inj h
    rw [Bool.or_eq_true, not_or, beq_iff_eq, beq_iff_eq] at hdots
    -- without a slash at the end, the last piece is the name
    cases hrev : p.pieces.reverse with
    | nil =>
      rw [hrev] at hdrop
      exact absurd hdrop (by simp)
    | cons x xs =>
      have hlast : p.pieces.getLast? = some x := by
        rw [← List.head?_reverse, hrev]
        rfl
      have hx : x ≠ "" := by
        rintro rfl
        rw [hlast] at hslash
        exact absurd hslash (by simp)
      rw [hrev, List.dropWhile_cons_of_neg (by simpa using hx)] at hdrop
      obtain ⟨rfl, rfl⟩ := List.cons.inj hdrop
      refine ⟨?_, ?_, hdots.2⟩
      · rw [← List.reverse_reverse p.pieces, hrev, List.reverse_cons]
      · unfold Path.stays
        rw [beq_false_of_ne hx, beq_false_of_ne hdots.1]
        rfl

/-- **A path leads to what stands under its name** in the directory that it approaches. -/
theorem find_of_approach {spot : Spot} {name : String} {node : Node} (h : fs.approach p = .ok spot)
    (he : spot.ending = .named name false) (hsize : ¬ name.utf8ByteSize > longestName)
    (hnode : fs.get? (spot.directory ++ [name]) = some node) : fs.find p = .ok node := by
  obtain ⟨hrefused, hending, trail, hfollow, hs, hhere, hplace, hdirectory⟩ := approach_cases h
  obtain ⟨hpieces, hstays, hup⟩ := pieces_of_named (hending.symm.trans he)
  have hlook : spot.entries.lookup name = some node := by
    rw [← hnode, ← Node.get?_singleton]
    exact (Node.get?_append_of_some hdirectory [name]).symm
  have hfollow' : fs.follow p.isAbsolute p.pieces = .ok ((name, node) :: trail) := by
    unfold follow at hfollow ⊢
    rw [hpieces, ← List.append_assoc, List.foldlM_append, hfollow]
    show fs.step trail name >>= _ = _
    rw [step_down hhere hstays hup hsize hlook]
    rfl
  unfold find walk
  rw [hrefused]
  dsimp only
  rw [hfollow']
  rfl

theorem current_withRoot (root : Node) : (fs.withRoot root).current = fs.current := by
  cases root <;> rfl

theorem keeps_put {q : Place} {name : String} {node : Node}
    (h : ∀ es, fs.get? (q ++ [name]) ≠ some (.directory es)) : fs.Keeps (fs.put (q ++ [name]) node) where
  current := current_withRoot _
  directories := by
    rw [root_put]
    exact Node.keeps_put h

theorem keeps_erase {q : Place} {name : String} (h : ∀ es, fs.get? (q ++ [name]) ≠ some (.directory es)) :
    fs.Keeps (fs.erase (q ++ [name])) where
  current := current_withRoot _
  directories := by
    rw [root_erase]
    exact Node.keeps_erase h

/-- What was looked for stands under the name, which is not too long. -/
theorem look_cases {found : Option Node} {name : String} (h : look entries name = .ok found) :
    ¬ name.utf8ByteSize > longestName ∧ entries.lookup name = found := by
  unfold look at h
  by_cases hsize : name.utf8ByteSize > longestName
  · rw [if_pos hsize] at h
    exact absurd h (by simp)
  · rw [if_neg hsize] at h
    exact ⟨hsize, Except.ok.inj h⟩

/-- What stands under a name of a directory is what the directory has under it. -/
theorem get?_child {q : Place} {name : String} (h : fs.get? q = some (.directory entries)) :
    fs.get? (q ++ [name]) = entries.lookup name := by
  show fs.root.get? (q ++ [name]) = _
  rw [Node.get?_append_of_some h, Node.get?_singleton]

/-- A node that was put into a directory stands there. -/
theorem get?_put_self {q : Place} {name : String} {node : Node} (h : fs.get? q = some (.directory entries)) :
    (fs.put (q ++ [name]) node).get? (q ++ [name]) = some node := by
  show (fs.put (q ++ [name]) node).root.get? (q ++ [name]) = _
  rw [root_put, Node.get?_put_append h]
  cases node <;> rfl

/-- A file was written where its path ends with a name, and no directory stands under the name. -/
theorem writeFile_eq_ok (h : fs.writeFile p bytes = .ok fs') :
    ∃ spot name found, fs.approach p = .ok spot ∧ spot.ending = .named name false ∧
      look spot.entries name = .ok found ∧ (∀ es, found ≠ some (.directory es)) ∧
      fs' = fs.put (spot.directory ++ [name]) (.file bytes) := by
  unfold writeFile at h
  cases happroach : fs.approach p with
  | error e =>
    rw [happroach] at h
    exact absurd h (by simp)
  | ok spot =>
    rw [happroach] at h
    dsimp only at h
    cases hending : spot.ending with
    | unnamed =>
      rw [hending] at h
      exact absurd h (by simp)
    | named name slash =>
      cases slash with
      | true =>
        rw [hending] at h
        exact absurd h (by simp)
      | false =>
        rw [hending] at h
        dsimp only at h
        cases hlook : look spot.entries name with
        | error e =>
          rw [hlook] at h
          exact absurd h (by simp)
        | ok found =>
          rw [hlook] at h
          rcases found with _ | ⟨old⟩ | ⟨es⟩
          · exact ⟨spot, name, none, rfl, hending, hlook, by simp, (Except.ok.inj h).symm⟩
          · exact ⟨spot, name, some (.file old), rfl, hending, hlook, by simp, (Except.ok.inj h).symm⟩
          · exact absurd h (by simp)

/-- **A file that was written** stands where its path leads, and all directories are kept. -/
theorem writeFile_cases (h : fs.writeFile p bytes = .ok fs') :
    ∃ spot name, fs.approach p = .ok spot ∧ spot.ending = .named name false ∧ fs.Keeps fs' ∧
      fs'.get? (spot.directory ++ [name]) = some (.file bytes) := by
  obtain ⟨spot, name, found, happroach, hending, hlook, hfile, rfl⟩ := writeFile_eq_ok h
  obtain ⟨-, -, -, -, -, -, -, hdirectory⟩ := approach_cases happroach
  have hfound := (look_cases hlook).2
  rw [← get?_child hdirectory] at hfound
  exact ⟨spot, name, happroach, hending, keeps_put (fun es heq => hfile es (hfound.symm.trans heq)),
    get?_put_self hdirectory⟩

/-- Moving a file from one name to another, where no directory stands, keeps all directories. -/
theorem move_keeps {q r : Place} {name newName : String} {entries newEntries : List (String × Node)}
    (hq : fs.get? q = some (.directory entries)) (hmoved : entries.lookup name = some (.file bytes))
    (hr : fs.get? r = some (.directory newEntries))
    (hfound : ∀ es, newEntries.lookup newName ≠ some (.directory es)) :
    fs.Keeps ((fs.erase (q ++ [name])).put (r ++ [newName]) (.file bytes)) ∧
      ((fs.erase (q ++ [name])).put (r ++ [newName]) (.file bytes)).get? (r ++ [newName]) =
        some (.file bytes) := by
  have herase : fs.Keeps (fs.erase (q ++ [name])) := by
    refine keeps_erase ?_
    intro es heq
    rw [get?_child hq, hmoved] at heq
    exact absurd heq (by simp)
  obtain ⟨es, hr'⟩ := herase.directories r newEntries hr
  refine ⟨herase.trans (keeps_put ?_), get?_put_self hr'⟩
  intro es' heq
  -- a directory that is there after erasing was there before
  have hbefore : ((fs.erase (q ++ [name])).root).get? (r ++ [newName]) = some (.directory es') := heq
  rw [root_erase] at hbefore
  obtain ⟨es'', hes⟩ := Node.get?_of_erase hbefore
  exact hfound es'' ((get?_child hr).symm.trans hes)

/-- A file was renamed where both paths end with names, and no directory stands under the new one. -/
theorem rename_eq_ok {source target : Path} (h : fs.rename source target = .ok fs') :
    ∃ spot other name newName bytes found, fs.approach source = .ok spot ∧ spot.ending = .named name false ∧
      look spot.entries name = .ok (some (.file bytes)) ∧ fs.approach target = .ok other ∧
      other.ending = .named newName false ∧ look other.entries newName = .ok found ∧
      (∀ es, found ≠ some (.directory es)) ∧
      fs' = (fs.erase (spot.directory ++ [name])).put (other.directory ++ [newName]) (.file bytes) := by
  unfold rename at h
  cases hsource : fs.approach source with
  | error e =>
    rw [hsource] at h
    exact absurd h (by simp)
  | ok spot =>
    cases htarget : fs.approach target with
    | error e =>
      rw [hsource, htarget] at h
      exact absurd h (by simp)
    | ok other =>
      rw [hsource, htarget] at h
      dsimp only at h
      cases hending : spot.ending with
      | unnamed =>
        rw [hending] at h
        exact absurd h (by simp)
      | named name slash =>
        cases hnewEnding : other.ending with
        | unnamed =>
          rw [hending, hnewEnding] at h
          exact absurd h (by simp)
        | named newName newSlash =>
          rw [hending, hnewEnding] at h
          dsimp only at h
          rcases hlook : look spot.entries name with e | _ | ⟨bytes⟩ | ⟨es⟩ <;>
            rcases hlook' : look other.entries newName with e' | found <;>
            rw [hlook, hlook'] at h
          -- both lookups have to succeed, and the first of them with a file
          case ok.some.file.ok =>
            dsimp only at h
            by_cases hslash : (slash || newSlash) = true
            · rw [if_pos hslash] at h
              exact absurd h (by simp)
            rw [if_neg hslash] at h
            rw [Bool.not_eq_true, Bool.or_eq_false_iff] at hslash
            obtain ⟨rfl, rfl⟩ := hslash
            refine ⟨spot, other, name, newName, bytes, found, rfl, hending, hlook, rfl, hnewEnding, hlook', ?_⟩
            rcases found with _ | ⟨old⟩ | ⟨es⟩
            · exact ⟨by simp, (Except.ok.inj h).symm⟩
            · exact ⟨by simp, (Except.ok.inj h).symm⟩
            · exact absurd h (by simp)
          all_goals exact absurd h (by simp)

/-- **A file that was renamed** stands where its new path leads, and all directories are kept. -/
theorem rename_cases {source target : Path} (h : fs.rename source target = .ok fs') :
    ∃ spot other name newName bytes, fs.approach source = .ok spot ∧ spot.ending = .named name false ∧
      fs.get? (spot.directory ++ [name]) = some (.file bytes) ∧ fs.approach target = .ok other ∧
      other.ending = .named newName false ∧ ¬ newName.utf8ByteSize > longestName ∧ fs.Keeps fs' ∧
      fs'.get? (other.directory ++ [newName]) = some (.file bytes) := by
  obtain ⟨spot, other, name, newName, bytes, found, hsource, hending, hlook, htarget, hnewEnding, hlook', hfile,
    rfl⟩ := rename_eq_ok h
  obtain ⟨-, -, -, -, -, -, -, hq⟩ := approach_cases hsource
  obtain ⟨-, -, -, -, -, -, -, hr⟩ := approach_cases htarget
  have hmoved := (look_cases hlook).2
  obtain ⟨hsize, hfound⟩ := look_cases hlook'
  obtain ⟨hkeeps, hnew⟩ := move_keeps hq hmoved hr (fun es heq => hfile es (hfound.symm.trans heq))
  exact ⟨spot, other, name, newName, bytes, hsource, hending, (get?_child hq).trans hmoved, htarget, hnewEnding,
    hsize, hkeeps, hnew⟩

/-- **Writing a file and renaming it** puts what was written under the new name. -/
theorem find_of_rename_writeFile {source target : Path} (hwrite : fs.writeFile source bytes = .ok fs')
    (hrename : fs'.rename source target = .ok fs'') : fs''.find target = .ok (.file bytes) := by
  obtain ⟨spot, name, happroach, hending, hkeeps, hwritten⟩ := writeFile_cases hwrite
  obtain ⟨spot', other, name', newName, moved, happroach', hending', hmoved, htarget, hnewEnding, hsize, hkeeps',
    hnew⟩ := rename_cases hrename
  -- the file is found where it was written
  obtain ⟨spot'', happroach'', hplace, hsame⟩ := hkeeps.approach happroach
  obtain rfl := Except.ok.inj (happroach'.symm.trans happroach'')
  have hname : name' = name := by
    rw [hending', hending] at hsame
    exact (Path.Ending.named.inj hsame).1
  rw [hplace, hname, hwritten] at hmoved
  obtain rfl := Node.file.inj (Option.some.inj hmoved)
  -- and the new path still approaches the directory of its new place
  obtain ⟨other', htarget', hplace', hsame'⟩ := hkeeps'.approach htarget
  exact find_of_approach htarget' (hsame'.trans hnewEnding) hsize (by rw [hplace', hnew])

end FileSystem

end SharedPorts
