import SharedPorts.Proofs.FileSystem.Walk
import SharedPorts.Proofs.Path

/-!
# `SharedPorts.Proofs.FileSystem.Frame` — what requests leave as it was

Creating directories and writing a file each change one place, and leave the files at all others. What this
means for a path is not the same thing: a path may lead elsewhere once a directory is there that it passes.
Only a path that goes up again from that directory can do so, and a file that is written beside a path never
has a part in where the path leads.

## Contents
- **Places.** `FileSystem.fileAt?`, the content of a file at a place, and what putting leaves of it.
- **Paths.** `FileSystem.holds?`, what a path holds; `FileSystem.LeadsBack`.
- **Walks by their parts.** `follow_append`, and `find_eq`, what a path holds by the walk along it.
- **Directories.** `createDirectory_above`; `FileSystem.Prepares`, and `prepares_createAlong`.
- **A file beside.** `FileSystem.endOf`, the end of a walk in a directory; `writeFile_beside` and
  `not_exists_of_rename`.
-/

namespace SharedPorts

/-! ## Places -/

/-- The content of a file, if there is one. -/
def Node.content? : Option Node → Option Bytes
  | some (.file bytes) => some bytes
  | some (.directory _) | none => none

namespace Node

variable {node new : Node} {q place : Place} {entries : List (String × Node)} {name : String}

/-- Above a place where something stands there are directories. -/
theorem get?_above {child : Node} {a : String} {s : Place} (h : node.get? (q ++ a :: s) = some child) :
    ∃ es, node.get? q = some (.directory es) := by
  rw [get?_append] at h
  obtain ⟨below, hbelow, hchild⟩ := Option.bind_eq_some_iff.mp h
  obtain ⟨es, -, rfl, -⟩ := get?_cons_eq_some hchild
  exact ⟨es, hbelow⟩

/-- **What putting a node leaves of files**: where no directory stood under the name, and nothing stands
    below the node, the files at all other places are the same. -/
theorem content?_put (hq : node.get? q = some (.directory entries))
    (hfound : ∀ es, entries.lookup name ≠ some (.directory es)) (hleaf : ∀ a s, new.get? (a :: s) = none)
    (hplace : place ≠ q ++ [name]) :
    content? ((node.put (q ++ [name]) new).get? place) = content? (node.get? place) := by
  rcases place_cases (q ++ [name]) place with ⟨a, s, hp⟩ | ⟨s, rfl⟩ | ⟨c, a, b, r, s, hne, hp, rfl⟩
  · -- above the new node there were directories, and there still are
    have habove : ∃ es, node.get? place = some (.directory es) := by
      rcases place_cases q place with ⟨b, s', hq'⟩ | ⟨s', hq'⟩ | ⟨c, b, d, r, s', hne, hq', hplace'⟩
      · exact get?_above (by rw [← hq']; exact hq)
      · -- a place above a child of the directory and not above it is the directory
        have hlength := congrArg List.length hp
        simp only [hq', List.length_append, List.length_cons, List.length_nil] at hlength
        obtain rfl := List.eq_nil_of_length_eq_zero (by omega : s'.length = 0)
        rw [List.append_nil] at hq'
        exact ⟨entries, by rw [hq', hq]⟩
      · rw [hq', hplace', List.append_assoc, List.append_assoc] at hp
        exact absurd (List.cons.inj (List.append_cancel_left hp)).1 hne
    obtain ⟨es, hes⟩ := habove
    have hstill : ∃ es', (node.put (place ++ a :: s) new).get? place = some (.directory es') :=
      get?_put_above hes s
    obtain ⟨es', hes'⟩ := hstill
    rw [hp, hes', hes]
    rfl
  · cases s with
    | nil => exact absurd (List.append_nil _) hplace
    | cons b s =>
      rw [List.append_assoc, List.singleton_append, get?_put_append hq, hleaf, get?_append_of_some hq,
        get?_directory_cons]
      cases hlook : entries.lookup name with
      | none => rfl
      | some found =>
        cases found with
        | file bytes => rfl
        | directory es => exact absurd hlook (hfound es)
  · rw [hp, get?_put_of_ne (Ne.symm hne)]

end Node

namespace FileSystem

variable {fs fs' : FileSystem} {p q : Path} {bytes : Bytes} {trail : Trail} {entries : List (String × Node)}

/-- The content of the file at a place, if a file stands there. -/
def fileAt? (fs : FileSystem) (place : Place) : Option Bytes := Node.content? (fs.get? place)

/-- Putting a node where no directory stands leaves the files at all other places. -/
theorem fileAt?_put {d place : Place} {name : String} {new : Node} (hd : fs.get? d = some (.directory entries))
    (hfound : ∀ es, entries.lookup name ≠ some (.directory es)) (hleaf : ∀ a s, new.get? (a :: s) = none)
    (hplace : place ≠ d ++ [name]) : (fs.put (d ++ [name]) new).fileAt? place = fs.fileAt? place := by
  show Node.content? ((fs.put (d ++ [name]) new).root.get? place) = _
  rw [root_put]
  exact Node.content?_put hd hfound hleaf hplace

/-! ## Paths -/

/-- What a path holds: the file or directory that it leads to, if any. -/
def holds? (fs : FileSystem) (p : Path) : Option Node := (fs.find p).toOption

/-- **A path leads back** out of a directory that is not there: it goes up behind pieces that lead to no
    directory. -/
def LeadsBack (fs : FileSystem) (p : Path) : Prop :=
  ∃ front back, p.pieces = front ++ ".." :: back ∧
    ∀ trail entries, fs.follow p.isAbsolute front = .ok trail → fs.here trail ≠ .directory entries

/-- **A walk to a directory** leads to the directory at the same place where directories are kept. -/
theorem Keeps.follow (hk : fs.Keeps fs') {fromRoot : Bool} {front : List String}
    (h : fs.follow fromRoot front = .ok trail) (hhere : fs.here trail = .directory entries) :
    ∃ trail' es, fs'.follow fromRoot front = .ok trail' ∧ placeOf trail' = placeOf trail ∧
      fs'.here trail' = .directory es ∧ fs'.get? (placeOf trail) = some (.directory es) := by
  have hs : fs.Sound trail := sound_of_foldlM fs.sound_nil h
  unfold FileSystem.follow at h ⊢
  rw [← hk.current] at h
  obtain ⟨trail', hgo, hs', hnames⟩ := hk.foldlM_step fs.sound_nil fs'.sound_nil rfl h hhere
  obtain ⟨es, hes⟩ := hk.here hs hs' hnames hhere
  have hplace := hs'.get?
  rw [hes, placeOf_congr hnames] at hplace
  exact ⟨trail', es, hgo, placeOf_congr hnames, hes, hplace⟩

/-- A path that leads back where there are more directories did so before. -/
theorem Keeps.leadsBack (hk : fs.Keeps fs') (h : fs'.LeadsBack p) : fs.LeadsBack p := by
  obtain ⟨front, back, hp, hno⟩ := h
  refine ⟨front, back, hp, ?_⟩
  intro trail entries hfollow hhere
  obtain ⟨trail', es, hgo, -, hes, -⟩ := hk.follow hfollow hhere
  exact hno trail' es hgo hes

/-! ## Walks by their parts -/

/-- A walk goes on where its first part has come to. -/
theorem follow_append {fromRoot : Bool} {front : List String} (h : fs.follow fromRoot front = .ok trail)
    (rest : List String) : fs.follow fromRoot (front ++ rest) = rest.foldlM fs.step trail := by
  unfold follow at h ⊢
  rw [← List.append_assoc, List.foldlM_append, h]
  rfl

/-- A walk whose first part leads nowhere leads nowhere. -/
theorem follow_append_of_error {fromRoot : Bool} {front : List String} {e : SystemError}
    (h : fs.follow fromRoot front = .error e) (rest : List String) :
    fs.follow fromRoot (front ++ rest) = .error e := by
  unfold follow at h ⊢
  rw [← List.append_assoc, List.foldlM_append, h]
  rfl

/-- Pieces that stay lead from a directory to itself. -/
theorem foldlM_stays {still : List String} (hs : ∀ piece ∈ still, Path.stays piece = true)
    (hhere : fs.here trail = .directory entries) : still.foldlM fs.step trail = .ok trail := by
  induction still with
  | nil => rfl
  | cons piece still ih =>
    rw [List.foldlM_cons, step_of_stays hhere (hs piece List.mem_cons_self)]
    exact ih (fun other hother => hs other (List.mem_cons_of_mem _ hother))

/-- Nothing leads down to a name that is not there. -/
theorem step_missing {piece : String} (hhere : fs.here trail = .directory entries)
    (hstays : Path.stays piece = false) (hup : piece ≠ "..") (hlook : entries.lookup piece = none) :
    ∃ e, fs.step trail piece = .error e := by
  unfold step
  rw [hhere]
  dsimp only
  rw [hstays, beq_false_of_ne hup]
  unfold look
  by_cases hsize : piece.utf8ByteSize > longestName
  · rw [if_pos hsize]
    exact ⟨_, rfl⟩
  · rw [if_neg hsize, hlook]
    exact ⟨_, rfl⟩

/-- A path leads where its walk does, unless it is refused. -/
theorem find_eq (fs : FileSystem) (p : Path) :
    fs.find p = match refused? p with
      | some e => .error e
      | none => fs.here <$> fs.follow p.isAbsolute p.pieces := by
  unfold find walk
  cases refused? p <;> rfl

/-- A path whose walk leads nowhere holds nothing. -/
theorem holds?_of_follow {e : SystemError} (h : fs.follow p.isAbsolute p.pieces = .error e) :
    fs.holds? p = none := by
  unfold holds?
  rw [find_eq]
  cases refused? p with
  | some e => rfl
  | none =>
    rw [h]
    rfl

/-- A path whose walk ends with a name leads to it. -/
theorem realPath_of_follow {name : String} {found : Except SystemError Node} {place : Place}
    (h : fs.follow p.isAbsolute p.pieces = (fun node => (name, node) :: trail) <$> found)
    (hreal : fs.realPath p = .ok place) : place = placeOf trail ++ [name] := by
  unfold realPath at hreal
  cases hmalformed : malformed? p with
  | some e =>
    rw [hmalformed] at hreal
    exact absurd hreal (by simp)
  | none =>
    rw [hmalformed, h] at hreal
    cases found with
    | error e => exact absurd hreal (by simp [Functor.map, Except.map])
    | ok node =>
      rw [← Except.ok.inj hreal]
      unfold placeOf
      rw [List.map_cons, List.reverse_cons]

/-! ## Directories -/

/-- A directory was created where its path ends with a name, and nothing stood under the name. -/
theorem createDirectory_eq_ok (h : fs.createDirectory q = .ok fs') :
    ∃ spot name slash, fs.approach q = .ok spot ∧ spot.ending = .named name slash ∧
      look spot.entries name = .ok none ∧ fs' = fs.put (spot.directory ++ [name]) (.directory []) := by
  unfold createDirectory at h
  cases happroach : fs.approach q with
  | error e =>
    rw [happroach] at h
    exact absurd h (by simp)
  | ok spot =>
    rw [happroach] at h
    dsimp only at h
    cases hending : spot.ending with
    | unnamed =>
      rw [hending] at h
      exact absurd h (by simp)
    | named name slash =>
      rw [hending] at h
      dsimp only at h
      rcases hlook : look spot.entries name with e | _ | found
      · rw [hlook] at h
        exact absurd h (by simp)
      · rw [hlook] at h
        exact ⟨spot, name, slash, rfl, hending, hlook, (Except.ok.inj h).symm⟩
      · rw [hlook] at h
        exact absurd h (by simp)

/-- **Creating a directory** keeps all directories and the files at all places. -/
theorem createDirectory_frame (h : fs.createDirectory q = .ok fs') :
    fs.Keeps fs' ∧ ∀ place, fs'.fileAt? place = fs.fileAt? place := by
  obtain ⟨spot, name, slash, happroach, -, hlook, rfl⟩ := createDirectory_eq_ok h
  obtain ⟨-, -, -, -, -, -, -, hdirectory⟩ := approach_cases happroach
  have hnone := (look_cases hlook).2
  constructor
  · refine keeps_put ?_
    intro es heq
    rw [get?_child hdirectory, hnone] at heq
    exact absurd heq (by simp)
  · intro place
    by_cases hplace : place = spot.directory ++ [name]
    · have hafter : (fs.put (spot.directory ++ [name]) (.directory [])).fileAt? (spot.directory ++ [name]) =
          none := by
        unfold fileAt?
        rw [get?_put_self hdirectory]
        rfl
      have hbefore : fs.fileAt? (spot.directory ++ [name]) = none := by
        unfold fileAt?
        rw [get?_child hdirectory, hnone]
        rfl
      rw [hplace, hafter, hbefore]
    · refine fileAt?_put hdirectory ?_ (fun a s => rfl) hplace
      intro es heq
      exact absurd (hnone.symm.trans heq) (by simp)

/-- A path that ends with a name that is not empty has no slash behind it. -/
theorem slash_eq_false {name last : String} {slash : Bool} (h : q.split.2 = .named name slash)
    (hlast : q.pieces.getLast? = some last) (hne : last ≠ "") : slash = false := by
  unfold Path.split at h
  split at h
  · exact absurd h (by simp)
  · rename_i found back hdrop
    by_cases hdots : (found == "." || found == "..") = true
    · rw [if_pos hdots] at h
      exact absurd h (by simp)
    · rw [if_neg hdots, hlast] at h
      rw [← (Path.Ending.named.inj h).2]
      exact beq_false_of_ne (by simp [hne])

/-- Nothing is created at a bare path. -/
theorem not_createDirectory_bare (hb : q.Bare) : fs.createDirectory q ≠ .ok fs' := by
  intro h
  obtain ⟨spot, name, slash, happroach, hending, -, -⟩ := createDirectory_eq_ok h
  obtain ⟨-, hsplit, -⟩ := approach_cases happroach
  have hunnamed : q.split.2 = .unnamed := by
    unfold Path.split
    rcases hb with hq | hq
    · rw [hq]
      rfl
    · rw [hq]
      rfl
  rw [hsplit, hunnamed] at hending
  exact absurd hending (by simp)

/-- **A directory that was created above a path**: the path led nowhere, and it still does, unless it leads
    back out of the new directory. -/
theorem createDirectory_above {still more : List String} {piece : String} (ha : q.Above p still piece more)
    (h : fs.createDirectory q = .ok fs') :
    fs.holds? p = none ∧ (fs.LeadsBack p ∨ fs'.holds? p = none) := by
  obtain ⟨hkeeps, -⟩ := createDirectory_frame h
  obtain ⟨spot, name, slash, happroach, hending, hlook, hput⟩ := createDirectory_eq_ok h
  obtain ⟨-, hsplit, trail, hfollow, hs, hhere, hplace, hdirectory⟩ := approach_cases happroach
  obtain ⟨last, hlast, hne⟩ := ha.noSlash
  obtain rfl := slash_eq_false (hsplit.symm.trans hending) hlast hne
  obtain ⟨hq, hstays, hup⟩ := pieces_of_named (hsplit.symm.trans hending)
  obtain ⟨hsize, hnone⟩ := look_cases hlook
  -- before, nothing stood where the walk along the upper path ends
  have hmissing : ∃ e, fs.follow p.isAbsolute q.pieces = .error e := by
    obtain ⟨e, he⟩ := step_missing hhere hstays hup hnone
    refine ⟨e, ?_⟩
    rw [ha.absolute, hq, follow_append hfollow, List.foldlM_cons, he]
    rfl
  obtain ⟨e, hmissing⟩ := hmissing
  have hbefore : ∀ rest, fs.follow p.isAbsolute (q.pieces ++ rest) = .error e :=
    fun rest => follow_append_of_error hmissing rest
  constructor
  · refine holds?_of_follow (e := e) ?_
    rw [ha.pieces, List.append_assoc]
    exact hbefore _
  by_cases hback : piece = ".."
  · left
    refine ⟨q.pieces ++ still, more, by rw [ha.pieces, hback], ?_⟩
    intro trail' entries hgo
    exact absurd ((hbefore still).symm.trans hgo) (by simp)
  · right
    -- afterwards the walk comes to the new directory, in which there is no name
    obtain ⟨trail', es, hgo, -, hes, hthere⟩ := hkeeps.follow hfollow hhere
    rw [← hplace] at hthere
    have hnew : es.lookup name = some (.directory []) := by
      rw [← get?_child hthere, hput, get?_put_self hdirectory]
    have hdown := step_down hes hstays hup hsize hnew
    have hin : fs'.here ((name, .directory []) :: trail') = .directory [] := rfl
    obtain ⟨e', he'⟩ := step_missing hin ha.leads hback rfl
    refine holds?_of_follow (e := e') ?_
    rw [ha.pieces, ha.absolute, hq, List.append_assoc, List.append_assoc, follow_append hgo,
      List.singleton_append, List.foldlM_cons, hdown]
    show (still ++ piece :: more).foldlM fs'.step ((name, .directory []) :: trail') = .error e'
    rw [List.foldlM_append, foldlM_stays ha.stays hin]
    show (piece :: more).foldlM fs'.step ((name, .directory []) :: trail') = .error e'
    rw [List.foldlM_cons, he']
    rfl

/-- **Creating directories above a path** keeps directories and files, and the path holds what it held,
    unless it held nothing and leads back. -/
structure Prepares (fs fs' : FileSystem) (p : Path) : Prop where
  keeps : fs.Keeps fs'
  files : ∀ place, fs'.fileAt? place = fs.fileAt? place
  holds : fs' = fs ∨ fs.holds? p = none ∧ (fs.LeadsBack p ∨ fs'.holds? p = none)

theorem Keeps.refl (fs : FileSystem) : fs.Keeps fs where
  current := rfl
  directories := fun _ entries h => ⟨entries, h⟩

theorem Prepares.refl (fs : FileSystem) (p : Path) : fs.Prepares fs p :=
  ⟨.refl fs, fun _ => rfl, Or.inl rfl⟩

theorem Prepares.trans {fs'' : FileSystem} (h : fs.Prepares fs' p) (h' : fs'.Prepares fs'' p) :
    fs.Prepares fs'' p where
  keeps := h.keeps.trans h'.keeps
  files := fun place => (h'.files place).trans (h.files place)
  holds := by
    rcases h'.holds with rfl | ⟨hnone, hback | hnone'⟩
    · exact h.holds
    · have hback' := h.keeps.leadsBack hback
      rcases h.holds with rfl | ⟨hbefore, -⟩
      · exact Or.inr ⟨hnone, Or.inl hback'⟩
      · exact Or.inr ⟨hbefore, Or.inl hback'⟩
    · rcases h.holds with rfl | ⟨hbefore, -⟩
      · exact Or.inr ⟨hnone, Or.inr hnone'⟩
      · exact Or.inr ⟨hbefore, Or.inr hnone'⟩

theorem prepares_of_createDirectory (ha : q.Bare ∨ ∃ still piece more, q.Above p still piece more)
    (h : fs.createDirectory q = .ok fs') : fs.Prepares fs' p := by
  obtain ⟨hkeeps, hfiles⟩ := createDirectory_frame h
  rcases ha with hbare | ⟨still, piece, more, habove⟩
  · exact absurd h (not_createDirectory_bare hbare)
  · exact ⟨hkeeps, hfiles, Or.inr (createDirectory_above habove h)⟩

theorem prepares_createAlong {paths : List Path}
    (ha : ∀ q ∈ paths, q.Bare ∨ ∃ still piece more, q.Above p still piece more) (fs : FileSystem) :
    fs.Prepares (fs.createAlong paths).2 p := by
  induction paths generalizing fs with
  | nil => exact .refl fs p
  | cons q paths ih =>
    have hq := ha q List.mem_cons_self
    have hrest := ih (fun other hother => ha other (List.mem_cons_of_mem _ hother)) fs
    unfold createAlong
    cases hfirst : fs.createDirectory q with
    | ok fs₁ => exact prepares_of_createDirectory hq hfirst
    | error e =>
      cases e with
      | notFound =>
        dsimp only
        -- the directories above come first
        cases habove : fs.createAlong paths with
        | mk result fs₁ =>
          rw [habove] at hrest
          cases result with
          | error e => exact hrest
          | ok _ =>
            dsimp only
            cases hsecond : fs₁.createDirectory q with
            | ok fs₂ => exact hrest.trans (prepares_of_createDirectory hq hsecond)
            | error e => exact hrest
      | _ => exact .refl fs p

/-! ## A file beside -/

/-- **The end of a walk** in a directory: a name, and pieces behind it that stay. -/
def endOf (entries : List (String × Node)) (name : String) (still : List String) : Except SystemError Node :=
  match look entries name with
  | .error e => .error e
  | .ok none => .error .notFound
  | .ok (some (.directory es)) => .ok (.directory es)
  | .ok (some (.file bytes)) => if still = [] then .ok (.file bytes) else .error .notADirectory

theorem foldlM_endOf {name : String} {still : List String} (hhere : fs.here trail = .directory entries)
    (hleads : Path.stays name = false) (hup : name ≠ "..") (hs : ∀ piece ∈ still, Path.stays piece = true) :
    (name :: still).foldlM fs.step trail = (fun node => (name, node) :: trail) <$> endOf entries name still := by
  have hstep : fs.step trail name = (look entries name).bind
      fun found => found.elim (.error .notFound) fun node => .ok ((name, node) :: trail) := by
    unfold step
    rw [hhere]
    dsimp only
    rw [hleads, beq_false_of_ne hup]
    rcases look entries name with e | _ | node <;> rfl
  rw [List.foldlM_cons, hstep]
  unfold endOf
  rcases look entries name with e | _ | ⟨bytes⟩ | ⟨es⟩
  · rfl
  · rfl
  · -- nothing can be walked on from a file
    cases still with
    | nil => rfl
    | cons piece still => rfl
  · exact foldlM_stays hs rfl

/-- A walk to a name in a directory, along a path beside another. -/
theorem follow_beside {t : Path} {front still : List String} {name other : String}
    (hb : t.Beside p front name other still) (hfollow : fs.follow t.isAbsolute front = .ok trail)
    (hhere : fs.here trail = .directory entries) :
    fs.follow p.isAbsolute p.pieces = (fun node => (name, node) :: trail) <$> endOf entries name still := by
  rw [hb.absolute, hb.pieces, follow_append hfollow]
  exact foldlM_endOf hhere hb.leads hb.notUp hb.stays

/-- A path that a file can be written to, and that has the name of another path with another extension, is
    beside that path. -/
theorem beside_of_approach {back extension name : String} {spot : Spot} (hext : '.' ∉ extension.toList)
    (ha : fs.approach (p.withExtension (back ++ "." ++ extension)) = .ok spot)
    (he : spot.ending = .named name false) :
    ∃ own still, (p.withExtension (back ++ "." ++ extension)).Beside p
      (p.withExtension (back ++ "." ++ extension)).split.1 own name still := by
  obtain ⟨-, hsplit, -⟩ := approach_cases ha
  obtain ⟨hpieces, hstays, hup⟩ := pieces_of_named (hsplit.symm.trans he)
  exact Path.beside_of_withExtension hext hpieces hstays hup

/-- **A file that was written beside a path** leaves what the path holds, and the file at the place to which
    it leads. -/
structure Beside (fs fs' : FileSystem) (p : Path) : Prop where
  keeps : fs.Keeps fs'
  found : fs'.find p = fs.find p
  files : ∀ place, fs'.realPath p = .ok place → fs'.fileAt? place = fs.fileAt? place

theorem writeFile_beside {back extension : String} (hext : '.' ∉ extension.toList)
    (h : fs.writeFile (p.withExtension (back ++ "." ++ extension)) bytes = .ok fs') : fs.Beside fs' p := by
  obtain ⟨spot, other, found, happroach, hending, hlook, hfile, hput⟩ := writeFile_eq_ok h
  obtain ⟨own, still, hb⟩ := beside_of_approach hext happroach hending
  obtain ⟨-, -, trail, hfollow, hs, hhere, hplace, hdirectory⟩ := approach_cases happroach
  have hfound := (look_cases hlook).2
  have hnotDirectory : ∀ es, spot.entries.lookup other ≠ some (.directory es) :=
    fun es heq => hfile es (hfound.symm.trans heq)
  have hkeeps : fs.Keeps fs' := by
    rw [hput]
    refine keeps_put ?_
    intro es heq
    exact hnotDirectory es ((get?_child hdirectory).symm.trans heq)
  -- the front of the path still leads to the directory, and there the name has what it had
  obtain ⟨trail', es, hgo, hplace', hes, hthere⟩ := hkeeps.follow hfollow hhere
  rw [← hplace] at hplace' hthere
  have hsame : es.lookup own = spot.entries.lookup own := by
    rw [← get?_child hthere, ← get?_child hdirectory, hput]
    show (fs.put (spot.directory ++ [other]) (.file bytes)).root.get? (spot.directory ++ [own]) = _
    rw [root_put]
    exact Node.get?_put_of_ne hb.differs
  have hend : endOf es own still = endOf spot.entries own still := by
    unfold endOf look
    rw [hsame]
  have hbefore := follow_beside hb hfollow hhere
  have hafter := follow_beside hb hgo hes
  rw [hend] at hafter
  refine ⟨hkeeps, ?_, ?_⟩
  · rw [find_eq, find_eq, hbefore, hafter]
    cases refused? p with
    | some e => rfl
    | none => cases endOf spot.entries own still <;> rfl
  · intro place hreal
    have hat : place = spot.directory ++ [own] := (realPath_of_follow hafter hreal).trans (by rw [hplace'])
    rw [hput]
    refine fileAt?_put hdirectory hnotDirectory (fun a s => rfl) ?_
    rw [hat]
    intro heq
    exact hb.differs (List.cons.inj (List.append_cancel_left heq)).1

/-- A path with nothing behind its name is its front and the name. -/
theorem still_eq_nil {t : Path} {front init still : List String} {name other last : String}
    (hb : t.Beside p front name other still) (hp : p.pieces = init ++ [last])
    (hlast : Path.stays last = false) : still = [] ∧ init = front ∧ last = name := by
  have hpieces := hb.pieces
  rcases List.eq_nil_or_concat still with rfl | ⟨others, piece, rfl⟩
  · rw [hp] at hpieces
    obtain ⟨hinit, hname⟩ := List.append_inj' hpieces rfl
    exact ⟨rfl, hinit, (List.cons.inj hname).1⟩
  · -- the last piece would have to stay, and to lead somewhere
    rw [hp, List.concat_eq_append, ← List.cons_append, ← List.append_assoc] at hpieces
    obtain ⟨-, hpiece⟩ := List.append_inj' hpieces rfl
    have hstays := hb.stays piece (by simp)
    rw [← (List.cons.inj hpiece).1, hlast] at hstays
    exact absurd hstays (by simp)

/-- Nothing is where a path holds nothing. -/
theorem exists?_of_holds? (h : fs.holds? p = none) : fs.exists? p = false := by
  unfold holds? at h
  unfold exists?
  cases hfind : fs.find p with
  | error e => rfl
  | ok node =>
    rw [hfind] at h
    exact absurd h (by simp [Except.toOption])

/-- **A file that was moved to a path from beside it** is not left behind. -/
theorem not_exists_of_rename {back extension : String} (hext : '.' ∉ extension.toList)
    (h : fs.rename (p.withExtension (back ++ "." ++ extension)) p = .ok fs') :
    fs'.exists? (p.withExtension (back ++ "." ++ extension)) = false := by
  obtain ⟨spot, goal, other, newName, bytes, found, hsource, hending, hlook, htarget, hnewEnding, hlook', hfile,
    hmoved⟩ := rename_eq_ok h
  obtain ⟨own, still, hb⟩ := beside_of_approach hext hsource hending
  obtain ⟨-, -, trail, hfollow, hs, hhere, hplace, hdirectory⟩ := approach_cases hsource
  obtain ⟨-, hsplit, trail₂, hfollow₂, -, hhere₂, hplace₂, hdirectory₂⟩ := approach_cases htarget
  -- both names are in one directory
  obtain ⟨hpieces, hstays, -⟩ := pieces_of_named (hsplit.symm.trans hnewEnding)
  obtain ⟨-, hinit, rfl⟩ := still_eq_nil hb hpieces hstays
  rw [hb.absolute, hinit] at hfollow₂
  obtain rfl := Except.ok.inj (hfollow.symm.trans hfollow₂)
  rw [hplace₂, ← hplace] at hmoved
  have hkeeps : fs.Keeps fs' := by
    obtain ⟨hkeeps, -⟩ := move_keeps hdirectory (look_cases hlook).2 hdirectory₂
      (fun es heq => hfile es ((look_cases hlook').2.symm.trans heq))
    rw [hplace₂, ← hplace, ← hmoved] at hkeeps
    exact hkeeps
  obtain ⟨trail', es, hgo, -, hes, hthere⟩ := hkeeps.follow hfollow hhere
  rw [← hplace] at hthere
  -- and the one that was moved is gone
  have hgone : es.lookup other = none := by
    rw [← get?_child hthere, hmoved]
    show ((fs.erase (spot.directory ++ [other])).put (spot.directory ++ [newName]) (.file bytes)).root.get?
      (spot.directory ++ [other]) = none
    rw [root_put, Node.get?_put_of_ne (Ne.symm hb.differs), root_erase]
    exact Node.get?_erase_append []
  obtain ⟨e, he⟩ := step_missing hes hb.besideLeads hb.besideNotUp hgone
  refine exists?_of_holds? (holds?_of_follow (e := e) ?_)
  rw [hb.besidePieces, follow_append hgo, List.foldlM_cons, he]
  rfl

end FileSystem

end SharedPorts
