import SharedPorts.Proofs.Config.RoundTrip
import SharedPorts.Proofs.FileSystem.Frame

/-!
# `SharedPorts.Proofs.Config.Safety` — a change that fails does no damage

A change of the store takes several requests to the file system, and each of them may be refused. Nothing
but the last of them has to do with the file of the configuration: the directory above it is created first,
and the new text is written beside it. So whatever state the file system is in, the path of the store holds
after a failure what it held before.

There is one way round this. A path may go up again, by two dots, from a directory that is not there; it
leads nowhere, until the directory is created for it. Then it leads to whatever stands behind the dots, and
nothing of that was changed either.

## Contents
- **Requests.** What `prepare`, `save` and `change` leave: `Store.Undamaged`; what is loaded depends only on
  what the path holds, `Store.load_congr`.
- **Mutations.** `Store.Mutates`, how a request to change the store ends; `perform_mutates`.
- **Paths that lead back.** `held_fails_back`, an example.
-/

namespace SharedPorts

namespace Store

variable {s : Store} {fs fs' : FileSystem} {c : Config} {e : ConfigError}

/-! ## Requests -/

/-- **What is loaded** depends only on what the path holds. -/
theorem load_congr (h : fs'.holds? s.path = fs.holds? s.path) : s.load fs' = s.load fs := by
  unfold FileSystem.holds? at h
  unfold load FileSystem.exists? FileSystem.contentOf
  cases hfind : fs.find s.path with
  | error e =>
    cases hfind' : fs'.find s.path with
    | error e' => rfl
    | ok node' =>
      rw [hfind, hfind'] at h
      exact absurd h nofun
  | ok node =>
    cases hfind' : fs'.find s.path with
    | error e' =>
      rw [hfind, hfind'] at h
      exact absurd h nofun
    | ok node' =>
      rw [hfind, hfind'] at h
      obtain rfl := Option.some.inj h
      rfl

/-- **The path is as it was.** It holds what it held, unless it held nothing and leads back out of a
    directory that was not there; and where it leads to a file now, that file stood there before. -/
structure Undamaged (s : Store) (fs fs' : FileSystem) : Prop where
  held : fs'.holds? s.path = fs.holds? s.path ∨ fs.holds? s.path = none ∧ fs.LeadsBack s.path
  untouched : ∀ place, fs'.realPath s.path = .ok place → fs'.fileAt? place = fs.fileAt? place

theorem Undamaged.refl (s : Store) (fs : FileSystem) : s.Undamaged fs fs :=
  ⟨Or.inl rfl, fun _ _ => rfl⟩

theorem undamaged_of_prepares (h : fs.Prepares fs' s.path) : s.Undamaged fs fs' where
  held := by
    rcases h.holds with rfl | ⟨hnone, hback | hnone'⟩
    · exact Or.inl rfl
    · exact Or.inr ⟨hnone, hback⟩
    · exact Or.inl (hnone'.trans hnone.symm)
  untouched := fun place _ => h.files place

/-- A file that was written beside the path does it no damage. -/
theorem Undamaged.beside {fs₁ fs₂ : FileSystem} (h : fs.Prepares fs₁ s.path) (hb : fs₁.Beside fs₂ s.path) :
    s.Undamaged fs fs₂ where
  held := by
    have hsame : fs₂.holds? s.path = fs₁.holds? s.path := by
      unfold FileSystem.holds?
      rw [hb.found]
    rw [hsame]
    exact (undamaged_of_prepares h).held
  untouched := fun place hreal => (hb.files place hreal).trans (h.files place)

/-- Only directories above the path are created for it. -/
theorem prepares_prepare (s : Store) (fs : FileSystem) : fs.Prepares (s.prepare fs).2 s.path := by
  unfold prepare
  cases hparent : s.path.parent? with
  | none => exact .refl fs s.path
  | some directory =>
    dsimp only
    unfold FileSystem.createDirectories
    by_cases hempty : directory.isEmpty = true
    · rw [if_pos hempty]
      exact .refl fs s.path
    · rw [if_neg hempty]
      exact FileSystem.prepares_createAlong (fun q hq => Path.above_of_parent? hparent hq) fs

/-- The temporary file has the name of the path, with an extension of two parts. -/
theorem temporary_eq (s : Store) : s.temporary = s.path.withExtension ("json" ++ "." ++ "tmp") := rfl

/-- **Saving that fails** does no damage. -/
theorem save_undamaged (h : s.save c fs = (.error e, fs')) : s.Undamaged fs fs' := by
  have hprepares := s.prepares_prepare fs
  unfold save at h
  cases hprepare : s.prepare fs with
  | mk result fs₁ =>
    rw [hprepare] at h hprepares
    cases result with
    | error cause =>
      obtain ⟨-, rfl⟩ := Prod.mk.inj h
      exact undamaged_of_prepares hprepares
    | ok _ =>
      dsimp only at h
      cases hwrite : fs₁.writeFile s.temporary c.render with
      | error cause =>
        rw [hwrite] at h
        obtain ⟨-, rfl⟩ := Prod.mk.inj h
        exact undamaged_of_prepares hprepares
      | ok fs₂ =>
        rw [hwrite] at h
        dsimp only at h
        rw [temporary_eq] at hwrite
        have hbeside := FileSystem.writeFile_beside (by decide) hwrite
        cases hrename : fs₂.rename s.temporary s.path with
        | error cause =>
          rw [hrename] at h
          obtain ⟨-, rfl⟩ := Prod.mk.inj h
          exact .beside hprepares hbeside
        | ok fs₃ =>
          rw [hrename] at h
          exact absurd (Prod.mk.inj h).1 (by simp)

/-- **Saving that succeeds** leaves no temporary file. -/
theorem not_exists_temporary (h : s.save c fs = (.ok (), fs')) : fs'.exists? s.temporary = false := by
  rcases s.save_cases c fs with ⟨e, fs₁, hsave, -⟩ | ⟨fs₁, fs₂, fs₃, -, hrename, hsave⟩
  · exact absurd (hsave.symm.trans h) (by simp)
  · obtain ⟨-, rfl⟩ := Prod.mk.inj (hsave.symm.trans h)
    rw [temporary_eq] at hrename ⊢
    exact FileSystem.not_exists_of_rename (by decide) hrename

/-! ## Mutations -/

/-- **How a request to change the store ends.** -/
inductive Mutates (s : Store) (request : StoreRequest) (fs : FileSystem) :
    Except ConfigError Unit → FileSystem → Prop
  /-- A file that cannot be loaded is the reason, and then nothing is done at all. -/
  | rejected {e : ConfigError} (hl : s.load fs = .error e) : Mutates s request fs (.error e) fs
  /-- The change was refused, by the configuration or by the file system; only the latter leaves a trace. -/
  | failed {c : Config} {e : ConfigError} {fs' : FileSystem} (hl : s.load fs = .ok c)
      (hr : e.isRefusal = false → fs' = fs) (hu : s.Undamaged fs fs') : Mutates s request fs (.error e) fs'
  /-- The file holds the changed configuration, whole, and the temporary file is gone. -/
  | kept {c c' : Config} {fs' : FileSystem} (hl : s.load fs = .ok c)
      (ha : c.Answers request (.done (.ok ())) c') (hf : fs'.find s.path = .ok (.file c'.render))
      (ht : fs'.exists? s.temporary = false) : Mutates s request fs (.ok ()) fs'

/-- A change that fails does no damage. -/
theorem Mutates.undamaged {request : StoreRequest} {e : ConfigError}
    (h : s.Mutates request fs (.error e) fs') : s.Undamaged fs fs' := by
  cases h with
  | rejected hl => exact .refl s fs
  | failed hl hr hu => exact hu

theorem change_mutates {request : StoreRequest} {edit : Config → Except ConfigError Config}
    (hdoes : Config.Does request edit) (fs : FileSystem) :
    s.Mutates request fs (s.change edit fs).1 (s.change edit fs).2 := by
  unfold change
  cases hload : s.load fs with
  | error e => exact .rejected hload
  | ok c =>
    have hedit := hdoes c
    dsimp only
    cases hresult : edit c with
    | error e => exact .failed hload (fun _ => rfl) (.refl s fs)
    | ok c' =>
      rw [hresult] at hedit
      dsimp only
      cases hsave : s.save c' fs with
      | mk result fs' =>
        cases result with
        | error e =>
          have hrefusal := s.load_of_save c' fs
          rw [hsave] at hrefusal
          refine .failed hload ?_ (save_undamaged hsave)
          intro hnot
          exact absurd (hrefusal.symm.trans hnot) (by simp)
        | ok _ => exact .kept hload hedit (find_of_save hsave) (not_exists_temporary hsave)

/-- **A change of the store is made whole or does no damage**, on every file system: whatever stands at the
    path, at the temporary path and above them. -/
theorem perform_mutates (s : Store) (fs : FileSystem) {request : StoreRequest}
    {result : Except ConfigError Unit} (h : (s.perform request fs).1 = .done result) :
    s.Mutates request fs result (s.perform request fs).2 := by
  have hdone : ∀ {edit}, Config.Does request edit →
      s.perform request fs = (s.change edit fs).map .done id →
      s.Mutates request fs result (s.perform request fs).2 := by
    intro edit hdoes hperform
    rw [hperform] at h ⊢
    obtain rfl := StoreAnswer.done.inj h
    exact change_mutates hdoes fs
  cases request with
  | load => exact absurd h (by simp [perform])
  | workspaces => exact absurd h (by simp [perform])
  | find name => exact absurd h (by simp [perform])
  | add entry => exact hdone (Config.add_does entry) rfl
  | remove name => exact hdone (Config.remove_does name) rfl
  | setLevel name port level => exact hdone (Config.setLevel_does name port level) rfl
  | setPreviewDomain domain => exact hdone (Config.setPreviewDomain_does domain) rfl
  | setBindAddress address => exact hdone (Config.setBindAddress_does address) rfl

/-- A file that is cut short is rejected, and stays as it is. -/
theorem perform_mutates_cut_short :
    (Store.perform ⟨⟨["c.json"]⟩⟩ (.setPreviewDomain "d") ⟨[("c.json", .file (Utf8.encode "[1"))], []⟩).1 =
      .done (.error .malformed) ∧
    Mutates ⟨⟨["c.json"]⟩⟩ (.setPreviewDomain "d") ⟨[("c.json", .file (Utf8.encode "[1"))], []⟩
      (.error .malformed)
      (Store.perform ⟨⟨["c.json"]⟩⟩ (.setPreviewDomain "d") ⟨[("c.json", .file (Utf8.encode "[1"))], []⟩).2 := by
  have hdone : (Store.perform ⟨⟨["c.json"]⟩⟩ (.setPreviewDomain "d")
      ⟨[("c.json", .file (Utf8.encode "[1"))], []⟩).1 = .done (.error .malformed) := by rfl
  exact ⟨hdone, perform_mutates _ _ hdone⟩

/-! ## Paths that lead back -/

/-- A path that goes up from a directory which is not there. -/
def crossing : Store := ⟨⟨["x", "..", "c.json"]⟩⟩

/-- A file stands behind that path, and a directory in the way of the temporary file. -/
def crossed : FileSystem := { entries := [("c.json", .file (Utf8.encode "\x7b\x7d")), ("c.json.tmp", .directory [])] }

/-- **A path that leads back** may hold something after a change that failed, and nothing before: the
    directory that it goes up from was created. -/
theorem held_fails_back :
    ¬ ∀ (s : Store) (fs : FileSystem) (request : StoreRequest) (e : ConfigError),
      (s.perform request fs).1 = .done (.error e) → (s.perform request fs).2.holds? s.path = fs.holds? s.path := by
  intro h
  have hdone : (crossing.perform (.setPreviewDomain "d") crossed).1 =
      .done (.error (.noTemporary .isADirectory)) := by rfl
  have hbefore : crossed.holds? crossing.path = none := by rfl
  have hafter : (crossing.perform (.setPreviewDomain "d") crossed).2.holds? crossing.path =
      some (.file (Utf8.encode "\x7b\x7d")) := by rfl
  have hsame := h crossing crossed (.setPreviewDomain "d") _ hdone
  rw [hbefore, hafter] at hsame
  exact absurd hsame (by simp)

end Store

end SharedPorts
