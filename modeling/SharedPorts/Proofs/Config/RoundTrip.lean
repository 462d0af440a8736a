import SharedPorts.Proofs.Config.Refinement

/-!
# `SharedPorts.Proofs.Config.RoundTrip` — the text of a configuration

A configuration is written in one way and read in many, so reading undoes writing, and writing what was
read puts a text into its one form. Both hold of every configuration, whatever is in its texts, and on
every file system that keeps what it is given.

## Contents
- **Texts.** `Config.render_injective`.
- **Files.** `Store.find_of_save`, the text that was saved; `Store.save_on_empty`, that saving is possible.
- **Round trips.** `Store.save_load_round_trip`.
-/

namespace SharedPorts

/-! ## Texts -/

/-- The text of a configuration is the text of no other. -/
theorem Config.render_injective {c c' : Config} (h : c.render = c'.render) : c = c' := by
  have hparse : some c = some c' := by rw [← c.parse?_render, ← c'.parse?_render, h]
  exact Option.some.inj hparse

namespace Store

variable {s : Store} {fs fs' : FileSystem} {c : Config}

/-! ## Files -/

/-- **Saving** puts the text of the configuration in the file, and nothing else. -/
theorem find_of_save (h : s.save c fs = (.ok (), fs')) : fs'.find s.path = .ok (.file c.render) := by
  rcases s.save_cases c fs with ⟨e, fs₁, hsave, -⟩ | ⟨fs₁, fs₂, fs₃, hwrite, hrename, hsave⟩
  · exact absurd (hsave.symm.trans h) (by simp)
  · obtain ⟨-, rfl⟩ := Prod.mk.inj (hsave.symm.trans h)
    exact FileSystem.find_of_rename_writeFile hwrite hrename

/-- On an empty file system every configuration is saved. -/
theorem save_on_empty (c : Config) :
    ∃ fs', save ⟨⟨[".spaceport", "config.json"]⟩⟩ c {} = (.ok (), fs') := ⟨_, rfl⟩

/-! ## Round trips -/

/-- **What was saved is loaded**, unless the file system refuses to keep it, which an empty one never does,
    and a text that is saved is of one configuration only. A text that can be loaded at all is loaded as
    the same configuration once that was saved in its place, whatever form the text had. -/
theorem save_load_round_trip (s : Store) :
    (∀ c fs, (∃ e, (s.save c fs).1 = .error e ∧ e.isRefusal = true) ∨
      (s.save c fs).1 = .ok () ∧ (s.save c fs).2.find s.path = .ok (.file c.render) ∧
        s.load (s.save c fs).2 = .ok c) ∧
    (∀ c, ∃ fs', save ⟨⟨[".spaceport", "config.json"]⟩⟩ c {} = (.ok (), fs') ∧
      load ⟨⟨[".spaceport", "config.json"]⟩⟩ fs' = .ok c) ∧
    (∀ c fs, fs.find s.path = .ok (.file c.render) → s.load fs = .ok c) ∧
    (∀ c c' : Config, c.render = c'.render → c = c') ∧
    (∀ text c fs fs', fs.find s.path = .ok (.file text) → s.load fs = .ok c →
      s.save c fs = (.ok (), fs') →
        s.load fs' = .ok c ∧ Config.parse? c.render = Config.parse? text) := by
  refine ⟨?_, ?_, ?_, ?_, ?_⟩
  · intro c fs
    rcases s.save_cases c fs with ⟨e, fs', hsave, he⟩ | ⟨_, _, fs', _, _, hsave⟩
    · rw [hsave]
      exact Or.inl ⟨e, rfl, he⟩
    · have hfind := find_of_save hsave
      rw [hsave]
      exact Or.inr ⟨rfl, hfind, load_of_find hfind⟩
  · intro c
    obtain ⟨fs', hsave⟩ := save_on_empty c
    exact ⟨fs', hsave, load_of_find (find_of_save hsave)⟩
  · intro c fs hfind
    exact load_of_find hfind
  · intro c c' h
    exact Config.render_injective h
  · intro text c fs fs' hfind hload hsave
    refine ⟨load_of_find (find_of_save hsave), ?_⟩
    rw [c.parse?_render, ((load_eq_ok_iff hfind).mp hload).2]

/-- Quotes, marks and controls in texts, a mapped address, two workspaces of one name, and the levels of the
    lowest and the highest port. -/
def thorny : Config where
  previewDomain := "\"\\\n\u0000\u001f😀"
  bindAddress := .v6 #v[0, 0, 0, 0, 0, 0xFFFF, 0xC000, 0x201]
  workspaces :=
    [{ name := "", root := "/a b/é" },
      { name := "", root := "", host := "::1", privacy := ⟨[(0, "\t"), (65535, "")], by decide⟩ }]

/-- What is hard to write is loaded as it was saved. -/
theorem save_load_round_trip_thorny :
    ∃ fs', save ⟨⟨[".spaceport", "config.json"]⟩⟩ thorny {} = (.ok (), fs') ∧
      load ⟨⟨[".spaceport", "config.json"]⟩⟩ fs' = .ok thorny :=
  (save_load_round_trip ⟨⟨[".spaceport", "config.json"]⟩⟩).2.1 thorny

end Store

end SharedPorts
