import InlineMarkup.Proofs.Settings.Expansion
import InlineMarkup.Proofs.Settings.Saved

/-!
# Settings that come back

Settings can be saved wherever a file can be written, and they come back with the same color and
with what their path stands for (`Settings.load_of_save`).
-/

namespace InlineMarkup.Settings

variable {d : Disk} {path : String}

/-- The folders around a path can be made, and a file can be written there afterwards. -/
def Writable (d : Disk) (path : String) : Prop :=
  ∃ made content d', makeFolders d (.ofString path) = (.ok (), made) ∧
    made.write (.ofString path) content = .ok d'

theorem save_eq_ok {made d' : Disk} (s : Settings)
    (prepared : makeFolders d (.ofString path) = (.ok (), made))
    (written : made.write (.ofString path) (Utf8.encode s.encode) = .ok d') :
    s.save d path = (.ok (), d') := by
  rw [save, prepared]
  dsimp only
  rw [written]

/-- Whether a file can be written does not depend on what is written. -/
theorem Writable.exists_save_eq_ok (writable : Writable d path) (s : Settings) :
    ∃ d', s.save d path = (.ok (), d') := by
  obtain ⟨made, content, d₀, prepared, written⟩ := writable
  obtain ⟨folder, name, receives, -⟩ := Disk.write_eq_ok written
  obtain ⟨d', written, -⟩ := receives.exists_write_eq_ok (Utf8.encode s.encode)
  exact ⟨d', save_eq_ok s prepared written⟩

/-- Settings that are saved where a file can be written are loaded from there with the same color,
or none, and with the one path that theirs stands for in the environment. -/
theorem load_of_save (env : Environment) (s : Settings) (writable : Writable d path) :
    ∃ d' storePath, s.save d path = (.ok (), d') ∧
      load env d' path = .ok (some { storePath, keywordColor := s.keywordColor }) ∧
      (∀ result, env.Expands s.storePath result ↔ result = storePath) ∧
      ('$' ∉ s.storePath.toList → s.storePath.toList.head? ≠ some '~' →
        storePath = s.storePath) := by
  obtain ⟨d', saved⟩ := writable.exists_save_eq_ok s
  have written := saved_save s d path
  rw [saved] at written
  refine ⟨d', env.expand s.storePath, saved, ?_, ?_, ?_⟩
  · exact load_of_seen? env written.seen?_eq
  · intro result
    exact Environment.expands_iff
  · intro plain noHome
    exact env.expand_eq_self plain noHome

/-- A path with quotes, a variable and a home folder that are put in, and a color of two lines;
the folders are made first. -/
theorem load_of_save_quotes :
    let d : Disk := ⟨.folder [("a", .folder [])], ["a"]⟩
    let env : Environment := ⟨[("HOME", "/home/u"), ("X", "it's \"x\"")]⟩
    let s : Settings := ⟨"~/$X\\${Y:-y}/$$", some "a\nb"⟩
    Writable d "b/c/d.toml" ∧
      ∃ d', s.save d "b/c/d.toml" = (.ok (), d') ∧
        load env d' "b/c/d.toml" = .ok (some ⟨"/home/u/it's \"x\"\\y/$", some "a\nb"⟩) := by
  intro d env s
  have writable : Writable d "b/c/d.toml" := ⟨_, [], _, rfl, rfl⟩
  obtain ⟨d', storePath, saved, loaded, only, -⟩ := load_of_save env s writable
  have expanded : env.expand s.storePath = "/home/u/it's \"x\"\\y/$" := by decide +kernel
  have same : storePath = "/home/u/it's \"x\"\\y/$" := by
    rw [← expanded]
    exact ((only _).1 (Environment.expands_iff.2 rfl)).symm
  rw [same] at loaded
  exact ⟨writable, d', saved, loaded⟩

end InlineMarkup.Settings
