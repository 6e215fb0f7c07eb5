import InlineMarkup.Proofs.Disk.Files
import InlineMarkup.Proofs.Settings.Text

/-!
# Saved settings

To save settings is to make the folders around the file and to write the file (`Settings.Saved`).
What is loaded from there are the settings with their path expanded (`Settings.load_of_seen?`).
-/

namespace InlineMarkup.Settings

open Node (Kind)

variable {s : Settings} {d d' : Disk} {path : String}

/-- The ways in which saving settings ends. -/
inductive Saved (s : Settings) (d : Disk) (p : Path) : Except Disk.Fault Unit × Disk → Prop where
  /-- At most folders are made. -/
  | failed (fault : Disk.Fault) (made : Disk) (unchanged : d.ChangesNone made) :
      Saved s d p (.error fault, made)
  /-- The file is written in its folder. -/
  | written (made : Disk) (unchanged : d.ChangesNone made) (folder : List String) (name : String)
      (receives : made.Receives p folder name) (d' : Disk)
      (becomes : made.Becomes (folder ++ [name]) (some (.file (Utf8.encode s.encode))) d') :
      Saved s d p (.ok (), d')

theorem changesNone_makeFolders (d : Disk) (p : Path) : d.ChangesNone (makeFolders d p).2 := by
  unfold makeFolders
  split
  · rename_i folder around
    exact d.changesNone_makeFolders folder
  · exact .refl ..

theorem saved_save (s : Settings) (d : Disk) (path : String) :
    s.Saved d (.ofString path) (s.save d path) := by
  unfold save
  generalize Path.ofString path = p
  have unchanged := changesNone_makeFolders d p
  dsimp only
  split
  · rename_i fault made failed
    rw [failed] at unchanged
    exact .failed fault made unchanged
  rename_i made done
  rw [done] at unchanged
  split
  · rename_i fault failed
    exact .failed fault made unchanged
  · rename_i d' written
    obtain ⟨folder, name, receives, becomes⟩ := Disk.write_eq_ok written
    exact .written made unchanged folder name receives d' becomes

/-- Settings that were saved are all that changed, and they are in the file that the path leads
to. If the path showed nothing before, this file is new, unless the path went up from a folder that
was missing. -/
theorem Saved.written_at {p : Path} (saved : s.Saved d p (.ok (), d')) :
    ∃ folder name, d'.Denotes p folder name ∧
      d'.content? = Function.update d.content? (folder ++ [name]) (some (Utf8.encode s.encode)) ∧
      (d.isPresent p = false → d.content? (folder ++ [name]) = none ∨
        d.GoesUpFromMissing (d.origin p) p.parts) := by
  cases saved with
  | written made unchanged folder name receives d' becomes =>
    have keeps := becomes.keepsFolders receives.free
    refine ⟨folder, name, keeps.denotes receives.denotes, ?_, ?_⟩
    · funext names
      by_cases here : names = folder ++ [name]
      · rw [here, Function.update_self, Disk.content?_eq_some_iff, becomes.kind?,
          Function.update_self]
      · rw [Function.update_of_ne here, ← unchanged.content?_eq]
        apply Disk.content?_congr
        rw [becomes.kind?, Function.update_of_ne here]
    · intro absent
      exact receives.content?_eq_none unchanged absent

/-- The path shows the settings that were saved. -/
theorem Saved.seen?_eq {p : Path} (saved : s.Saved d p (.ok (), d')) :
    d'.seen? p = some (.file (Utf8.encode s.encode)) := by
  cases saved with
  | written made unchanged folder name receives d' becomes =>
    have denotes := (becomes.keepsFolders receives.free).denotes receives.denotes
    apply denotes.seen?_eq receives.short receives.notTrailing
    rw [becomes.kind?, Function.update_self]

theorem load_of_not_isPresent (env : Environment) (absent : d.isPresent (.ofString path) = false) :
    load env d path = .ok none := by
  rw [load, absent]
  rfl

/-- From a file with the text of settings these are loaded, with the path that theirs expands
to. -/
theorem load_of_seen? (env : Environment)
    (seen : d.seen? (.ofString path) = some (.file (Utf8.encode s.encode))) :
    load env d path = .ok (some { s with storePath := env.expand s.storePath }) := by
  have present : d.isPresent (.ofString path) = true := by
    rw [Disk.isPresent_eq_isSome_seen?, seen]
    rfl
  have text : d.readText (.ofString path) = .ok s.encode := by
    rw [Disk.readText, Disk.read]
    rw [Disk.seen?] at seen
    cases resolved : d.resolve (.ofString path) with
    | error fault => simp [resolved, Except.toOption] at seen
    | ok n =>
      cases n with
      | folder entries => simp [resolved, Except.toOption, Node.kind] at seen
      | file content =>
        have same : content = Utf8.encode s.encode := by
          simpa [resolved, Except.toOption, Node.kind] using seen
        simp [same, Utf8.decode?_encode, bind, Except.bind]
  simp only [load, present, text, decode?_encode, if_true]

end InlineMarkup.Settings
