import InlineMarkup.Proofs.CommandLine.Runs
import InlineMarkup.Proofs.Settings.Saved
import InlineMarkup.Proofs.Store.Edited

/-!
# What a run of the program writes

A run changes files only if its command is to add or to remove a convention or to create the
settings file. A run that fails changes no file, but may leave the temporary file of a save that
failed (`Program.run_writes`). A settings file that is created is new, but for paths that go up
from a folder that is missing.
-/

namespace InlineMarkup

/-- Whether a command edits the store. -/
def Command.isEdit : Command → Bool
  | .add .. => true
  | .remove _ => true
  | _ => false

/-- Whether a command only shows something. -/
def Command.isView (command : Command) : Bool :=
  !command.isEdit && command != .settings .create

/-- The path of the settings file. -/
abbrev Host.settingsPath (host : Host) : Path :=
  .ofString (Settings.filePath host.environment)

namespace Program

/-- What an edit of the store changes by how the run ends. -/
inductive Edited (store : FileStore) (outcome : Outcome) : Prop where
  /-- It fails, and no file is changed. -/
  | refused (code : outcome.code = 1) (changes : store.disk.ChangesNone outcome.disk)
  /-- It fails and says that the store cannot be written. -/
  | unsaved (code : outcome.code = 1) (cause : StoreCause)
      (said : outcome.stderr =
        report (StoreFault.unwritable store.path cause).message [cause.message])
      (changes : store.disk.ChangesAt [store.temporary] outcome.disk)
  | saved (code : outcome.code = 0)
      (changes : store.disk.ChangesAt [store.temporary, store.target] outcome.disk)

/-- The path of the settings file showed nothing, the file holds the settings, and is all that
changes. No file was at its place before, unless the path goes up from a folder that was missing:
such a path shows nothing, wherever it leads once the folder is made. -/
structure Created (host : Host) (settings : Settings) (outcome : Outcome) : Prop where
  absent : host.disk.isPresent host.settingsPath = false
  shown : outcome.disk.seen? host.settingsPath = some (.file (Utf8.encode settings.encode))
  written : ∃ place, outcome.disk.Leads host.settingsPath place ∧
    outcome.disk.content? =
      Function.update host.disk.content? place (some (Utf8.encode settings.encode)) ∧
    (host.disk.content? place = none ∨
      host.disk.GoesUpFromMissing (host.disk.origin host.settingsPath) host.settingsPath.parts)

theorem edited_runAdd (host : Host) (settings : Settings) (opening color : String)
    (effects : Effects) (description : Option String) (editExisting : Bool) :
    Edited (storeOf host settings)
      (runAdd host (storeOf host settings) opening color effects description editExisting) := by
  unfold runAdd
  split
  · exact .refused rfl (.refl ..)
  rename_i draft typed
  dsimp only
  generalize Request.submit _ _ = request
  have edited := (storeOf host settings).edited_run request host.freshKey
  generalize request.run host.freshKey (storeOf host settings) = result at edited ⊢
  cases edited with
  | refused fault => cases fault <;> exact .refused rfl (.refl ..)
  | unsaved cause s' changes => exact .unsaved rfl cause rfl changes
  | saved answer s' changes => cases answer <;> exact .saved rfl changes

theorem edited_runRemove (host : Host) (settings : Settings) (key : String) :
    Edited (storeOf host settings) (runRemove (storeOf host settings) key) := by
  unfold runRemove
  have edited := (storeOf host settings).edited_run (.remove key) ""
  generalize (Request.remove key).run "" (storeOf host settings) = result at edited ⊢
  cases edited with
  | refused fault => exact .refused rfl (.refl ..)
  | unsaved cause s' changes => exact .unsaved rfl cause rfl changes
  | saved answer s' changes => cases answer <;> exact .saved rfl changes

theorem changes_runCreate (host : Host) (settings : Settings) :
    (runCreate host settings).code = 1 ∧ host.disk.ChangesNone (runCreate host settings).disk ∨
      (runCreate host settings).code = 0 ∧ Created host settings (runCreate host settings) := by
  unfold runCreate
  dsimp only
  split
  · exact .inl ⟨rfl, .refl ..⟩
  rename_i absent
  have saved := settings.saved_save host.disk (Settings.filePath host.environment)
  generalize settings.save host.disk (Settings.filePath host.environment) = result at saved ⊢
  obtain ⟨outcome, d⟩ := result
  cases outcome with
  | error fault =>
    cases saved with
    | failed fault made unchanged => exact .inl ⟨rfl, unchanged⟩
  | ok _ =>
    have absent := eq_false_of_ne_true absent
    obtain ⟨folder, name, denotes, content, new⟩ := saved.written_at
    exact .inr ⟨rfl, absent, saved.seen?_eq, folder ++ [name], ⟨folder, name, denotes, rfl⟩,
      content, new absent⟩

/-- What a run may change by its command and by how it ends. -/
inductive Changes (host : Host) (settings : Settings) (outcome : Outcome) : Command → Prop where
  | viewed (command : Command) (view : command.isView) (same : outcome.disk = host.disk) :
      Changes host settings outcome command
  | edited (command : Command) (edit : command.isEdit)
      (edited : Edited (storeOf host settings) outcome) : Changes host settings outcome command
  | notCreated (code : outcome.code = 1) (unchanged : host.disk.ChangesNone outcome.disk) :
      Changes host settings outcome (.settings .create)
  | created (code : outcome.code = 0) (created : Created host settings outcome) :
      Changes host settings outcome (.settings .create)

namespace Changes

variable {host : Host} {settings : Settings} {outcome : Outcome} {command : Command}
  (changes : Changes host settings outcome command)
include changes

theorem unchanged_of_isView (view : command.isView) : host.disk.ChangesNone outcome.disk := by
  cases changes with
  | viewed _ _ same =>
    rw [same]
    exact .refl ..
  | edited _ edit edited =>
    rw [Command.isView, edit] at view
    cases view
  | notCreated code unchanged => cases view
  | created code created => cases view

theorem of_failed (failed : outcome.code ≠ 0) :
    host.disk.ChangesNone outcome.disk ∨ command.isEdit ∧ ∃ cause,
      outcome.stderr =
        report (StoreFault.unwritable settings.storePath cause).message [cause.message] ∧
      host.disk.ChangesAt [(storeOf host settings).temporary] outcome.disk := by
  cases changes with
  | viewed _ view same =>
    rw [same]
    exact .inl (.refl ..)
  | edited _ edit edited =>
    cases edited with
    | refused code unchanged => exact .inl unchanged
    | unsaved code cause said changes => exact .inr ⟨edit, cause, said, changes⟩
    | saved code changes => exact absurd code failed
  | notCreated code unchanged => exact .inl unchanged
  | created code created => exact absurd code failed

theorem of_edit (code : outcome.code = 0) (edit : command.isEdit) :
    host.disk.ChangesAt [(storeOf host settings).temporary, (storeOf host settings).target]
      outcome.disk := by
  cases changes with
  | viewed _ view same =>
    rw [same]
    exact .refl ..
  | edited _ _ edited =>
    cases edited with
    | refused code' unchanged => simp [code'] at code
    | unsaved code' cause said changes => simp [code'] at code
    | saved _ changes => exact changes
  | notCreated code' unchanged => cases edit
  | created code' created => cases edit

theorem of_create (code : outcome.code = 0) (create : command = .settings .create) :
    Created host settings outcome := by
  subst create
  cases changes with
  | viewed _ view same => cases view
  | edited _ edit edited => cases edit
  | notCreated code' unchanged => simp [code'] at code
  | created _ created => exact created

end Changes

theorem disk_runRender (host : Host) (store : FileStore) (text : Option String)
    (keyword : String) : (runRender host store text keyword).disk = host.disk := by
  unfold runRender
  split
  · rfl
  · split <;> rfl

theorem disk_runPreview (host : Host) (store : FileStore) (text : Option String)
    (keyword : String) : (runPreview host store text keyword).disk = host.disk := by
  unfold runPreview
  split
  · rfl
  · split <;> rfl

theorem disk_runList (host : Host) (store : FileStore) :
    (runList host store).disk = host.disk := by
  unfold runList
  dsimp only
  split <;> rfl

theorem changes_runCommand (host : Host) (settings : Settings) (keyword : String)
    (command : Command) :
    Changes host settings (runCommand host settings keyword command) command := by
  cases command with
  | render text => exact .viewed _ rfl (disk_runRender ..)
  | preview text => exact .viewed _ rfl (disk_runPreview ..)
  | add opening color effects description editExisting =>
    exact .edited _ rfl (edited_runAdd ..)
  | list => exact .viewed _ rfl (disk_runList ..)
  | remove key => exact .edited _ rfl (edited_runRemove ..)
  | settings action =>
    cases action with
    | list => exact .viewed _ rfl rfl
    | create =>
      rcases changes_runCreate host settings with ⟨code, unchanged⟩ | ⟨code, created⟩
      · exact .notCreated code unchanged
      · exact .created code created
  | help => exact .viewed _ rfl rfl

/-- A home folder with one file. -/
def smallHome : Host where
  environment := ⟨[("HOME", "/home/u")]⟩
  disk := ⟨.folder [("home", .folder [("u", .folder [("a.txt", .file [97])])])], ["home", "u"]⟩
  freshKey := "custom-a"

/-- A home folder that `HOME` leads to by way of a folder that is missing. The settings file is
there. -/
def roundaboutHome : Host where
  environment := ⟨[("HOME", "x/..")]⟩
  disk := .ofFiles ["home", "u"]
    [(".config/markup-conventions/config.toml", Utf8.encode "keyword_color = \"#112233\"\n")]
  freshKey := "custom-a"

end Program

end InlineMarkup
