import InlineMarkup.Proofs.CommandLine.Writes
import InlineMarkup.Proofs.Settings.Expansion

/-!
# Settings that are kept

The settings of a run that creates the settings file are those of later runs without options,
except that their path is expanded once more. A path that stood for itself on the command line
may thus be another one in the file (`Program.show_after_create`).
-/

namespace InlineMarkup

namespace Arguments

/-- Options for a store and for a color of keywords. -/
def flags (store? color? : Option String) : List String :=
  (match store? with
    | some path => ["--store", path]
    | none => []) ++
    match color? with
    | some color => ["--keyword-color", color]
    | none => []

/-- The word for what to do with the settings. -/
def actionName : SettingsAction → String
  | .list => "show"
  | .create => "init"

theorem parse_flags (store? color? : Option String) (action : SettingsAction) :
    parse (flags store? color? ++ ["config", actionName action]) =
      .ok ⟨store?, color?, .settings action⟩ := by
  cases store? <;> cases color? <;> cases action <;> rfl

end Arguments

namespace Program

open Arguments (actionName flags)

variable {host later : Host} {args args' : Arguments} {settings : Settings} {outcome : Outcome}

/-- Without a settings file, a run follows its options and the defaults. -/
theorem Effective.eq_of_absent (follows : Effective host args settings)
    (absent : host.disk.isPresent (.ofString (Settings.filePath host.environment)) = false) :
    settings =
      ⟨args.store.getD (Settings.defaultStorePath host.environment), args.keywordColor⟩ := by
  obtain ⟨saved, loaded, rfl⟩ := follows
  rw [Settings.load_of_not_isPresent host.environment absent] at loaded
  cases loaded
  simp [effective, Settings.default]

/-- A later run without options follows the settings in the file. -/
theorem Created.effective (created : Created host settings outcome)
    (environment : later.environment = host.environment)
    (kept : later.disk.seen? (.ofString (Settings.filePath host.environment)) =
      outcome.disk.seen? (.ofString (Settings.filePath host.environment)))
    (noStore : args'.store = none) (noColor : args'.keywordColor = none) :
    Effective later args'
      { settings with storePath := host.environment.expand settings.storePath } := by
  have seen := kept.trans created.shown
  rw [← environment] at seen ⊢
  refine ⟨_, Settings.load_of_seen? later.environment seen, ?_⟩
  simp [Program.effective, noStore, noColor]

/-- What a run that creates the settings file says about other runs. -/
theorem created_of_code_eq_zero {argv : List String} {store? color? : Option String}
    (parsed : Arguments.parse argv = .ok ⟨store?, color?, .settings .create⟩)
    (code : (run host argv).code = 0) :
    let settings : Settings :=
      ⟨store?.getD (Settings.defaultStorePath host.environment), color?⟩
    Color.isHex (keywordOf settings) ∧ Created host settings (run host argv) ∧
      ∀ args, args.store = store? → args.keywordColor = color? → Effective host args settings := by
  rcases run_cases host argv with ⟨-, ended⟩ | ⟨args, settings, parsed', follows, hex, eq⟩
  · rcases ended with failed | ⟨args, parsed', help⟩
    · rw [failed] at code
      cases code
    · rw [parsed] at parsed'
      cases parsed'
      cases help
  rw [parsed] at parsed'
  cases parsed'
  rw [eq] at code ⊢
  rcases changes_runCreate host settings with ⟨failed, -⟩ | ⟨-, created⟩
  · have same : (runCreate host settings).code = 0 := code
    rw [failed] at same
    cases same
  obtain rfl := follows.eq_of_absent created.absent
  refine ⟨hex, created, ?_⟩
  intro args store color
  refine ⟨none, Settings.load_of_not_isPresent host.environment created.absent, ?_⟩
  simp [effective, store, color, Settings.default]

theorem stdout_runShow_eq_iff {settings' : Settings} (keyword : String)
    (environment : later.environment = host.environment) :
    (runShow later settings' keyword).stdout = (runShow host settings keyword).stdout ↔
      settings'.storePath = settings.storePath := by
  simp [runShow, line, environment, String.append_assoc]

/-- When `config init` succeeds with some options, `config show` shows their settings, and shows
the same settings later without the options, in the same environment and as long as the settings
file is kept, except that the path of the store is expanded; other commands follow these settings
then, too. So they are the same exactly if the path expands to itself, as any path does that has
no variables and does not begin with `~`. -/
theorem show_after_create (host later : Host) (store? color? : Option String)
    (code : (run host (flags store? color? ++ ["config", "init"])).code = 0)
    (environment : later.environment = host.environment)
    (kept : later.disk.seen? (.ofString (Settings.filePath host.environment)) =
      (run host (flags store? color? ++ ["config", "init"])).disk.seen?
        (.ofString (Settings.filePath host.environment))) :
    let settings : Settings :=
      ⟨store?.getD (Settings.defaultStorePath host.environment), color?⟩
    let settings' : Settings :=
      { settings with storePath := host.environment.expand settings.storePath }
    let before := run host (flags store? color? ++ ["config", "show"])
    let after := run later ["config", "show"]
    before = runShow host settings (keywordOf settings) ∧
    after = runShow later settings' (keywordOf settings) ∧
    (∀ args, args.store = none → args.keywordColor = none → Effective later args settings') ∧
    (after.stdout = before.stdout ↔ settings' = settings) ∧
    ('$' ∉ settings.storePath.toList → settings.storePath.toList.head? ≠ some '~' →
      settings' = settings) := by
  intro settings settings' before after
  obtain ⟨hex, created, follows⟩ :=
    created_of_code_eq_zero (Arguments.parse_flags store? color? .create) code
  have later' (args : Arguments) (noStore : args.store = none)
      (noColor : args.keywordColor = none) : Effective later args settings' :=
    created.effective environment kept noStore noColor
  have shown : before = runShow host settings (keywordOf settings) :=
    run_eq_runCommand (Arguments.parse_flags store? color? .list) nofun (follows _ rfl rfl) hex
  have shown' : after = runShow later settings' (keywordOf settings) :=
    run_eq_runCommand (Arguments.parse_flags none none .list) nofun (later' _ rfl rfl) hex
  have same : settings'.storePath = settings.storePath → settings' = settings := by
    intro same
    rw [Settings.mk.injEq]
    exact ⟨same, rfl⟩
  refine ⟨shown, shown', later', ?_, ?_⟩
  · rw [shown, shown', stdout_runShow_eq_iff _ environment]
    constructor
    · exact same
    · intro equal
      rw [equal]
  · intro plain noHome
    exact same (host.environment.expand_eq_self plain noHome)

/-- A path with quotes of both kinds and a backslash. -/
theorem show_after_create_quotes :
    let options := flags (some "it's \"a\\b\".json") (some "#abc")
    let created := run smallHome (options ++ ["config", "init"])
    let later : Host := { smallHome with disk := created.disk }
    created.code = 0 ∧
      (run later ["config", "show"]).stdout =
        (run smallHome (options ++ ["config", "show"])).stdout := by
  intro options created later
  have code : created.code = 0 := by decide +kernel
  obtain ⟨-, -, -, same, plain⟩ := show_after_create smallHome later _ _ code rfl rfl
  exact ⟨code, same.2 (plain (by decide +kernel) (by decide +kernel))⟩

/-- A path that begins with `~` stands for itself as an option, but in the settings file for a path
in the home folder. So the file names another store than the run that created it followed. -/
theorem store_expanded_after_create :
    let options := flags (some "~/c.json") none
    let created := run smallHome (options ++ ["config", "init"])
    let before := run smallHome (options ++ ["config", "show"])
    let after := run { smallHome with disk := created.disk } ["config", "show"]
    let shown (store : String) : String :=
      "config file:   /home/u/.config/markup-conventions/config.toml\nstore:         " ++ store ++
        "\nkeyword color: #ff00ff\n"
    created.code = 0 ∧ before.code = 0 ∧ before.stdout = shown "~/c.json" ∧
      after.code = 0 ∧ after.stdout = shown "/home/u/c.json" ∧ after.stdout ≠ before.stdout := by
  decide +kernel

end Program

end InlineMarkup
