import InlineMarkup.CommandLine.Program

/-!
# Runs of the program

A run reads its arguments and the settings before it carries a command out. Whatever it does is
said by the settings that it follows (`Program.run_cases`).
-/

namespace InlineMarkup.Program

variable {host : Host} {argv : List String} {args : Arguments} {settings : Settings}

/-- The settings that a run with these arguments follows. -/
def Effective (host : Host) (args : Arguments) (settings : Settings) : Prop :=
  ∃ saved,
    Settings.load host.environment host.disk (Settings.filePath host.environment) = .ok saved ∧
      settings = effective host args saved

/-- The color of keywords in a run that follows the settings. -/
def keywordOf (settings : Settings) : String :=
  settings.keywordColor.getD Color.defaultKeyword

/-- The store of a run that follows the settings. -/
def storeOf (host : Host) (settings : Settings) : FileStore :=
  ⟨settings.storePath, host.disk⟩

/-- A run ends before its command, with an error or with the summary of the commands, or carries
the command out with the settings that it follows. -/
theorem run_cases (host : Host) (argv : List String) :
    (run host argv).disk = host.disk ∧
        ((run host argv).code = 1 ∨ ∃ args, Arguments.parse argv = .ok args ∧
          args.command = .help) ∨
      ∃ args settings, Arguments.parse argv = .ok args ∧ Effective host args settings ∧
        Color.isHex (keywordOf settings) ∧
        run host argv = runCommand host settings (keywordOf settings) args.command := by
  unfold run
  split
  · exact .inl ⟨rfl, .inl rfl⟩
  rename_i args parsed
  split
  · rename_i help
    exact .inl ⟨rfl, .inr ⟨args, parsed, help⟩⟩
  split
  · exact .inl ⟨rfl, .inl rfl⟩
  rename_i saved loaded
  dsimp only
  split
  · rename_i hex
    exact .inr ⟨args, effective host args saved, parsed, ⟨saved, loaded, rfl⟩, hex, rfl⟩
  · exact .inl ⟨rfl, .inl rfl⟩

/-- With a valid color, the command is carried out. -/
theorem run_eq_runCommand (parsed : Arguments.parse argv = .ok args)
    (noHelp : args.command ≠ .help) (follows : Effective host args settings)
    (hex : Color.isHex (keywordOf settings)) :
    run host argv = runCommand host settings (keywordOf settings) args.command := by
  obtain ⟨saved, loaded, rfl⟩ := follows
  rw [keywordOf] at hex
  simp only [run, parsed, if_neg noHelp, loaded, hex, if_true]
  rfl

end InlineMarkup.Program
