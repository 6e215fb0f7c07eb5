import InlineMarkup.Effect
import InlineMarkup.Text.Quoted

/-!
# Command line arguments

Options may stand anywhere between the words of a command; the last value of an option counts. A
request for help wins over every command.
-/

namespace InlineMarkup

/-- What to do with the settings. -/
inductive SettingsAction where
  | list
  | create
deriving DecidableEq, Repr

/-- A command. A rendering without a text reads it from standard input. -/
inductive Command where
  | render (text : Option String)
  | preview (text : Option String)
  | add (opening color : String) (effects : Effects) (description : Option String)
      (editExisting : Bool)
  | list
  | remove (key : String)
  | settings (action : SettingsAction)
  | help
deriving DecidableEq, Repr

/-- Why arguments make no command. -/
inductive ArgumentFault where
  | missingValue (option : String)
  | unknownOption (option : String)
  | missingOpening
  | missingColor
  | unknownEffect (name : String)
  | missingKey
  | unknownAction (name : String)
  | unknownCommand (name : String)
deriving DecidableEq, Repr

/-- The message for a fault. -/
def ArgumentFault.message : ArgumentFault → String
  | missingValue option => option ++ " needs a value"
  | unknownOption option => "Unknown option " ++ option
  | missingOpening => "add needs an opening sequence"
  | missingColor => "add needs a color, inherit or keyword"
  | unknownEffect name => "Unknown effect " ++ Text.quoted name
  | missingKey => "remove needs a convention key"
  | unknownAction name => "Unknown config action " ++ Text.quoted name
  | unknownCommand name => "Unknown command " ++ Text.quoted name

/-- Arguments with the options told from the words. -/
structure Options where
  store : Option String := none
  keywordColor : Option String := none
  description : Option String := none
  editExisting : Bool := false
  words : List String := []
deriving DecidableEq, Repr

namespace Options

/-- Whether an argument has the form of an option. -/
def isOption (arg : String) : Bool :=
  "--".toList.isPrefixOf arg.toList

/-- Whether an argument asks for help. -/
def isHelp (arg : String) : Bool :=
  arg == "-h" || arg == "--help"

/-- Adds arguments to those that were read before. -/
def read : List String → Options → Except ArgumentFault Options
  | [], o => .ok o
  | arg :: rest, o =>
    if arg = "--store" then
      match rest with
      | v :: rest => read rest { o with store := some v }
      | [] => .error (.missingValue arg)
    else if arg = "--keyword-color" then
      match rest with
      | v :: rest => read rest { o with keywordColor := some v }
      | [] => .error (.missingValue arg)
    else if arg = "--description" then
      match rest with
      | v :: rest => read rest { o with description := some v }
      | [] => .error (.missingValue arg)
    else if arg = "--edit-existing" then read rest { o with editExisting := true }
    else if isHelp arg then read rest { o with words := "help" :: o.words }
    else if isOption arg then .error (.unknownOption arg)
    else read rest { o with words := o.words ++ [arg] }

end Options

/-- Arguments as a whole. -/
structure Arguments where
  store : Option String := none
  keywordColor : Option String := none
  command : Command
deriving DecidableEq, Repr

namespace Arguments

/-- Words as one text, if there are any. -/
def joined (words : List String) : Option String :=
  if words.isEmpty then none else some (" ".intercalate words)

/-- The effects with the given names. -/
def readEffects (names : List String) : Except ArgumentFault Effects := do
  let effects ← names.mapM fun name =>
    match Effect.ofName? name with
    | some e => .ok e
    | none => .error (.unknownEffect name)
  return Effects.ofList effects

/-- The command that the words of arguments make. -/
def readCommand (o : Options) : Except ArgumentFault Command :=
  match o.words with
  | [] => .ok .help
  | name :: words =>
    if name = "help" then .ok .help
    else if name = "render" then .ok (.render (joined words))
    else if name = "preview" then .ok (.preview (joined words))
    else if name = "add" then
      match words with
      | [] => .error .missingOpening
      | [_] => .error .missingColor
      | opening :: color :: names =>
        (readEffects names).map fun effects =>
          .add opening color effects o.description o.editExisting
    else if name = "list" then .ok .list
    else if name = "remove" then
      match words with
      | [] => .error .missingKey
      | key :: _ => .ok (.remove key)
    else if name = "config" then
      match words with
      | [] => .ok (.settings .list)
      | action :: _ =>
        if action = "show" then .ok (.settings .list)
        else if action = "init" then .ok (.settings .create)
        else .error (.unknownAction action)
    else .error (.unknownCommand name)

/-- Reads arguments, the name of the program not among them. -/
def parse (argv : List String) : Except ArgumentFault Arguments := do
  let o ← Options.read argv {}
  let command ← readCommand o
  return { store := o.store, keywordColor := o.keywordColor, command }

/-- Whether a command reads standard input. -/
def readsInput (args : Arguments) : Bool :=
  args.command == .render none || args.command == .preview none

/-- The summary of the commands. -/
def usage : String :=
  "Usage: markup-conventions [--store <path>] [--keyword-color <hex>] <command>\n" ++
  "\n" ++
  "Commands:\n" ++
  "  render [text]        Render text (or stdin) to HTML\n" ++
  "  preview [text]       Render text (or stdin) with terminal colors\n" ++
  "  add <opening> <color|inherit|keyword> [glow] [bold] [flash] [pulse]\n" ++
  "      [--description <text>] [--edit-existing]\n" ++
  "                       Add a custom convention\n" ++
  "  list                 List built-in and custom conventions\n" ++
  "  remove <key>         Remove a custom convention\n" ++
  "  config [show|init]   Show settings, or write them to the config file\n" ++
  "  help                 Show this message"

end Arguments

end InlineMarkup
