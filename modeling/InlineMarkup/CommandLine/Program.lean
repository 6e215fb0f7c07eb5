import InlineMarkup.CommandLine.Arguments
import InlineMarkup.Engine
import InlineMarkup.Preview
import InlineMarkup.Settings
import InlineMarkup.Store.File

/-!
# The command line program

One run of the program as a function of its arguments, its input, the environment and the disk.
Options win over the settings file, which wins over the defaults.
-/

namespace InlineMarkup

/-- What a run of the program starts from. -/
structure Host where
  environment : Environment
  disk : Disk
  /-- The bytes of standard input. -/
  input : Bytes := []
  /-- The key of a convention that this run creates. -/
  freshKey : String

/-- What a run of the program leaves behind. -/
structure Outcome where
  code : Nat := 0
  stdout : String := ""
  stderr : String := ""
  disk : Disk
  /-- Whether the fresh key was used. -/
  created : Bool := false
  /-- What was passed over on the way. -/
  warnings : List Warning := []

namespace Program

/-- A text with a newline at its end. -/
def line (s : String) : String := s ++ "\n"

/-- Fills a text with blanks on the right up to a number of characters. -/
def pad (width : Nat) (s : String) : String :=
  s ++ String.ofList (List.replicate (width - s.toList.length) ' ')

/-- A text whose later lines are moved in by `width` blanks. -/
def indent (width : Nat) (s : String) : String :=
  String.ofList (s.toList.flatMap fun c =>
    if c = '\n' then '\n' :: List.replicate width ' ' else [c])

/-- The causes of an error with their numbers. -/
def numbered (causes : List String) : List String :=
  causes.zipIdx.map fun (cause, n) =>
    let number := toString n
    String.ofList (List.replicate (5 - number.length) ' ') ++ number ++ ": " ++ indent 7 cause

/-- The report of an error and its causes, the nearest first. -/
def report (message : String) (causes : List String) : String :=
  let lines := match causes with
    | [cause] => ["    " ++ indent 4 cause]
    | causes => numbered causes
  let tail := if causes.isEmpty then "" else "\n\nCaused by:\n" ++ "\n".intercalate lines
  line ("Error: " ++ message ++ tail)

/-- The end of a run with an error. -/
def fail (disk : Disk) (message : String) (causes : List String) : Outcome :=
  { code := 1, stderr := report message causes, disk }

/-- The end of a run with an error of the store. -/
def failStore (disk : Disk) (fault : StoreFault) : Outcome :=
  fail disk fault.message [fault.causeMessage]

/-- A text without the newlines at its end. -/
def trimNewlines (s : String) : String :=
  String.ofList (s.toList.reverse.dropWhile (· == '\n')).reverse

/-- The text to render: the one among the arguments, or else standard input. -/
def textOrInput (host : Host) (text : Option String) : Except Disk.Fault String :=
  match text with
  | some s => .ok s
  | none =>
    match Utf8.decode? host.input with
    | some s => .ok (trimNewlines s)
    | none => .error .notText

/-- The end of a run whose input is no text. -/
def failInput (disk : Disk) (fault : Disk.Fault) : Outcome :=
  fail disk "Failed to read text from stdin" [fault.message]

/-- Renders a text to HTML. -/
def runRender (host : Host) (store : FileStore) (text : Option String) (keyword : String) :
    Outcome :=
  match textOrInput host text with
  | .error fault => failInput host.disk fault
  | .ok s =>
    match Engine.tryParse store s keyword with
    | .error fault => failStore host.disk fault
    | .ok (html, warnings) => { stdout := line html, disk := host.disk, warnings }

/-- Renders a text for a terminal. -/
def runPreview (host : Host) (store : FileStore) (text : Option String) (keyword : String) :
    Outcome :=
  match textOrInput host text with
  | .error fault => failInput host.disk fault
  | .ok s =>
    match Engine.trySegments store s with
    | .error fault => failStore host.disk fault
    | .ok (segments, warnings) =>
      { stdout := Preview.render segments keyword, disk := host.disk, warnings }

/-- What is said about a refused edit, beside its message. -/
def causes : AuthoringFault → List String
  | .store fault => [fault.causeMessage]
  | _ => []

/-- The end of a run that submitted a draft. -/
def endAdd (answer : Except AuthoringFault Answer) (disk : Disk) : Outcome :=
  match answer with
  | .ok (.created c) =>
    { stdout := line ("Added " ++ c.usage ++ " as " ++ c.key), disk, created := true }
  | .ok (.updated c) =>
    { stdout := line ("Updated " ++ c.key ++ " (" ++ c.usage ++ ")"), disk }
  | .ok (.removed _) => { disk }
  | .error (.conflict delimiters existing) =>
    { code := 1
      stderr := line ("Error: " ++ (AuthoringFault.conflict delimiters existing).message) ++
        line "Re-run with --edit-existing to update it, or pick another opening"
      disk }
  | .error fault => fail disk fault.message (causes fault)

/-- Adds a custom convention. -/
def runAdd (host : Host) (store : FileStore) (opening color : String) (effects : Effects)
    (description : Option String) (editExisting : Bool) : Outcome :=
  match Draft.ofInput opening color effects with
  | .error fault => { code := 1, stderr := line ("Error: " ++ fault.message), disk := host.disk }
  | .ok draft =>
    let draft := { draft with description := description.getD draft.description }
    let resolution := if editExisting then Resolution.editExisting else .reject
    let request := Request.submit draft resolution
    let (answer, after) := request.run host.freshKey store
    { endAdd answer after.disk with warnings := request.warningsOn store }

/-- Removes a custom convention. -/
def runRemove (store : FileStore) (key : String) : Outcome :=
  match (Request.remove key).run "" store with
  | (.ok (.removed r), store) =>
    { stdout := line ("Removed " ++ key ++ " (" ++ r.opening ++ "text" ++ r.closing ++ ")")
      disk := store.disk }
  | (.ok _, store) => { disk := store.disk }
  | (.error fault, store) => fail store.disk fault.message (causes fault)

/-- The columns in which a convention is listed. -/
def columns (c : Convention) : String :=
  pad 40 c.key ++ " " ++ pad 10 c.usage ++ " " ++ pad 8 c.color.display ++ " " ++
    c.effects.display

/-- Lists the built-in and the custom conventions. -/
def runList (host : Host) (store : FileStore) : Outcome :=
  let builtins := String.join (Convention.builtins.map fun c =>
    line (columns c ++ "  (built-in)"))
  match Engine.customs store with
  | .error fault =>
    { fail host.disk "Failed to read custom conventions" [fault.message, fault.causeMessage] with
      stdout := builtins }
  | .ok customs =>
    { stdout := builtins ++ String.join (customs.map fun c =>
        line (columns c ++ "  " ++ c.description))
      disk := host.disk }

/-- Shows the settings of this run. -/
def runShow (host : Host) (settings : Settings) (keyword : String) : Outcome :=
  { stdout :=
      line ("config file:   " ++ Settings.filePath host.environment) ++
      line ("store:         " ++ settings.storePath) ++
      line ("keyword color: " ++ keyword)
    disk := host.disk }

/-- Writes the settings of this run to the settings file, unless there is one. -/
def runCreate (host : Host) (settings : Settings) : Outcome :=
  let path := Settings.filePath host.environment
  if host.disk.isPresent (.ofString path) then
    { code := 1, stderr := line ("Error: Config file already exists at " ++ path)
      disk := host.disk }
  else
    match settings.save host.disk path with
    | (.ok (), disk) => { stdout := line ("Wrote " ++ path), disk }
    | (.error fault, disk) => fail disk "Failed to write config file" [fault.message]

/-- Carries a command out. -/
def runCommand (host : Host) (settings : Settings) (keyword : String) (command : Command) :
    Outcome :=
  let store : FileStore := ⟨settings.storePath, host.disk⟩
  match command with
  | .render text => runRender host store text keyword
  | .preview text => runPreview host store text keyword
  | .add opening color effects description editExisting =>
    runAdd host store opening color effects description editExisting
  | .list => runList host store
  | .remove key => runRemove store key
  | .settings .list => runShow host settings keyword
  | .settings .create => runCreate host settings
  | .help => { stdout := line Arguments.usage, disk := host.disk }

/-- The settings of a run: options, then the settings file, then the defaults. -/
def effective (host : Host) (args : Arguments) (saved : Option Settings) : Settings :=
  let saved := saved.getD (.default host.environment)
  { storePath := args.store.getD saved.storePath
    keywordColor := args.keywordColor.or saved.keywordColor }

/-- One run of the program. -/
def run (host : Host) (argv : List String) : Outcome :=
  match Arguments.parse argv with
  | .error fault =>
    { code := 1, stderr := line ("Error: " ++ fault.message) ++ line Arguments.usage
      disk := host.disk }
  | .ok args =>
    if args.command = .help then { stdout := line Arguments.usage, disk := host.disk }
    else
      match Settings.load host.environment host.disk (Settings.filePath host.environment) with
      | .error fault =>
        { code := 1, stderr := line ("Error: Failed to load config file: " ++ fault.message)
          disk := host.disk }
      | .ok saved =>
        let settings := effective host args saved
        let keyword := settings.keywordColor.getD Color.defaultKeyword
        if Color.isHex keyword then runCommand host settings keyword args.command
        else
          fail host.disk
            ("Keyword color " ++ Text.quoted keyword ++ " is not #rgb or #rrggbb") []

end Program

end InlineMarkup
