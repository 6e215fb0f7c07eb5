import InlineMarkup.Disk
import InlineMarkup.Settings.Expansion
import InlineMarkup.Toml.Reader

/-!
# Settings

The settings say where the custom conventions are stored and which color keywords have. They are
kept in a file in the home folder and may be left out there in whole or in part.
-/

namespace InlineMarkup

/-- Where the custom conventions are stored, and the color of keywords if one is chosen. -/
structure Settings where
  storePath : String
  keywordColor : Option String := none
deriving DecidableEq, Repr

/-- Why settings cannot be loaded. -/
inductive SettingsFault where
  | unreadable (path : String) (fault : Disk.Fault)
  | unparsable (path : String)
deriving DecidableEq, Repr

namespace SettingsFault

/-- The message for what lies behind a fault. -/
def causeMessage : SettingsFault → String
  | unreadable _ fault => fault.message
  | unparsable _ => "the text holds no valid TOML settings"

/-- The message for a fault. -/
def message : SettingsFault → String
  | unreadable path fault => "Failed to read config file at " ++ path ++ ": " ++ fault.message
  | unparsable path =>
    "Failed to parse config file at " ++ path ++ ": " ++ (unparsable path).causeMessage

end SettingsFault

namespace Settings

/-- A path below the home folder. -/
def inHome (env : Environment) (path : String) : String :=
  String.ofList (env.expandHome ('~' :: '/' :: path.toList))

/-- The file that holds the settings. -/
def filePath (env : Environment) : String :=
  inHome env ".config/markup-conventions/config.toml"

/-- The store of settings that name none. -/
def defaultStorePath (env : Environment) : String :=
  inHome env ".local/share/markup-conventions/conventions.json"

/-- The settings of a home folder without a settings file. -/
def default (env : Environment) : Settings where
  storePath := defaultStorePath env

/-- The text that a key of a table stands for, if the key is there; any other value is refused. -/
def text? (t : Toml.Table) (key : String) : Option (Option String) :=
  match t.lookup key with
  | none => some none
  | some (.text s) => some (some s)
  | some _ => none

/-- The settings that a text holds, with paths as they are written there. -/
def decode? (env : Environment) (s : String) : Option Settings := do
  let t ← Toml.read? s
  let storePath ← text? t "store_path"
  let keywordColor ← text? t "keyword_color"
  return { storePath := storePath.getD (defaultStorePath env), keywordColor }

/-- The text of settings. -/
def encode (s : Settings) : String :=
  "store_path = " ++ Toml.writeString s.storePath ++ "\n" ++
    match s.keywordColor with
    | some color => "keyword_color = " ++ Toml.writeString color ++ "\n"
    | none => ""

/-- The settings in a file, if the file is there. -/
def load (env : Environment) (disk : Disk) (path : String) :
    Except SettingsFault (Option Settings) :=
  if disk.isPresent (.ofString path) then
    match disk.readText (.ofString path) with
    | .error fault => .error (.unreadable path fault)
    | .ok s =>
      match decode? env s with
      | none => .error (.unparsable path)
      | some settings => .ok (some { settings with storePath := env.expand settings.storePath })
  else .ok none

/-- The first step of writing settings: the folders around the file. -/
def makeFolders (disk : Disk) (target : Path) : Except Disk.Fault Unit × Disk :=
  match target.parent? with
  | some folder => disk.makeFolders folder
  | none => (.ok (), disk)

/-- Writes settings to a file. A fault ends it after the folders that were made. -/
def save (s : Settings) (disk : Disk) (path : String) : Except Disk.Fault Unit × Disk :=
  let target := Path.ofString path
  match makeFolders disk target with
  | (.error fault, disk) => (.error fault, disk)
  | (.ok (), disk) =>
    match disk.write target (Utf8.encode s.encode) with
    | .error fault => (.error fault, disk)
    | .ok disk => (.ok (), disk)

end Settings

end InlineMarkup
