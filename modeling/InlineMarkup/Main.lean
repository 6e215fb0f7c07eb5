import InlineMarkup.Authoring.Key
import InlineMarkup.CommandLine.Program

/-!
# The program

The program reads the files it may need into a disk, runs on that disk, and writes back the files
that changed.
-/

namespace InlineMarkup.Machine

/-- The path of a place. -/
def pathOf (names : List String) : String :=
  "/" ++ "/".intercalate names

/-- Adds to a disk what the machine has along the parts of a path, starting at the folder `here`. -/
def lookAlong (disk : Disk) (here : List String) : List String → IO Disk
  | [] => pure disk
  | part :: rest => do
    if part = "." then lookAlong disk here rest
    else if part = ".." then lookAlong disk here.dropLast rest
    else
      let names := here ++ [part]
      let entry := (← IO.currentDir) / pathOf names
      if ← entry.isDir then
        let disk := if (disk.node? names).isSome then disk else disk.put names (.folder [])
        lookAlong disk names rest
      else if ← entry.pathExists then
        let content ← IO.FS.readBinFile entry
        return disk.put names (.file content.data.toList)
      else return disk

/-- Adds to a disk what the machine has at a path. -/
def look (disk : Disk) (p : Path) : IO Disk :=
  lookAlong disk (disk.origin p) p.parts

/-- Writes the files of `disk` that are not as they were `before`. Each is written beside its
place and then moved there. -/
def writeBack (before disk : Disk) : IO Unit := do
  let old := before.filesUnder []
  let here ← IO.currentDir
  for (names, content) in disk.filesUnder [] do
    if old.lookup names != some content then
      IO.FS.createDirAll (here / pathOf names.dropLast)
      let beside := here / (pathOf names ++ ".tmp")
      IO.FS.writeBinFile beside content.toByteArray
      IO.FS.rename beside (here / pathOf names)

/-- The variables of the machine that have the given names. -/
def bindings (names : List String) : IO (List (String × String)) := do
  let found ← names.mapM fun name => do return (← IO.getEnv name).map fun v => (name, v)
  return found.filterMap id

/-- Runs the program on the machine. -/
def run (argv : List String) : IO Outcome := do
  let here ← IO.currentDir
  let home : Environment := ⟨← bindings ["HOME"]⟩
  let file := Path.ofString (Settings.filePath home)
  let disk : Disk := { root := .folder [], current := (Path.ofString here.toString).parts }
  let disk ← look (← lookAlong disk [] disk.current) file
  let saved := ((disk.readText file).toOption.bind (Settings.decode? home)).map (·.storePath)
  let environment : Environment :=
    ⟨home.bindings ++ (← bindings ((Environment.namesIn (saved.getD "").toList).filter (· != "")))⟩
  let args := (Arguments.parse argv).toOption
  let store := (args.bind (·.store)).getD
    (environment.expand (saved.getD (Settings.defaultStorePath environment)))
  let disk ← look disk (.ofString store)
  let disk ← look disk ((Path.ofString store).sibling ".tmp")
  let input ← if (args.map Arguments.readsInput).getD false then
      (← IO.getStdin).readBinToEnd
    else pure .empty
  let freshKey := Key.ofRandom (← IO.getRandomBytes 16).data.toList
  let outcome := Program.run { environment, disk, input := input.data.toList, freshKey } argv
  writeBack disk outcome.disk
  return outcome

end InlineMarkup.Machine

/-- The command line program. -/
def main (argv : List String) : IO UInt32 := do
  let outcome ← InlineMarkup.Machine.run argv
  for w in outcome.warnings do
    IO.eprintln ("warning: " ++ w.message)
  IO.print outcome.stdout
  IO.eprint outcome.stderr
  return outcome.code.toUInt32
