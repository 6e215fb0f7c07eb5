import InlineMarkup.Disk.Node
import InlineMarkup.Disk.Path

/-!
# Disks

A disk is a tree of files and folders together with the current folder, where paths that are not
absolute start. Each operation either fails and leaves the disk as it is, or gives the disk
afterwards. Only `Disk.makeFolders` takes several steps, and keeps the folders it made before a
step failed.

There are files and folders only: links and permissions are outside the model, and so are faults
that no state of the files and folders explains, such as a disk that is full.
-/

namespace InlineMarkup

/-- Files and folders, and the folder where relative paths start. -/
structure Disk where
  root : Node
  current : List String
deriving Repr

namespace Disk

/-- Why an operation failed. -/
inductive Fault where
  | notFound
  | alreadyExists
  | notFolder
  | isFolder
  | busy
  | nameTooLong
  | notText
  | nulInPath
deriving DecidableEq, Repr

/-- The message for a fault. -/
def Fault.message : Fault → String
  | notFound => "No such file or directory (os error 2)"
  | busy => "Device or resource busy (os error 16)"
  | alreadyExists => "File exists (os error 17)"
  | notFolder => "Not a directory (os error 20)"
  | isFolder => "Is a directory (os error 21)"
  | nameTooLong => "File name too long (os error 36)"
  | notText => "stream did not contain valid UTF-8"
  | nulInPath => "file name contained an unexpected NUL byte"

/-- The most bytes of the name of an entry. -/
def maxNameSize : Nat := 255

/-- The most bytes of a path. -/
def maxPathSize : Nat := 4095

/-- A name that no entry can have. -/
def isTooLong (name : String) : Bool :=
  decide (maxNameSize < (Utf8.encode name).length)

/-- The node at a place. -/
def node? (d : Disk) (names : List String) : Option Node :=
  d.root.find? names

/-- Where a path starts. -/
def origin (d : Disk) (p : Path) : List String :=
  if p.absolute then [] else d.current

/-- The place that is reached from `here` along the parts of a path. -/
def walk (d : Disk) : (here parts : List String) → Except Fault (List String)
  | here, [] => .ok here
  | here, part :: rest =>
    match d.node? here with
    | none => .error .notFound
    | some (.file _) => .error .notFolder
    | some (.folder entries) =>
      if part = "." then walk d here rest
      else if part = ".." then walk d here.dropLast rest
      else if isTooLong part then .error .nameTooLong
      else if (entries.lookup part).isNone then .error .notFound
      else walk d (here ++ [part]) rest

/-- Refuses a path that the disk cannot look up at all. -/
def checkPath (p : Path) : Except Fault Unit :=
  if p.parts.any (·.toList.contains '\x00') then .error .nulInPath
  else if p.isEmpty then .error .notFound
  else if maxPathSize < p.size then .error .nameTooLong
  else .ok ()

/-- The node that a path denotes. -/
def resolve (d : Disk) (p : Path) : Except Fault Node := do
  checkPath p
  let names ← d.walk (d.origin p) p.parts
  match d.node? names with
  | none => .error .notFound
  | some (.file content) => if p.trailing then .error .notFolder else .ok (.file content)
  | some (.folder entries) => .ok (.folder entries)

/-- Whether a path denotes a node. -/
def isPresent (d : Disk) (p : Path) : Bool :=
  (d.resolve p).isOk

/-- Whether a path denotes a folder. -/
def isFolderAt (d : Disk) (p : Path) : Bool :=
  match d.resolve p with
  | .ok n => n.isFolder
  | .error _ => false

/-- The bytes of the file that a path denotes. -/
def read (d : Disk) (p : Path) : Except Fault Bytes :=
  match d.resolve p with
  | .error fault => .error fault
  | .ok (.folder _) => .error .isFolder
  | .ok (.file content) => .ok content

/-- The text of the file that a path denotes. -/
def readText (d : Disk) (p : Path) : Except Fault String := do
  let content ← d.read p
  match Utf8.decode? content with
  | some s => .ok s
  | none => .error .notText

/-- The entry that a path denotes, whether or not it is there. -/
inductive Target where
  /-- An entry of the folder at a place, with its name. -/
  | entry (folder : List String) (name : String)
  /-- A folder that is not reached by its name. -/
  | unnamed

/-- The entry that a path denotes; the folder of the entry must be there. -/
def target (d : Disk) (p : Path) : Except Fault Target := do
  checkPath p
  match p.parts.getLast? with
  | none => .ok .unnamed
  | some part =>
    let here ← d.walk (d.origin p) p.parts.dropLast
    match d.node? here with
    | none => .error .notFound
    | some (.file _) => .error .notFolder
    | some (.folder _) =>
      if Path.isDots part then .ok .unnamed else .ok (.entry here part)

/-- The place of an entry of a folder. -/
def place (folder : List String) (name : String) : Except Fault (List String) :=
  if isTooLong name then .error .nameTooLong else .ok (folder ++ [name])

/-- The disk with `n` at a place. -/
def put (d : Disk) (names : List String) (n : Node) : Disk :=
  { d with root := Node.put n names d.root }

/-- The disk with only these files, each given with its path from the current folder. -/
def ofFiles (current : List String) (files : List (String × Bytes)) : Disk :=
  files.foldl (fun d file => d.put (current ++ (Path.ofString file.1).plainParts) (.file file.2))
    { root := Node.put (.folder []) current (.folder []), current }

/-- Makes a folder. -/
def makeFolder (d : Disk) (p : Path) : Except Fault Disk := do
  match ← d.target p with
  | .unnamed => .error .alreadyExists
  | .entry folder name =>
    let names ← place folder name
    if (d.node? names).isSome then .error .alreadyExists else .ok (d.put names (.folder []))

/-- Writes a file, over one that is there. A path with a slash at its end denotes no file, whatever
its name. -/
def write (d : Disk) (p : Path) (content : Bytes) : Except Fault Disk := do
  match ← d.target p with
  | .unnamed => .error .isFolder
  | .entry folder name =>
    if p.trailing then .error .isFolder
    else
      let names ← place folder name
      match d.node? names with
      | some (.folder _) => .error .isFolder
      | _ => .ok (d.put names (.file content))

/-- Moves a file, over one that is there. -/
def rename (d : Disk) (old new : Path) : Except Fault Disk := do
  match ← d.target old, ← d.target new with
  | .entry oldFolder oldName, .entry newFolder newName =>
    let source ← place oldFolder oldName
    let goal ← place newFolder newName
    match d.node? source with
    | none => .error .notFound
    | some (.folder _) => .error .isFolder
    | some (.file content) =>
      if new.trailing then .error .notFolder
      else match d.node? goal with
        | some (.folder _) => .error .isFolder
        | _ => .ok { d with root := Node.put (.file content) goal (Node.remove source d.root) }
  | _, _ => .error .busy

/-- Makes a folder and, where one is missing, the folders around it. The pieces of the path are
given from the last to the first; those that lead nowhere are passed over. -/
def makeFoldersAt (absolute : Bool) : (reversed : List String) → Disk → Except Fault Unit × Disk
  | [], d =>
    let p : Path := { absolute }
    if p.isEmpty ∨ d.isFolderAt p then (.ok (), d) else (.error .notFound, d)
  | piece :: before, d =>
    if Path.isIdle absolute piece before then makeFoldersAt absolute before d
    else
      let p : Path := { absolute, pieces := (piece :: before).reverse }
      match d.makeFolder p with
      | .ok d => (.ok (), d)
      | .error .notFound =>
        match makeFoldersAt absolute before d with
        | (.error fault, d) => (.error fault, d)
        | (.ok (), d) =>
          match d.makeFolder p with
          | .ok d => (.ok (), d)
          | .error fault => if d.isFolderAt p then (.ok (), d) else (.error fault, d)
      | .error fault => if d.isFolderAt p then (.ok (), d) else (.error fault, d)

/-- Makes a folder and, where one is missing, the folders around it. -/
def makeFolders (d : Disk) (p : Path) : Except Fault Unit × Disk :=
  makeFoldersAt p.absolute p.pieces.reverse d

/-- The files under a place, with the names that lead to them from there. -/
def filesUnder (d : Disk) (names : List String) : List (List String × Bytes) :=
  match d.node? names with
  | some (.folder entries) => Node.filesIn entries
  | _ => []

end Disk

end InlineMarkup
