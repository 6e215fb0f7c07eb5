import InlineMarkup.Text.Utf8

/-!
# Paths

A path is what stands between its slashes, and starts at the root of the disk or at the current
folder. The parts `.` and `..` stand for a folder itself and the folder around it. Empty pieces and
most parts `.` lead nowhere; they are kept all the same, because they count for the length of
the path (`Path.size`), and go only where the end of a path is cut off (`Path.parent?`).
-/

namespace InlineMarkup

/-- A path on a disk. -/
structure Path where
  /-- Whether the path starts at the root. -/
  absolute : Bool := false
  /-- What stands between the slashes, after the one that stands for the root. -/
  pieces : List String := []
deriving DecidableEq, Repr

namespace Path

/-- The path that a text denotes. -/
def ofString (s : String) : Path :=
  match (s.toList.splitOn '/').map String.ofList with
  | "" :: [] => {}
  | "" :: "" :: [] => { absolute := true }
  | "" :: pieces => { absolute := true, pieces }
  | pieces => { pieces }

/-- The parts that a path leads along. -/
def parts (p : Path) : List String :=
  p.pieces.filter (· != "")

/-- Whether a slash follows the last part. -/
def trailing (p : Path) : Bool :=
  p.pieces.getLast? == some ""

/-- The number of bytes of pieces with slashes between them. -/
def sizeOf : (pieces : List String) → Nat
  | [] => 0
  | [piece] => (Utf8.encode piece).length
  | piece :: pieces => (Utf8.encode piece).length + 1 + sizeOf pieces

/-- The number of bytes of the text of a path. -/
def size (p : Path) : Nat :=
  (if p.absolute then 1 else 0) + sizeOf p.pieces

/-- A part that names no entry of a folder. -/
def isDots (part : String) : Bool :=
  part == "." || part == ".."

/-- The path that denotes nothing. -/
def isEmpty (p : Path) : Bool :=
  !p.absolute && p.parts.isEmpty

/-- Whether a piece leads nowhere from the pieces before it. A `.` at the start of a path from the
current folder is a part like any other. -/
def isIdle (absolute : Bool) (piece : String) (before : List String) : Bool :=
  piece == "" || (piece == "." && (absolute || !before.isEmpty))

/-- Pieces, from the last to the first, without those at the end that lead nowhere. -/
def trim (absolute : Bool) : (reversed : List String) → List String
  | [] => []
  | piece :: before =>
    if isIdle absolute piece before then trim absolute before else piece :: before

/-- The pieces of a path from the last one that leads anywhere to the first. -/
def reversed (p : Path) : List String :=
  trim p.absolute p.pieces.reverse

/-- The parts without those that stand for the folder just reached; one at the start of a path
from the current folder is kept. -/
def plainParts (p : Path) : List String :=
  match p.absolute, p.parts with
  | false, part :: rest => part :: rest.filter (· != ".")
  | _, parts => parts.filter (· != ".")

/-- The name of the entry that a path denotes. -/
def fileName? (p : Path) : Option String :=
  match p.reversed with
  | [] => none
  | part :: _ => if isDots part then none else some part

/-- The path of the folder around. -/
def parent? (p : Path) : Option Path :=
  match p.reversed with
  | [] => none
  | _ :: before => some { absolute := p.absolute, pieces := (trim p.absolute before).reverse }

/-- The path of an entry of the folder that a path denotes. -/
def entry (p : Path) (name : String) : Path :=
  { p with pieces := (if p.trailing then p.pieces.dropLast else p.pieces) ++ [name] }

/-- The path of the entry beside that of `p` whose name is longer by `suffix`. A path that names
no entry stands for a folder, and `suffix` for an entry of it. -/
def sibling (p : Path) (suffix : String) : Path :=
  match p.fileName?, p.parent? with
  | some name, some folder => folder.entry (name ++ suffix)
  | _, _ => p.entry suffix

example : (ofString "a//b.json").sibling ".tmp" = ofString "a/b.json.tmp" := by decide +kernel
example : (ofString "./a//.//b/.//").parent? = some (ofString "./a") := by decide +kernel
example : (ofString "../").sibling ".tmp" = ofString "../.tmp" := by decide +kernel
example : (ofString "/").fileName? = none := by decide +kernel
example : (ofString "//a.json").parent? = some (ofString "/") := by decide +kernel
example : (ofString "a.json").parent? = some {} := by decide +kernel
example : (ofString "a//é/").size = 6 := by decide +kernel

end Path

end InlineMarkup
