import InlineMarkup.Entries
import InlineMarkup.Text.Utf8

/-!
# Trees of files and folders

A node is a file with its content or a folder with named entries. A place in a tree is the list
of the names that lead to it.
-/

namespace InlineMarkup

/-- A file or a folder. Of several entries with one name the first counts. -/
inductive Node where
  | file (content : Bytes)
  | folder (entries : List (String × Node))
deriving Repr

namespace Node

/-- Whether the node is a folder. -/
def isFolder : Node → Bool
  | file _ => false
  | folder _ => true

/-- The node at a place, given by the names that lead to it. -/
def find? : Node → List String → Option Node
  | n, [] => some n
  | file _, _ :: _ => none
  | folder entries, name :: names =>
    match entries.lookup name with
    | some n => n.find? names
    | none => none

/-- The tree with `new` at a place. Folders that are missing on the way are made; a file on the
way stays as it is. -/
def put (new : Node) : (names : List String) → Node → Node
  | [], _ => new
  | _ :: _, file content => file content
  | name :: names, folder entries =>
    folder (Entries.put name (put new names ((entries.lookup name).getD (folder []))) entries)

/-- The tree without the node at a place. -/
def remove : (names : List String) → Node → Node
  | _, file content => file content
  | [], folder entries => folder entries
  | [name], folder entries => folder (entries.filter (·.1 != name))
  | name :: next :: names, folder entries =>
    match entries.lookup name with
    | some n => folder (Entries.put name (remove (next :: names) n) entries)
    | none => folder entries

mutual

/-- The files of a tree with their places. -/
def files : Node → List (List String × Bytes)
  | file content => [([], content)]
  | folder entries => filesIn entries

/-- The files of the entries of a folder with their places. -/
def filesIn : List (String × Node) → List (List String × Bytes)
  | [] => []
  | (name, n) :: rest => n.files.map (fun f => (name :: f.1, f.2)) ++ filesIn rest

end

theorem find?_cons (entries : List (String × Node)) (name : String) (names : List String) :
    (folder entries).find? (name :: names) = (entries.lookup name).bind (·.find? names) := by
  rw [find?]
  cases entries.lookup name <;> rfl

end Node

end InlineMarkup
