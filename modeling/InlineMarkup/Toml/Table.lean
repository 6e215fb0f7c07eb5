import InlineMarkup.Entries

/-!
# TOML tables

A table is built up statement by statement. A header opens a table, and an assignment gives a value
to a key of the open table, where a path of keys leads through tables that assignments made. No
key is given twice, and only tables that no header opened yet can be opened.
-/

namespace InlineMarkup.Toml

/-- How a table came about. -/
inductive Origin where
  /-- A header below it made it. -/
  | implied
  /-- A header opened it. -/
  | opened
  /-- An assignment with a path made it. -/
  | dotted
deriving DecidableEq, Repr

/-- What a key stands for. -/
inductive Item where
  | text (s : String)
  /-- A number, a flag, a date or a time. -/
  | scalar
  /-- An array written as a value. -/
  | array
  /-- A table written as a value, which nothing can be added to. -/
  | closed
  | table (origin : Origin) (entries : List (String × Item))
  /-- Tables of one name, each opened by a header. -/
  | tables (elements : List (List (String × Item)))
deriving Repr

/-- The keys of a table with what they stand for. -/
abbrev Table := List (String × Item)

/-- Gives a value to `key` in the table at the end of a path. The tables on the way are made if they
are missing; one that a header opened is out of bounds, and the last one must be made by an
assignment. -/
def assign (key : String) (v : Item) : (path : List String) → Table → Option Table
  | [], t => if (t.lookup key).isSome then none else some (t ++ [(key, v)])
  | name :: path, t =>
    match t.lookup name with
    | none => do
      let inner ← assign key v path []
      return t ++ [(name, .table .dotted inner)]
    | some (.table .dotted entries) => do
      let inner ← assign key v path entries
      return Entries.put name (.table .dotted inner) t
    | some (.table .implied entries) =>
      if path.isEmpty then none
      else do
        let inner ← assign key v path entries
        return Entries.put name (.table .implied inner) t
    | some (.tables elements) =>
      if path.isEmpty then none
      else do
        let inner ← assign key v path (elements.getLast?.getD [])
        return Entries.put name (.tables (elements.dropLast ++ [inner])) t
    | some _ => none

/-- Opens the table of a header, or one more table of that name if `repeated`. -/
def openTable (repeated : Bool) (key : String) : (path : List String) → Table → Option Table
  | [], t =>
    match t.lookup key with
    | none => some (t ++ [(key, if repeated then .tables [[]] else .table .opened [])])
    | some (.table .implied entries) =>
      if repeated then none else some (Entries.put key (.table .opened entries) t)
    | some (.tables elements) =>
      if repeated then some (Entries.put key (.tables (elements ++ [[]])) t) else none
    | some _ => none
  | name :: path, t =>
    match t.lookup name with
    | none => do
      let inner ← openTable repeated key path []
      return t ++ [(name, .table .implied inner)]
    | some (.table origin entries) => do
      let inner ← openTable repeated key path entries
      return Entries.put name (.table origin inner) t
    | some (.tables elements) => do
      let inner ← openTable repeated key path (elements.getLast?.getD [])
      return Entries.put name (.tables (elements.dropLast ++ [inner])) t
    | some _ => none

/-- Changes the table that headers lead to. -/
def modifyAt (f : Table → Option Table) : (names : List String) → Table → Option Table
  | [], t => f t
  | name :: names, t =>
    match t.lookup name with
    | some (.table origin entries) => do
      let inner ← modifyAt f names entries
      return Entries.put name (.table origin inner) t
    | some (.tables elements) => do
      let inner ← modifyAt f names (elements.getLast?.getD [])
      return Entries.put name (.tables (elements.dropLast ++ [inner])) t
    | _ => none

/-- A table under construction, with the names that lead to the open table. -/
structure Document where
  root : Table := []
  opened : List String := []

/-- One line of a document. -/
inductive Statement where
  | assign (path : List String) (key : String) (v : Item)
  | header (repeated : Bool) (path : List String) (key : String)

/-- A document with one more statement. -/
def Document.add (d : Document) : Statement → Option Document
  | .assign path key v => do
    let root ← modifyAt (Toml.assign key v path) d.opened d.root
    return { d with root }
  | .header repeated path key => do
    let root ← openTable repeated key path d.root
    return { root, opened := path ++ [key] }

end InlineMarkup.Toml
