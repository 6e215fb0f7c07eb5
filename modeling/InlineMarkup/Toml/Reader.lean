import InlineMarkup.Toml.Scalar
import InlineMarkup.Toml.Table
import InlineMarkup.Toml.Text

/-!
# Reading TOML

`Toml.read?` gives the table that a text holds, if the text is well formed.
-/

namespace InlineMarkup.Toml

/-- A character of a key without quotes. -/
def isKeyChar (c : Char) : Bool :=
  c.isAlphanum || c == '_' || c == '-'

/-- A text without the blanks at its start. -/
def skipBlanks (s : List Char) : List Char :=
  s.dropWhile fun c => c == ' ' || c == '\t'

/-- A text without the blanks, newlines and comments at its start. -/
def skipTrivia : (inComment : Bool) → List Char → Option (List Char)
  | _, [] => some []
  | _, '\n' :: rest => skipTrivia false rest
  | _, '\r' :: '\n' :: rest => skipTrivia false rest
  | true, c :: rest => if isControl c then none else skipTrivia true rest
  | false, c :: rest =>
    if c = ' ' ∨ c = '\t' then skipTrivia false rest
    else if c = '#' then skipTrivia true rest
    else some (c :: rest)

/-- Reads one key of a path. -/
def readSimpleKey? (s : List Char) : Option (String × List Char) :=
  match s.span isKeyChar with
  | ([], s) => (readLine? s).map fun (key, rest) => (String.ofList key, rest)
  | (key, rest) => some (String.ofList key, rest)

/-- Reads at most `limit` keys with points between them: the path and the last key. -/
def readKeysUpTo : (limit : Nat) → List Char → Option ((List String × String) × List Char)
  | 0, _ => none
  | limit + 1, s => do
    let (key, rest) ← readSimpleKey? (skipBlanks s)
    match skipBlanks rest with
    | '.' :: rest =>
      let ((path, last), rest) ← readKeysUpTo limit rest
      return ((key :: path, last), rest)
    | rest => return (([], key), rest)

/-- The most keys that may stand in a row, and the most brackets that may be open at a time. -/
def maxDepth : Nat := 80

/-- Reads keys with points between them and the blanks around them. -/
def readKeys (s : List Char) : Option ((List String × String) × List Char) :=
  readKeysUpTo maxDepth s

/-- Reads keys and the equals sign after them, all on one line. -/
def readTarget? (s : List Char) : Option ((List String × String) × List Char) :=
  match readKeys s with
  | some (keys, '=' :: rest) => some (keys, skipBlanks rest)
  | _ => none

/-- Reads keys and the equals sign after them inside braces, where newlines and comments may stand
on either side of the sign, but not between the keys. -/
def readMemberTarget? (s : List Char) : Option ((List String × String) × List Char) := do
  let (keys, rest) ← readKeys s
  match ← skipTrivia false rest with
  | '=' :: rest => return (keys, ← skipTrivia false rest)
  | _ => none

mutual

/-- Reads a value in at most `fuel` steps, with at most `depth` brackets open at a time. -/
def readValue : (fuel depth : Nat) → List Char → Option (Item × List Char)
  | 0, _, _ => none
  | fuel + 1, depth, s =>
    match s with
    | '[' :: rest =>
      match depth with
      | 0 => none
      | depth + 1 => (readItems fuel depth true rest).map fun rest => (.array, rest)
    | '\x7b' :: rest =>
      match depth with
      | 0 => none
      | depth + 1 => (readMembers fuel depth true [] rest).map fun rest => (.closed, rest)
    | _ =>
      if s.head? = some '"' ∨ s.head? = some '\'' then
        (readString? s).map fun (t, rest) => (.text (String.ofList t), rest)
      else
        let (word, rest) := readWord s
        if isScalar word then some (.scalar, rest) else none

/-- Reads the rest of an array; `ready` if an item may come next. -/
def readItems : (fuel depth : Nat) → (ready : Bool) → List Char → Option (List Char)
  | 0, _, _, _ => none
  | fuel + 1, depth, ready, s =>
    match skipTrivia false s with
    | none => none
    | some [] => none
    | some (c :: rest) =>
      if c = ']' then some rest
      else if ready then
        match readValue fuel depth (c :: rest) with
        | some (_, rest) => readItems fuel depth false rest
        | none => none
      else if c = ',' then readItems fuel depth true rest
      else none

/-- Reads the rest of a table that is written as a value; `ready` if a member may come next. -/
def readMembers : (fuel depth : Nat) → (ready : Bool) → Table → List Char → Option (List Char)
  | 0, _, _, _, _ => none
  | fuel + 1, depth, ready, t, s =>
    match skipTrivia false s with
    | none => none
    | some [] => none
    | some (c :: rest) =>
      if c = '\x7d' then some rest
      else if ready then
        match readMemberTarget? (c :: rest) with
        | none => none
        | some ((path, key), rest) =>
          match readValue fuel depth rest with
          | none => none
          | some (v, rest) =>
            match assign key v path t with
            | some t => readMembers fuel depth false t rest
            | none => none
      else if c = ',' then readMembers fuel depth true t rest
      else none

end

/-- Reads a statement. -/
def readStatement? (s : List Char) : Option (Statement × List Char) :=
  match s with
  | '[' :: '[' :: rest =>
    match readKeys rest with
    | some ((path, key), ']' :: ']' :: rest) => some (.header true path key, rest)
    | _ => none
  | '[' :: rest =>
    match readKeys rest with
    | some ((path, key), ']' :: rest) => some (.header false path key, rest)
    | _ => none
  | s => do
    let ((path, key), rest) ← readTarget? s
    let (v, rest) ← readValue (2 * rest.length + 2) maxDepth rest
    return (.assign path key v, rest)

/-- Whether a line ends here, with a comment or without. -/
def isLineOver (s : List Char) : Bool :=
  match skipBlanks s with
  | [] => true
  | '\n' :: _ => true
  | '\r' :: '\n' :: _ => true
  | '#' :: _ => true
  | _ => false

/-- Reads the statements of a text in at most `fuel` steps. -/
def readStatements : (fuel : Nat) → Document → List Char → Option Document
  | 0, _, _ => none
  | fuel + 1, d, s =>
    match skipTrivia false s with
    | none => none
    | some [] => some d
    | some s => do
      let (statement, rest) ← readStatement? s
      let d ← d.add statement
      if isLineOver rest then readStatements fuel d rest else none

/-- The table that a text holds. A byte order mark may stand at the start. -/
def read? (s : String) : Option Table :=
  let s := match s.toList with
    | '\uFEFF' :: rest => rest
    | s => s
  (readStatements (s.length + 1) {} s).map (·.root)

end InlineMarkup.Toml
