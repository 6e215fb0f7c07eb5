import InlineMarkup.Text.Alphanumeric

/-!
# Paths with variables

A path in the settings may begin with `~`, for the home folder, and may name variables of the
environment: `$NAME`, `${NAME}`, and `${NAME:-text}` with a text for a variable that is not set.
Two dollar signs stand for one. A variable that is not set and has no such text makes the
expansion fail.
-/

namespace InlineMarkup

/-- Variables and their values. -/
structure Environment where
  bindings : List (String × String) := []
deriving Repr

namespace Environment

/-- The line `name=value` of a variable. -/
def line (name value : String) : List Char :=
  name.toList ++ '=' :: value.toList

/-- The value of a variable: what follows the name and `=` in the first line that begins so. A
name may thus reach into a value: `A=B` stands for `C` where `A` is bound to `B=C`. -/
def get? (env : Environment) (name : String) : Option String :=
  env.bindings.findSome? fun (n, v) =>
    ((line name "").isPrefixOf? (line n v)).map String.ofList

/-- The home folder: the value of `HOME`, as it stands. Where `HOME` is empty or not set, a system
may know the home folder from its list of users; that is outside the model. -/
def home? (env : Environment) : Option String :=
  env.get? "HOME"

/-- A character of the name of a variable. -/
def isNameChar (c : Char) : Bool :=
  Text.isAlphanumeric c || c == '_'

/-- Splits the inside of braces at the first `:-` that a name comes before. -/
def splitDefault (body : List Char) : List Char × Option (List Char) :=
  let rec go (seen : List Char) : List Char → List Char × Option (List Char)
    | ':' :: '-' :: rest =>
      if seen.isEmpty then (body, none) else (seen.reverse, some rest)
    | c :: rest => go (c :: seen) rest
    | [] => (body, none)
  go [] body

/-- The name after a dollar sign, given the text after it. -/
def nameAt (s : List Char) : List Char :=
  match s with
  | '\x7b' :: inner => (splitDefault (inner.takeWhile (· != '\x7d'))).1
  | _ => s.takeWhile isNameChar

/-- The variables whose values a text may need. -/
def namesIn : List Char → List String
  | [] => []
  | c :: rest =>
    if c = '$' then String.ofList ((nameAt rest).takeWhile (· != '=')) :: namesIn rest
    else namesIn rest

/-- What a dollar sign stands for, given the text after it, and how much of that text belongs to
it. -/
def expandReference (env : Environment) (s : List Char) : Option (List Char × Nat) :=
  match s with
  | '\x7b' :: inner =>
    let body := inner.takeWhile (· != '\x7d')
    if body.length = inner.length then some (['$', '\x7b'], 1)
    else
      let (name, fallback) := splitDefault body
      match env.get? (String.ofList name), fallback with
      | some v, _ => some (v.toList, body.length + 2)
      | none, some text => some (text, body.length + 2)
      | none, none => none
  | '$' :: _ => some (['$'], 1)
  | _ =>
    let name := s.takeWhile isNameChar
    if name.isEmpty then some (['$'], 0)
    else (env.get? (String.ofList name)).map fun v => (v.toList, name.length)

/-- Replaces the references in a text, where the first `used` characters belong to one that was
replaced already. -/
def expandFrom (env : Environment) : (used : Nat) → List Char → Option (List Char)
  | _, [] => some []
  | used + 1, _ :: rest => expandFrom env used rest
  | 0, c :: rest =>
    if c = '$' then do
      let (v, used) ← env.expandReference rest
      return v ++ (← expandFrom env used rest)
    else do
      return c :: (← expandFrom env 0 rest)

/-- Replaces a `~` that stands for the whole first part of a path. -/
def expandHome (env : Environment) (s : List Char) : List Char :=
  match s, env.home? with
  | ['~'], some home => home.toList
  | '~' :: '/' :: rest, some home => home.toList ++ '/' :: rest
  | s, _ => s

/-- A path with its variables and its home folder put in. A `~` that comes out of a variable stands
for itself. -/
def expand? (env : Environment) (s : String) : Option String :=
  (env.expandFrom 0 s.toList).map fun expanded =>
    if s.toList.head? ≠ some '~' ∧ expanded.head? = some '~' then String.ofList expanded
    else String.ofList (env.expandHome expanded)

/-- A path with its variables put in, or as it stands if one is not set. -/
def expand (env : Environment) (s : String) : String :=
  (env.expand? s).getD s

end Environment

end InlineMarkup
