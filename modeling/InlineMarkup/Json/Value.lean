import InlineMarkup.Text.Ascii

/-!
# JSON values and their written forms

The values that records are written as: flags, texts and objects. Objects keep the order of their
members. `Value.compact` writes a value on one line, `Value.pretty` with one member a line.
-/

namespace InlineMarkup.Json

/-- A value as it is written. -/
inductive Value where
  | flag (b : Bool)
  | text (s : String)
  | object (members : List (String × Value))
deriving Repr

/-- A character between the quotes of a written text. -/
def escapeChar (c : Char) : List Char :=
  if c = '"' then ['\\', '"']
  else if c = '\\' then ['\\', '\\']
  else if c = '\x08' then ['\\', 'b']
  else if c = '\x0c' then ['\\', 'f']
  else if c = '\n' then ['\\', 'n']
  else if c = '\r' then ['\\', 'r']
  else if c = '\t' then ['\\', 't']
  else if c < ' ' then '\\' :: 'u' :: Ascii.hex4 c.toNat
  else [c]

/-- A text in quotes. -/
def quote (s : String) : List Char :=
  '"' :: s.toList.flatMap escapeChar ++ ['"']

namespace Value

/-- The words for flags. -/
def ofFlag (b : Bool) : List Char :=
  if b then "true".toList else "false".toList

mutual

/-- A value without blanks. -/
def compactChars : Value → List Char
  | flag b => ofFlag b
  | text s => quote s
  | object [] => ['\x7b', '\x7d']
  | object (m :: ms) => '\x7b' :: compactMember m ++ compactRest ms

/-- A name and a value without blanks. -/
def compactMember : String × Value → List Char
  | (name, v) => quote name ++ ':' :: compactChars v

/-- The members of an object after the first, and its end. -/
def compactRest : List (String × Value) → List Char
  | [] => ['\x7d']
  | m :: ms => ',' :: compactMember m ++ compactRest ms

end

/-- A line break and the blanks that begin a line at the given depth. -/
def newline (depth : Nat) : List Char :=
  '\n' :: List.replicate (2 * depth) ' '

mutual

/-- A value with one member a line, inside `depth` objects. -/
def prettyChars (depth : Nat) : Value → List Char
  | flag b => ofFlag b
  | text s => quote s
  | object [] => ['\x7b', '\x7d']
  | object (m :: ms) =>
    '\x7b' :: newline (depth + 1) ++ prettyMember (depth + 1) m ++ prettyRest depth ms

/-- A name and a value on a line of their own. -/
def prettyMember (depth : Nat) : String × Value → List Char
  | (name, v) => quote name ++ ':' :: ' ' :: prettyChars depth v

/-- The members of an object at `depth` after the first, and its end. -/
def prettyRest (depth : Nat) : List (String × Value) → List Char
  | [] => newline depth ++ ['\x7d']
  | m :: ms => ',' :: newline (depth + 1) ++ prettyMember (depth + 1) m ++ prettyRest depth ms

end

/-- A value on one line. -/
def compact (v : Value) : String :=
  String.ofList v.compactChars

/-- A value with one member a line. -/
def pretty (v : Value) : String :=
  String.ofList (v.prettyChars 0)

end Value

end InlineMarkup.Json
