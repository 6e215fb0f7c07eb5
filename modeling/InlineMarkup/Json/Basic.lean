/-!
# Reading JSON

What all reading of JSON rests on: the faults of a text that cannot be read, where the first problem
from left to right decides, and the blanks and words between values.
-/

namespace InlineMarkup.Json

/-- Why a text cannot be read. -/
inductive Fault where
  /-- The text is not well formed. -/
  | malformed
  /-- The text is well formed up to a value that is not of the wanted shape. -/
  | mismatch
  /-- The text ends too early. -/
  | truncated
deriving DecidableEq, Repr

/-- The message for a fault. -/
def Fault.message : Fault → String
  | malformed => "the text is not well-formed JSON"
  | mismatch => "the JSON value is not of the expected shape"
  | truncated => "the JSON text ends too early"

/-- The blanks that may stand between tokens. -/
def isSpace (c : Char) : Bool :=
  c == ' ' || c == '\n' || c == '\t' || c == '\r'

/-- A text without the blanks at its start. -/
def skipSpace (s : List Char) : List Char :=
  s.dropWhile isSpace

/-- Reads what is left of a word whose first character was recognised. -/
def readWord : (word : List Char) → List Char → Except Fault (List Char)
  | [], s => .ok s
  | _ :: _, [] => .error .truncated
  | w :: word, c :: s => if w = c then readWord word s else .error .malformed

theorem readWord_append (word s : List Char) : readWord word (word ++ s) = .ok s := by
  induction word with
  | nil => rfl
  | cons w word ih => simp [readWord, ih]

theorem skipSpace_of_not_isSpace {c : Char} {s : List Char} (h : isSpace c = false) :
    skipSpace (c :: s) = c :: s := by
  simp [skipSpace, h]

end InlineMarkup.Json
