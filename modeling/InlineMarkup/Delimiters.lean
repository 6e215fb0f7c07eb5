import InlineMarkup.Text.Ascii

/-!
# Delimiters

An opening and a closing token bound a styled span. Authors type one short sequence, from which
both tokens follow (`Delimiters.detect?`): `!` gives `!…!`, `,.` gives `,.….,` and the longer
sequences are cut in the middle.
-/

namespace InlineMarkup

/-- The tokens that bound a styled span. -/
structure Delimiters where
  opening : String
  closing : String
deriving DecidableEq, Repr

namespace Delimiters

/-- The most characters a token may have. -/
def maxLength : Nat := 4

/-- One to four graphic ASCII characters. -/
def isToken (s : String) : Bool :=
  !s.toList.isEmpty && decide (s.toList.length ≤ maxLength) && s.toList.all Ascii.isGraphic

/-- Both tokens are well formed. -/
def isValid (d : Delimiters) : Bool :=
  isToken d.opening && isToken d.closing

/-- The pair as shown to an author. -/
def display (d : Delimiters) : String :=
  d.opening ++ "…" ++ d.closing

/-- The pair enclosing `content`. -/
def enclose (d : Delimiters) (content : String) : String :=
  d.opening ++ content ++ d.closing

/-- The tokens derived from a typed sequence. Up to two characters open a span and close it in
reverse; of three or four, the first half (the shorter one of three) opens and the rest, reversed,
closes. -/
def ofTyped : List Char → Delimiters
  | [a, b, c] => ⟨String.ofList [a], String.ofList [c, b]⟩
  | [a, b, c, d] => ⟨String.ofList [a, b], String.ofList [d, c]⟩
  | typed => ⟨String.ofList typed, String.ofList typed.reverse⟩

/-- The pair for the sequence an author typed, if it is one to four graphic ASCII characters. -/
def detect? (typed : String) : Option Delimiters :=
  if isToken typed then some (ofTyped typed.toList) else none

theorem isToken_iff {s : String} :
    isToken s ↔ s.toList ≠ [] ∧ s.toList.length ≤ maxLength ∧
      ∀ c ∈ s.toList, Ascii.isGraphic c := by
  simp [isToken, and_assoc]

theorem detect?_isSome_iff {typed : String} : (detect? typed).isSome ↔ isToken typed := by
  unfold detect?
  split <;> simp_all

example : detect? "<<>" = some ⟨"<", "><"⟩ := by decide
example : detect? "ab~~~" = none := by decide

end Delimiters

end InlineMarkup
