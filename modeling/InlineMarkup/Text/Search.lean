import InlineMarkup.Text.Utf8

/-!
# Searching bytes

`Bytes.find?` is the leftmost occurrence of a pattern. The empty pattern occurs everywhere, first
of all at the start. A `Cursor` is a place in a text from which such a search begins; it may stand
past the end, where only the empty pattern is found.
-/

namespace InlineMarkup

namespace Bytes

/-- The offset of the leftmost occurrence of `pattern`, counted from `offset`. -/
def findFrom? (pattern : Bytes) : Nat → Bytes → Option Nat
  | offset, [] => if pattern.isEmpty then some offset else none
  | offset, b :: rest =>
    if pattern.isPrefixOf (b :: rest) then some offset else findFrom? pattern (offset + 1) rest

/-- The offset of the leftmost occurrence of `pattern` in `text`. -/
def find? (pattern text : Bytes) : Option Nat :=
  findFrom? pattern 0 text

theorem find?_nil_left (text : Bytes) : find? [] text = some 0 := by
  cases text <;> simp [find?, findFrom?]

theorem findFrom?_add (pattern text : Bytes) (m n : Nat) :
    findFrom? pattern (m + n) text = (findFrom? pattern m text).map (· + n) := by
  induction text generalizing m with
  | nil => by_cases h : pattern.isEmpty <;> simp [findFrom?, h]
  | cons b rest ih =>
    by_cases h : pattern.isPrefixOf (b :: rest)
    · simp [findFrom?, h]
    · simp only [findFrom?, h]
      rw [show m + n + 1 = m + 1 + n by omega, ih (m + 1)]
      simp

end Bytes

/-- A place in a text, as an offset in bytes. -/
structure Cursor where
  text : Bytes
  offset : Nat := 0
deriving Repr, DecidableEq

namespace Cursor

/-- The start of a text. -/
def start (text : Bytes) : Cursor := ⟨text, 0⟩

/-- `n` bytes on, which may be past the end. -/
def advance (c : Cursor) (n : Nat) : Cursor :=
  { c with offset := c.offset + n }

/-- The offset in the whole text of the next occurrence of `pattern`; a cursor past the end
stands for the end. -/
def find? (c : Cursor) (pattern : Bytes) : Option Nat :=
  let origin := min c.offset c.text.length
  (Bytes.find? pattern (c.text.drop origin)).map (origin + ·)

end Cursor

end InlineMarkup
