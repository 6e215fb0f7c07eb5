import InlineMarkup.Text.Ascii
import InlineMarkup.Text.Blank

/-!
# Colors

A convention gives its text a fixed color, leaves the color in scope alone, or takes the keyword
color that the caller chooses for one rendering. A fixed color is `#rgb` or `#rrggbb`, kept in
small letters, so that `Color.parse?` reads back what `Color.display` shows.
-/

namespace InlineMarkup

/-- How a convention picks the color of its text. -/
inductive Color where
  /-- A fixed color. -/
  | literal (hex : String)
  /-- Whatever color is in scope. -/
  | inherit
  /-- The keyword color of the rendering. -/
  | keyword
deriving DecidableEq, Repr

namespace Color

/-- `#rgb` or `#rrggbb`, with digits of either case. -/
def isHex (s : String) : Bool :=
  match s.toList with
  | '#' :: digits => (digits.length == 3 || digits.length == 6) && digits.all Ascii.isHexDigit
  | _ => false

/-- The written form of a color. -/
def display : Color → String
  | literal hex => hex
  | inherit => "inherit"
  | keyword => "keyword"

/-- Reads a color, ignoring blanks around it and letter case. -/
def parse? (s : String) : Option Color :=
  let core := Text.trim s
  if Ascii.eqIgnoringCase core "inherit" then some inherit
  else if Ascii.eqIgnoringCase core "keyword" then some keyword
  else if isHex core then some (literal (Ascii.lower core))
  else none

/-- The keyword color of a rendering that names no usable one. -/
def defaultKeyword : String := "#ff00ff"

/-- The keyword color that a rendering uses. It is written into styles as it stands, so anything
but a plain color is replaced. -/
def resolveKeyword (chosen : String) : String :=
  if isHex chosen then chosen else defaultKeyword

/-- The color a rendering with keyword color `chosen` gives to text, if it sets one. -/
def resolve (chosen : String) : Color → Option String
  | literal hex => some hex
  | inherit => none
  | keyword => some (resolveKeyword chosen)

theorem isHex_resolveKeyword (chosen : String) : isHex (resolveKeyword chosen) := by
  unfold resolveKeyword
  split
  · assumption
  · decide

theorem resolveKeyword_resolveKeyword (chosen : String) :
    resolveKeyword (resolveKeyword chosen) = resolveKeyword chosen := by
  rw [resolveKeyword, if_pos (isHex_resolveKeyword chosen)]

example : parse? " KEYWORD\n" = some keyword := by decide
example : parse? "#0FF" = some (literal "#0ff") := by decide
example : parse? "#ff00" = none := by decide

end Color

/-- A color as a terminal takes it. -/
structure Rgb where
  red : Nat
  green : Nat
  blue : Nat
deriving DecidableEq, Repr

namespace Rgb

/-- A channel from two characters: two digits, or a plus sign and one digit. -/
def channel? (high low : Char) : Option Nat :=
  if high = '+' then Ascii.hexDigit? low else Ascii.hexValue? [high, low]

/-- A channel from one digit, which counts as if it were doubled. -/
def shortChannel? (digit : Char) : Option Nat :=
  (Ascii.hexDigit? digit).map (· * 17)

/-- The channels of `#rgb` and `#rrggbb`. -/
def ofHex? (hex : String) : Option Rgb :=
  match hex.toList with
  | ['#', r, g, b] => return ⟨← shortChannel? r, ← shortChannel? g, ← shortChannel? b⟩
  | ['#', r₁, r₂, g₁, g₂, b₁, b₂] =>
    return ⟨← channel? r₁ r₂, ← channel? g₁ g₂, ← channel? b₁ b₂⟩
  | _ => none

example : ofHex? "#0f8" = some ⟨0, 255, 136⟩ := by decide
example : ofHex? "#00FF88" = some ⟨0, 255, 136⟩ := by decide

end Rgb

end InlineMarkup
