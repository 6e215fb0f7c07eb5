import InlineMarkup.Text.Ascii
import InlineMarkup.Text.Utf8

/-!
# Keys of new conventions

A new convention gets a key made from sixteen random bytes, of which six bits are fixed: those that
mark a random identifier among universally unique ones.
-/

namespace InlineMarkup.Key

/-- The bytes with the version in the seventh and the variant in the ninth. -/
def mark (random : Bytes) : Bytes :=
  (random.modify 6 fun b => b % 16 + 0x40).modify 8 fun b => b % 64 + 0x80

/-- The two digits of a byte. -/
def hexByte (b : UInt8) : List Char :=
  [Ascii.hexDigit (b.toNat / 16), Ascii.hexDigit (b.toNat % 16)]

/-- The key made from random bytes. -/
def ofRandom (random : Bytes) : String :=
  "custom-" ++ String.ofList ((mark random).flatMap hexByte)

example : ofRandom (List.replicate 16 0xff) = "custom-ffffffffffff4fffbfffffffffffffff" := by
  decide +kernel

end InlineMarkup.Key
