/-!
# ASCII letters, digits and marks

Delimiters, colors and effect names are made of ASCII characters. Letter case is folded for ASCII
letters only: every other character is equal to itself alone.
-/

namespace InlineMarkup.Ascii

/-- A character that leaves a mark when printed: `!` to `~`. -/
def isGraphic (c : Char) : Bool :=
  decide ('!' ≤ c) && decide (c ≤ '~')

/-- A text with its ASCII capitals replaced by small letters. -/
def lower (s : String) : String :=
  String.ofList (s.toList.map Char.toLower)

/-- Equality of texts up to the case of ASCII letters. -/
def eqIgnoringCase (s t : String) : Bool :=
  lower s == lower t

/-- The value of a hexadecimal digit of either case. -/
def hexDigit? (c : Char) : Option Nat :=
  if '0' ≤ c ∧ c ≤ '9' then some (c.toNat - 48)
  else if 'a' ≤ c ∧ c ≤ 'f' then some (c.toNat - 87)
  else if 'A' ≤ c ∧ c ≤ 'F' then some (c.toNat - 55)
  else none

/-- A hexadecimal digit of either case. -/
def isHexDigit (c : Char) : Bool :=
  (hexDigit? c).isSome

/-- The value of hexadecimal digits, the first the most significant. -/
def hexValue? (digits : List Char) : Option Nat :=
  digits.foldlM (fun value c => (hexDigit? c).map (16 * value + ·)) 0

/-- The digit `n < 16` in small letters. -/
def hexDigit (n : Nat) : Char :=
  Nat.digitChar n

/-- `n` in base sixteen, without leading zeros. -/
def hex (n : Nat) : List Char :=
  Nat.toDigits 16 n

/-- `n` in base sixteen, filled with zeros to four digits. -/
def hex4 (n : Nat) : List Char :=
  [hexDigit (n / 4096 % 16), hexDigit (n / 256 % 16), hexDigit (n / 16 % 16), hexDigit (n % 16)]

theorem hexDigit?_hexDigit {n : Nat} (h : n < 16) : hexDigit? (hexDigit n) = some n := by
  have : ∀ n < 16, hexDigit? (hexDigit n) = some n := by decide
  exact this n h

/-- Four digits stand for a number if each stands for a digit of the number. -/
theorem hexValue?_eq_some {n : Nat} (small : n < 65536) {a b c d : Char}
    (first : hexDigit? a = some (n / 4096 % 16)) (second : hexDigit? b = some (n / 256 % 16))
    (third : hexDigit? c = some (n / 16 % 16)) (fourth : hexDigit? d = some (n % 16)) :
    hexValue? [a, b, c, d] = some n := by
  have sum : 16 * (16 * (16 * (n / 4096 % 16) + n / 256 % 16) + n / 16 % 16) + n % 16 = n := by
    omega
  simp [hexValue?, first, second, third, fourth, sum]

/-- Four capital digits stand for the number that they were written for. -/
theorem hexValue?_map_toUpper_hex4 {n : Nat} (small : n < 65536) :
    hexValue? ((hex4 n).map Char.toUpper) = some n := by
  have capital : ∀ n < 16, hexDigit? (hexDigit n).toUpper = some n := by decide
  have digit (k : Nat) : hexDigit? (hexDigit (k % 16)).toUpper = some (k % 16) :=
    capital (k % 16) (Nat.mod_lt k (by decide))
  exact hexValue?_eq_some small (digit _) (digit _) (digit _) (digit _)

theorem toLower_toLower (c : Char) : c.toLower.toLower = c.toLower := by
  unfold Char.toLower
  split
  · rename_i h
    split
    · rename_i h'
      exfalso
      have lo := h.1
      have hi := h.2
      have hi' := h'.2
      simp [UInt32.le_iff_toNat_le] at lo hi hi'
      omega
    · rfl
  · simp

theorem lower_lower (s : String) : lower (lower s) = lower s := by
  simp only [lower, String.toList_ofList, List.map_map, Function.comp_def, toLower_toLower]

end InlineMarkup.Ascii
