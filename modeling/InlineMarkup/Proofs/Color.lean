import Mathlib.Data.List.TakeWhile
import InlineMarkup.Color

/-!
# Colors read back

A color is written in small letters with no blanks around it, and read in any case and with any
blanks. A color that was read once is read again from its written form (`parse?_display`).
-/

namespace InlineMarkup

namespace Ascii

/-- The characters that are hexadecimal digits. -/
def hexDigits : List Char := "0123456789abcdefABCDEF".toList

theorem le_iff_toNat_le {a b : Char} : a ≤ b ↔ a.toNat ≤ b.toNat := by
  rw [Char.le_def, UInt32.le_iff_toNat_le]
  rfl

theorem toNat_lt_of_isHexDigit {c : Char} (h : isHexDigit c) : c.toNat < 103 := by
  have nine : '9'.toNat = 57 := rfl
  have small : 'f'.toNat = 102 := rfl
  have capital : 'F'.toNat = 70 := rfl
  simp only [isHexDigit, hexDigit?, le_iff_toNat_le, nine, small, capital] at h
  split at h
  · omega
  · split at h
    · omega
    · split at h
      · omega
      · cases h

theorem mem_hexDigits_of_isHexDigit {c : Char} (h : isHexDigit c) : c ∈ hexDigits := by
  have listed : ∀ n < 103, isHexDigit (Char.ofNat n) → Char.ofNat n ∈ hexDigits := by decide
  have here := listed c.toNat (toNat_lt_of_isHexDigit h)
  rw [Char.ofNat_toNat] at here
  exact here h

theorem isHexDigit_toLower {c : Char} (h : isHexDigit c) : isHexDigit c.toLower := by
  have all : hexDigits.all fun digit => isHexDigit digit.toLower := by decide
  exact List.all_eq_true.1 all c (mem_hexDigits_of_isHexDigit h)

theorem isBlank_of_isHexDigit {c : Char} (h : isHexDigit c) : Text.isBlank c = false := by
  have none : ¬ hexDigits.any Text.isBlank := by decide
  rw [Bool.not_eq_true, List.any_eq_false] at none
  exact eq_false_of_ne_true (none c (mem_hexDigits_of_isHexDigit h))

end Ascii

namespace Text

theorem trim_eq_self {s : String} (h : ∀ c ∈ s.toList, isBlank c = false) : trim s = s := by
  have kept {l : List Char} (h : ∀ c ∈ l, isBlank c = false) : l.dropWhile isBlank = l := by
    rw [List.dropWhile_eq_self_iff]
    intro filled
    simp [h]
  have reversed : ∀ c ∈ s.toList.reverse, isBlank c = false := by
    intro c mem
    exact h c (List.mem_reverse.1 mem)
  rw [trim, kept h, kept reversed, List.reverse_reverse, String.ofList_toList]

end Text

namespace Color

theorem isHex_iff {s : String} :
    isHex s ↔ ∃ digits, s.toList = '#' :: digits ∧ (digits.length = 3 ∨ digits.length = 6) ∧
      ∀ c ∈ digits, Ascii.isHexDigit c := by
  unfold isHex
  split
  · rename_i digits eq
    rw [eq]
    simp
  · rename_i other
    constructor
    · intro h
      cases h
    · rintro ⟨digits, eq, -⟩
      exact absurd eq (other digits)

section Hex

variable {s : String} (hex : isHex s)

include hex

theorem trim_of_isHex : Text.trim s = s := by
  obtain ⟨digits, eq, -, all⟩ := isHex_iff.1 hex
  apply Text.trim_eq_self
  rw [eq]
  intro c mem
  rcases List.mem_cons.1 mem with rfl | mem
  · decide
  · exact Ascii.isBlank_of_isHexDigit (all c mem)

theorem isHex_lower : isHex (Ascii.lower s) := by
  obtain ⟨digits, eq, size, all⟩ := isHex_iff.1 hex
  refine isHex_iff.2 ⟨digits.map Char.toLower, ?_, ?_, ?_⟩
  · rw [Ascii.lower, String.toList_ofList, eq]
    rfl
  · rwa [List.length_map]
  · intro c mem
    obtain ⟨digit, read, rfl⟩ := List.mem_map.1 mem
    exact Ascii.isHexDigit_toLower (all digit read)

/-- A fixed color is no word: no word begins with a number sign. -/
theorem not_eqIgnoringCase_of_isHex (word : String)
    (letters : (Ascii.lower word).toList.head? ≠ some '#') :
    Ascii.eqIgnoringCase s word = false := by
  obtain ⟨digits, eq, -⟩ := isHex_iff.1 hex
  apply beq_eq_false_iff_ne.2
  intro same
  rw [← same, Ascii.lower, String.toList_ofList, eq] at letters
  exact letters rfl

theorem parse?_of_isHex : parse? s = some (literal (Ascii.lower s)) := by
  have notInherit := not_eqIgnoringCase_of_isHex hex "inherit" (by decide)
  have notKeyword := not_eqIgnoringCase_of_isHex hex "keyword" (by decide)
  simp [parse?, trim_of_isHex hex, notInherit, notKeyword, hex]

end Hex

/-- A color that was read is read again from its written form. -/
theorem parse?_display {s : String} {c : Color} (h : parse? s = some c) :
    parse? c.display = some c := by
  unfold parse? at h
  dsimp only at h
  split at h
  · cases h
    decide
  · split at h
    · cases h
      decide
    · split at h
      · rename_i hex
        cases h
        rw [display, parse?_of_isHex (isHex_lower hex), Ascii.lower_lower]
      · cases h

/-! ## Fixed colors -/

/-- If the color is a fixed one, it is well formed. -/
def WellFormed : Color → Prop
  | literal hex => isHex hex
  | inherit => True
  | keyword => True

instance : DecidablePred WellFormed
  | .literal hex => inferInstanceAs (Decidable (isHex hex))
  | .inherit => inferInstanceAs (Decidable True)
  | .keyword => inferInstanceAs (Decidable True)

theorem isHex_of_resolve {color : Color} (wellFormed : color.WellFormed)
    {chosen hex : String} (h : color.resolve chosen = some hex) : isHex hex := by
  cases color with
  | literal hex' =>
    cases h
    exact wellFormed
  | inherit => cases h
  | keyword =>
    cases h
    exact isHex_resolveKeyword chosen

/-- What was read is well formed. -/
theorem wellFormed_of_parse? {s : String} {c : Color} (h : parse? s = some c) : c.WellFormed := by
  unfold parse? at h
  dsimp only at h
  split at h
  · cases h
    exact trivial
  · split at h
    · cases h
      exact trivial
    · split at h
      · rename_i hex
        cases h
        exact isHex_lower hex
      · cases h

end Color

/-! ## The channels of a color -/

namespace Ascii

theorem exists_hexDigit?_eq_some {c : Char} (h : isHexDigit c) :
    ∃ n < 16, hexDigit? c = some n := by
  have all : hexDigits.all fun digit => (hexDigit? digit).all (· < 16) := by decide
  have small := List.all_eq_true.1 all c (mem_hexDigits_of_isHexDigit h)
  obtain ⟨n, read⟩ := Option.isSome_iff_exists.1 h
  rw [read] at small
  exact ⟨n, of_decide_eq_true small, read⟩

theorem exists_hexValue?_pair {a b : Char} (ha : isHexDigit a) (hb : isHexDigit b) :
    ∃ n ≤ 255, hexValue? [a, b] = some n := by
  obtain ⟨m, hm, readA⟩ := exists_hexDigit?_eq_some ha
  obtain ⟨n, hn, readB⟩ := exists_hexDigit?_eq_some hb
  exact ⟨16 * m + n, by omega, by simp [hexValue?, readA, readB]⟩

end Ascii

namespace Rgb

/-- Every channel fits one byte. -/
structure InRange (c : Rgb) : Prop where
  red : c.red ≤ 255
  green : c.green ≤ 255
  blue : c.blue ≤ 255

/-- The channels that six digits name, two digits a channel. -/
def ofPairs? : List Char → Option Rgb
  | [r₁, r₂, g₁, g₂, b₁, b₂] =>
    return ⟨← Ascii.hexValue? [r₁, r₂], ← Ascii.hexValue? [g₁, g₂], ← Ascii.hexValue? [b₁, b₂]⟩
  | _ => none

/-- The channels that a color names; every digit of a short color counts twice. -/
def named? (hex : String) : Option Rgb :=
  match hex.toList with
  | ['#', r, g, b] => ofPairs? [r, r, g, g, b, b]
  | '#' :: digits => ofPairs? digits
  | _ => none

theorem channel?_of_isHexDigit {high : Char} (h : Ascii.isHexDigit high) (low : Char) :
    channel? high low = Ascii.hexValue? [high, low] := by
  have digit : high ≠ '+' := by
    rintro rfl
    revert h
    decide
  rw [channel?, if_neg digit]

theorem shortChannel?_of_isHexDigit {digit : Char} (h : Ascii.isHexDigit digit) :
    shortChannel? digit = Ascii.hexValue? [digit, digit] := by
  obtain ⟨n, -, read⟩ := Ascii.exists_hexDigit?_eq_some h
  have doubled : n * 17 = 16 * n + n := by omega
  simp [shortChannel?, Ascii.hexValue?, read, doubled]

theorem exists_ofPairs?_eq_some {digits : List Char} (size : digits.length = 6)
    (all : ∀ c ∈ digits, Ascii.isHexDigit c) : ∃ c : Rgb, c.InRange ∧ ofPairs? digits = some c := by
  match digits, size with
  | [r₁, r₂, g₁, g₂, b₁, b₂], _ =>
    simp only [List.forall_mem_cons] at all
    obtain ⟨hr₁, hr₂, hg₁, hg₂, hb₁, hb₂, -⟩ := all
    obtain ⟨red, redLe, readRed⟩ := Ascii.exists_hexValue?_pair hr₁ hr₂
    obtain ⟨green, greenLe, readGreen⟩ := Ascii.exists_hexValue?_pair hg₁ hg₂
    obtain ⟨blue, blueLe, readBlue⟩ := Ascii.exists_hexValue?_pair hb₁ hb₂
    exact ⟨⟨red, green, blue⟩, ⟨redLe, greenLe, blueLe⟩,
      by simp [ofPairs?, readRed, readGreen, readBlue]⟩

/-- A terminal takes a fixed color for the channels that it names. -/
theorem exists_ofHex?_eq_some {hex : String} (h : Color.isHex hex) :
    ∃ c : Rgb, c.InRange ∧ ofHex? hex = some c ∧ named? hex = some c := by
  obtain ⟨digits, eq, size, all⟩ := Color.isHex_iff.1 h
  rcases size with size | size
  · match digits, size with
    | [r, g, b], _ =>
      simp only [List.forall_mem_cons] at all
      obtain ⟨hr, hg, hb, -⟩ := all
      have doubled : ∀ c ∈ [r, r, g, g, b, b], Ascii.isHexDigit c := by simp [hr, hg, hb]
      obtain ⟨c, inRange, read⟩ := exists_ofPairs?_eq_some rfl doubled
      refine ⟨c, inRange, ?_, ?_⟩
      · rw [← read]
        simp only [ofHex?, eq, shortChannel?_of_isHexDigit hr, shortChannel?_of_isHexDigit hg,
          shortChannel?_of_isHexDigit hb, ofPairs?]
      · simp only [named?, eq, read]
  · obtain ⟨c, inRange, read⟩ := exists_ofPairs?_eq_some size all
    match digits, size with
    | [r₁, r₂, g₁, g₂, b₁, b₂], _ =>
      simp only [List.forall_mem_cons] at all
      obtain ⟨hr, -, hg, -, hb, -⟩ := all
      refine ⟨c, inRange, ?_, ?_⟩
      · rw [← read]
        simp only [ofHex?, eq, channel?_of_isHexDigit hr, channel?_of_isHexDigit hg,
          channel?_of_isHexDigit hb, ofPairs?]
      · simp only [named?, eq, read]

end Rgb

end InlineMarkup
