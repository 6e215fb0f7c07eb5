import InlineMarkup.Proofs.Color.Digits

/-!
# What a color says

The channels of a color, read off its digits (`Rgb.Denotes`). A terminal takes every fixed color for
the channels that it denotes. But it also takes some texts that are no fixed color: a plus sign
may stand where the first digit of a channel belongs (`Rgb.Signed`). There are no further ones
(`Rgb.ofHex?_eq_some_iff`).
-/

namespace InlineMarkup

namespace Rgb

open Ascii (Digit)

/-- Two digits stand for `v`. -/
def Pair (high low : Char) (v : Nat) : Prop :=
  ∃ m n, Digit high m ∧ Digit low n ∧ v = 16 * m + n

/-- A plus sign and a digit stand for the digit alone. -/
def SignedDigit (high low : Char) (v : Nat) : Prop :=
  high = '+' ∧ Digit low v

/-- A digit that counts as if it were doubled, that is, 17 times, stands for `v`. -/
def Doubled (digit : Char) (v : Nat) : Prop :=
  ∃ n, Digit digit n ∧ v = 17 * n

/-- The channels of a number sign and three doubled digits. -/
def Short (s : String) (c : Rgb) : Prop :=
  ∃ r g b, s.toList = ['#', r, g, b] ∧ Doubled r c.red ∧ Doubled g c.green ∧ Doubled b c.blue

/-- Two characters stand for `v`, where a plus sign may take the place of the first digit. -/
def PairOrSigned (high low : Char) (v : Nat) : Prop :=
  Pair high low v ∨ SignedDigit high low v

/-- The channels of a number sign and three groups of two characters, each of which stands for a
channel as `group` says. -/
def Long (group : Char → Char → Nat → Prop) (s : String) (c : Rgb) : Prop :=
  ∃ r₁ r₂ g₁ g₂ b₁ b₂, s.toList = ['#', r₁, r₂, g₁, g₂, b₁, b₂] ∧
    group r₁ r₂ c.red ∧ group g₁ g₂ c.green ∧ group b₁ b₂ c.blue

/-- The color that the digits of `#rgb` or `#rrggbb` stand for. -/
def Denotes (s : String) (c : Rgb) : Prop :=
  Short s c ∨ Long Pair s c

/-- The color that a text stands for if a plus sign may take the place of the first of two digits,
and does so at least once. -/
def Signed (s : String) (c : Rgb) : Prop :=
  Long PairOrSigned s c ∧ '+' ∈ s.toList

variable {s : String} {c : Rgb}

theorem not_digit_plus (n : Nat) : ¬ Digit '+' n := by
  rw [← Ascii.hexDigit?_eq_some_iff]
  exact nofun

theorem not_pair_plus (low : Char) (v : Nat) : ¬ Pair '+' low v := by
  rintro ⟨m, n, digit, -⟩
  exact not_digit_plus m digit

/-! ## One channel -/

theorem hexValue?_pair_eq_some_iff {high low : Char} {v : Nat} :
    Ascii.hexValue? [high, low] = some v ↔ Pair high low v := by
  simp only [Pair, ← Ascii.hexDigit?_eq_some_iff]
  cases first : Ascii.hexDigit? high <;> cases second : Ascii.hexDigit? low <;>
    simp [Ascii.hexValue?, first, second, eq_comm]

theorem channel?_eq_some_iff {high low : Char} {v : Nat} :
    channel? high low = some v ↔ PairOrSigned high low v := by
  rw [channel?, PairOrSigned]
  split
  · rename_i plus
    subst plus
    rw [Ascii.hexDigit?_eq_some_iff, or_iff_right (not_pair_plus low v)]
    exact (and_iff_right rfl).symm
  · rename_i digit
    rw [hexValue?_pair_eq_some_iff]
    exact (or_iff_left fun signed => digit signed.1).symm

theorem shortChannel?_eq_some_iff {digit : Char} {v : Nat} :
    shortChannel? digit = some v ↔ Doubled digit v := by
  simp only [shortChannel?, Option.map_eq_some_iff, Ascii.hexDigit?_eq_some_iff, Doubled,
    Nat.mul_comm 17, eq_comm (a := v)]

/-- A digit counts as if it were written twice. A plus sign is no digit, written once or twice. -/
theorem shortChannel?_eq_channel? (digit : Char) : shortChannel? digit = channel? digit digit := by
  ext v
  rw [shortChannel?_eq_some_iff, channel?_eq_some_iff]
  constructor
  · rintro ⟨n, stands, rfl⟩
    exact .inl ⟨n, n, stands, stands, by omega⟩
  · rintro (⟨m, n, first, second, rfl⟩ | ⟨rfl, stands⟩)
    · obtain rfl : m = n := Ascii.Digit.unique first second
      exact ⟨m, first, by omega⟩
    · exact absurd stands (not_digit_plus v)

/-! ## All channels -/

theorem ofHex?_eq_some_iff_short_or_long :
    ofHex? s = some c ↔ Short s c ∨ Long PairOrSigned s c := by
  obtain ⟨red, green, blue⟩ := c
  simp only [Short, Long, ← shortChannel?_eq_some_iff, ← channel?_eq_some_iff]
  rw [ofHex?]
  split
  · rename_i r g b eq
    simp [eq, Option.bind_eq_some_iff]
  · rename_i r₁ r₂ g₁ g₂ b₁ b₂ eq
    simp [eq, Option.bind_eq_some_iff]
  · rename_i notShort notLong
    simp only [reduceCtorEq, false_iff, not_or]
    constructor
    · rintro ⟨r, g, b, eq, -⟩
      exact notShort r g b eq
    · rintro ⟨r₁, r₂, g₁, g₂, b₁, b₂, eq, -⟩
      exact notLong r₁ r₂ g₁ g₂ b₁ b₂ eq

/-- Without plus signs, every group is a pair of digits. -/
theorem Long.denotes (long : Long PairOrSigned s c) (noPlus : '+' ∉ s.toList) : Long Pair s c := by
  obtain ⟨r₁, r₂, g₁, g₂, b₁, b₂, eq, red, green, blue⟩ := long
  have pair {high low : Char} {v : Nat} (mem : high ∈ s.toList)
      (group : PairOrSigned high low v) : Pair high low v := by
    rcases group with pair | ⟨rfl, -⟩
    · exact pair
    · exact absurd mem noPlus
  exact ⟨r₁, r₂, g₁, g₂, b₁, b₂, eq, pair (by simp [eq]) red, pair (by simp [eq]) green,
    pair (by simp [eq]) blue⟩

/-- A terminal takes a text for a color exactly if the text denotes the color, or does so with plus
signs. -/
theorem ofHex?_eq_some_iff : ofHex? s = some c ↔ Denotes s c ∨ Signed s c := by
  rw [ofHex?_eq_some_iff_short_or_long, Denotes, or_assoc]
  refine or_congr_right ⟨?_, ?_⟩
  · intro long
    by_cases plus : '+' ∈ s.toList
    · exact .inr ⟨long, plus⟩
    · exact .inl (long.denotes plus)
  · rintro (⟨r₁, r₂, g₁, g₂, b₁, b₂, eq, red, green, blue⟩ | ⟨long, -⟩)
    · exact ⟨r₁, r₂, g₁, g₂, b₁, b₂, eq, .inl red, .inl green, .inl blue⟩
    · exact long

theorem isHex_of_denotes (denotes : Denotes s c) : Color.isHex s := by
  have digit {ch : Char} {n : Nat} (stands : Digit ch n) : Ascii.isHexDigit ch :=
    Ascii.isHexDigit_iff.2 ⟨n, stands⟩
  rw [Color.isHex_iff]
  rcases denotes with ⟨r, g, b, eq, ⟨_, r', -⟩, ⟨_, g', -⟩, ⟨_, b', -⟩⟩ |
    ⟨r₁, r₂, g₁, g₂, b₁, b₂, eq, ⟨_, _, r₁', r₂', -⟩, ⟨_, _, g₁', g₂', -⟩, ⟨_, _, b₁', b₂', -⟩⟩
  · refine ⟨[r, g, b], eq, .inl rfl, ?_⟩
    simp [digit r', digit g', digit b']
  · refine ⟨[r₁, r₂, g₁, g₂, b₁, b₂], eq, .inr rfl, ?_⟩
    simp [digit r₁', digit r₂', digit g₁', digit g₂', digit b₁', digit b₂']

theorem not_signed_of_isHex (hex : Color.isHex s) : ¬ Signed s c := by
  rintro ⟨-, plus⟩
  obtain ⟨digits, eq, -, all⟩ := Color.isHex_iff.1 hex
  rw [eq, List.mem_cons] at plus
  rcases plus with plus | mem
  · cases plus
  · exact absurd (all '+' mem) (by decide)

theorem isHex_iff_exists_denotes : Color.isHex s ↔ ∃ c, Denotes s c := by
  constructor
  · intro hex
    obtain ⟨c, -, read, -⟩ := exists_ofHex?_eq_some hex
    exact ⟨c, (ofHex?_eq_some_iff.1 read).resolve_right (not_signed_of_isHex hex)⟩
  · rintro ⟨c, denotes⟩
    exact isHex_of_denotes denotes

/-! ## Letter case and the short form -/

theorem toLower_eq_mark_iff {ch mark : Char} (noLetter : mark.toUpper = mark)
    (small : mark.toLower = mark) : ch.toLower = mark ↔ ch = mark := by
  rw [Ascii.toLower_eq_iff (by rw [noLetter, small]), noLetter, or_self]

theorem channel?_toLower (high low : Char) :
    channel? high.toLower low.toLower = channel? high low := by
  ext v
  simp only [channel?_eq_some_iff, PairOrSigned, Pair, SignedDigit, Ascii.digit_toLower,
    toLower_eq_mark_iff (show '+'.toUpper = '+' from rfl) rfl]

theorem shortChannel?_toLower (digit : Char) :
    shortChannel? digit.toLower = shortChannel? digit := by
  rw [shortChannel?_eq_channel?, shortChannel?_eq_channel?, channel?_toLower]

theorem ofHex?_lower (s : String) : ofHex? (Ascii.lower s) = ofHex? s := by
  rw [ofHex?, ofHex?, Ascii.lower, String.toList_ofList]
  cases s.toList with
  | nil => rfl
  | cons mark digits =>
    by_cases sign : mark = '#'
    · subst sign
      -- only three and six digits are read
      rcases digits with _ | ⟨a, _ | ⟨b, _ | ⟨c, _ | ⟨d, _ | ⟨e, _ | ⟨f, _ | ⟨g, more⟩⟩⟩⟩⟩⟩⟩ <;>
        simp [shortChannel?_toLower, channel?_toLower]
    · have other : mark.toLower ≠ '#' := mt (toLower_eq_mark_iff rfl rfl).1 sign
      simp [sign, other]

theorem ofHex?_doubled (r g b : Char) :
    ofHex? (.ofList ['#', r, g, b]) = ofHex? (.ofList ['#', r, r, g, g, b, b]) := by
  simp only [ofHex?, String.toList_ofList, shortChannel?_eq_channel?]

/-- A terminal takes for colors the fixed colors and, besides, the texts with plus signs in place of
digits, which are no fixed colors. It takes a color for the channels that its digits denote, in
either case of the letters, and a digit of a short color for the same digit twice. -/
theorem ofHex?_exact (s : String) :
    ((ofHex? s).isSome ↔ Color.isHex s ∨ ∃ c, Signed s c) ∧
      (Color.isHex s → ¬ ∃ c, Signed s c) ∧
      (Color.isHex s ↔ ∃ c, Denotes s c) ∧
      (∀ c, ofHex? s = some c ↔ Denotes s c ∨ Signed s c) ∧
      (∀ t, Ascii.eqIgnoringCase t s → ofHex? t = ofHex? s) ∧
      ∀ r g b, ofHex? (.ofList ['#', r, g, b]) = ofHex? (.ofList ['#', r, r, g, g, b, b]) := by
  refine ⟨?_, ?_, isHex_iff_exists_denotes, fun c => ofHex?_eq_some_iff, ?_, ofHex?_doubled⟩
  · simp only [Option.isSome_iff_exists, ofHex?_eq_some_iff, exists_or, isHex_iff_exists_denotes]
  · rintro hex ⟨c, signed⟩
    exact not_signed_of_isHex hex signed
  · intro t same
    rw [← ofHex?_lower t, ← ofHex?_lower s, beq_iff_eq.1 same]

/-- A long color in letters of both cases, and the short color that says the same. -/
theorem ofHex?_exact_mixedCase :
    Ascii.eqIgnoringCase "#00AaFf" "#00aaff" ∧ ofHex? "#00AaFf" = ofHex? "#00aaff" ∧
      ofHex? "#0af" = ofHex? "#00aaff" ∧ Denotes "#00aaff" ⟨0, 170, 255⟩ ∧
      ¬ ∃ c, Signed "#00aaff" c := by
  obtain ⟨-, unsigned, -, denotes, anyCase, doubled⟩ := ofHex?_exact "#00aaff"
  have same : Ascii.eqIgnoringCase "#00AaFf" "#00aaff" := by decide
  have hex : Color.isHex "#00aaff" := by decide
  have read : ofHex? "#00aaff" = some ⟨0, 170, 255⟩ := by decide
  refine ⟨same, anyCase _ same, doubled '0' 'a' 'f', ?_, unsigned hex⟩
  exact ((denotes _).1 read).resolve_right fun signed => unsigned hex ⟨_, signed⟩

/-- Plus signs pass for digits, though they make no fixed color. -/
theorem ofHex?_plus_signs :
    ofHex? "#+a+b+c" = some ⟨10, 11, 12⟩ ∧ Color.isHex "#+a+b+c" = false := by
  decide

end Rgb

end InlineMarkup
