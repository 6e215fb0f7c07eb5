import InlineMarkup.Proofs.Color.Spelling

/-!
# Digits of base sixteen

What a digit stands for, by its place in the row of all digits (`Ascii.Digit`), and what several
digits stand for (`Ascii.Stands`). The readers of digits agree with it.
-/

namespace InlineMarkup

namespace Ascii

/-- The digits of base sixteen in their order. -/
def smallHexDigits : List Char := "0123456789abcdef".toList

/-- The character is the digit `n` of base sixteen, in either case. -/
def Digit (ch : Char) (n : Nat) : Prop :=
  smallHexDigits[n]? = some ch.toLower

theorem hexDigit?_eq_some_iff {ch : Char} {n : Nat} : hexDigit? ch = some n ↔ Digit ch n := by
  constructor
  · intro read
    have listed : hexDigits.all fun ch =>
        (hexDigit? ch).all fun n => smallHexDigits[n]? == some ch.toLower := by decide
    have isDigit : isHexDigit ch := by
      rw [isHexDigit, read]
      rfl
    have here := List.all_eq_true.1 listed ch (mem_hexDigits_of_isHexDigit isDigit)
    rw [read] at here
    exact beq_iff_eq.1 here
  · intro digit
    obtain ⟨small, letter⟩ := List.getElem?_eq_some_iff.1 digit
    have bound : n < 16 := small
    have listed : ∀ n (small : n < 16), smallHexDigits[n].toUpper.toLower = smallHexDigits[n] ∧
        hexDigit? smallHexDigits[n] = some n ∧ hexDigit? smallHexDigits[n].toUpper = some n := by
      decide
    obtain ⟨folds, asSmall, asCapital⟩ := listed n bound
    rcases (toLower_eq_iff folds).1 letter.symm with rfl | rfl
    · exact asSmall
    · exact asCapital

theorem Digit.unique {ch : Char} {m n : Nat} (h : Digit ch m) (h' : Digit ch n) : m = n := by
  rw [← hexDigit?_eq_some_iff] at h h'
  exact Option.some.inj (h.symm.trans h')

theorem isHexDigit_iff {ch : Char} : isHexDigit ch ↔ ∃ n, Digit ch n := by
  simp only [isHexDigit, Option.isSome_iff_exists, hexDigit?_eq_some_iff]

theorem digit_toLower {ch : Char} {n : Nat} : Digit ch.toLower n ↔ Digit ch n := by
  rw [Digit, Digit, toLower_toLower]

/-- What digits stand for, the last one the least significant. -/
inductive Stands : List Char → Nat → Prop where
  | nil : Stands [] 0
  | snoc {digits : List Char} {ch : Char} {m n : Nat} (before : Stands digits m)
      (last : Digit ch n) : Stands (digits ++ [ch]) (16 * m + n)

theorem Stands.hexValue? {digits : List Char} {n : Nat} (stands : Stands digits n) :
    hexValue? digits = some n := by
  induction stands with
  | nil => rfl
  | snoc before last ih =>
    rw [Ascii.hexValue?, List.foldlM_append]
    rw [Ascii.hexValue?] at ih
    simp [ih, hexDigit?_eq_some_iff.2 last]

end Ascii

end InlineMarkup
