/-!
# Decimal numbers

The value of decimal digits, rounding to double precision, and whether a decimal number is too large
for double precision. A number is too large if it rounds to infinity, that is, from half a unit past
the largest finite number on.
-/

namespace InlineMarkup.Decimal

/-- The value of decimal digits, the first the most significant. -/
def value (digits : List Char) : Nat :=
  digits.foldl (fun n c => 10 * n + (c.toNat - 48)) 0

/-- The least number that rounds to infinity in double precision. -/
def overflowBound : Nat := Nat.pow 2 1024 - Nat.pow 2 970

/-- The number of binary digits that double precision keeps. -/
def precision : Nat := 53

/-- The nearest number of the `precision`, of two nearest ones that with an even last digit. There
is no bound on its size. -/
def round (n : Nat) : Nat :=
  let unit := Nat.pow 2 (n.log2 + 1 - precision)
  let q := n / unit
  let twice := 2 * (n % unit)
  if twice < unit ∨ (twice = unit ∧ q % 2 = 0) then q * unit else (q + 1) * unit

/-- The largest power of ten below the bound. -/
def maxExponent : Nat := 308

/-- Whether `m * 10 ^ e` reaches the overflow bound. The number of digits settles it where the power
would be out of proportion. -/
def overflows (m : Nat) (e : Int) : Bool :=
  match e with
  | .ofNat e => m != 0 && (decide (maxExponent < e) || decide (overflowBound ≤ m * Nat.pow 10 e))
  | .negSucc e =>
    let places := (Nat.toDigits 10 m).length
    decide (maxExponent + e + 1 < places) && decide (overflowBound * Nat.pow 10 (e + 1) ≤ m)

/-- Whether the number with the given digits before and after the point and the given exponent is
too large for double precision. -/
def isTooLarge (whole fraction : List Char) (negativeExponent : Bool) (exponent : List Char) :
    Bool :=
  let e : Int := value exponent
  overflows (value (whole ++ fraction)) ((if negativeExponent then -e else e) - fraction.length)

example : isTooLarge ['1'] [] false ['3', '0', '8'] = false := by decide +kernel
example : isTooLarge ['2'] [] false ['3', '0', '8'] = true := by decide +kernel
example : isTooLarge ['0'] [] false ['9', '9', '9'] = false := by decide +kernel

example : round 9007199254740993 = 9007199254740992 := by decide +kernel
example : round 9007199254740995 = 9007199254740996 := by decide +kernel
example : round 9007199254740991 = 9007199254740991 := by decide +kernel

end InlineMarkup.Decimal
