import InlineMarkup.Json.Basic
import InlineMarkup.Text.Decimal

/-!
# Reading JSON numbers

Records hold no numbers, but a number may stand where something else was wanted, and skipped values
may hold any. A number that stands where something else was wanted is checked for its range as well.

The check is the one of double precision, but not an exact one: a number is taken for its first
digits, as many as fit 64 bits (`fill`), times a power of ten, each of the two is rounded, and their
product is in range if it is below the first number that rounds to infinity (`Numeral.isTooLarge`).
-/

namespace InlineMarkup.Json

/-- A number as written, without its sign. -/
structure Numeral where
  whole : List Char
  fraction : List Char := []
  negativeExponent : Bool := false
  exponent : List Char := []
deriving DecidableEq, Repr

/-- Reads one or more digits; `missing` is the fault if the text ends before the first. -/
def readDigits (missing : Fault) (s : List Char) : Except Fault (List Char × List Char) :=
  match s.span Char.isDigit with
  | ([], []) => .error missing
  | ([], _ :: _) => .error .malformed
  | found => .ok found

/-- Reads the part after a point, if there is a point. -/
def readFraction (missing : Fault) : List Char → Except Fault (List Char × List Char)
  | '.' :: rest => readDigits missing rest
  | s => .ok ([], s)

/-- Reads an exponent, if there is one: whether it is negative, and its digits. -/
def readExponent (missing : Fault) : List Char → Except Fault ((Bool × List Char) × List Char)
  | c :: rest =>
    if c = 'e' ∨ c = 'E' then
      let (negative, digits) := match rest with
        | '+' :: digits => (false, digits)
        | '-' :: digits => (true, digits)
        | digits => (false, digits)
      (readDigits missing digits).map fun (ds, rest) => ((negative, ds), rest)
    else .ok ((false, []), c :: rest)
  | [] => .ok ((false, []), [])

/-- Reads a number after its sign. The whole part has no leading zeros. -/
def readNumeral (missing : Fault) (s : List Char) : Except Fault (Numeral × List Char) := do
  let (whole, rest) ← readDigits missing s
  if whole.head? = some '0' ∧ whole.length ≠ 1 then .error .malformed
  else
    let (fraction, rest) ← readFraction missing rest
    let ((negativeExponent, exponent), rest) ← readExponent missing rest
    return ({ whole, fraction, negativeExponent, exponent }, rest)

/-- The most that the digits of a number may stand for. -/
def maxSignificand : Nat := Nat.pow 2 64 - 1

/-- Appends digits to `m` up to the first with which it would exceed `maxSignificand`, and gives the
digits from there on. -/
def fill (m : Nat) : List Char → Nat × List Char
  | [] => (m, [])
  | c :: digits =>
    let next := 10 * m + Decimal.value [c]
    if next ≤ maxSignificand then fill next digits else (m, c :: digits)

/-- The number without its sign as `m * 10 ^ e`. A digit of the whole part that does not fit raises
`e`, and a digit of the fraction that fits lowers it; the fraction is tried also if some digit
before it did not fit. -/
def Numeral.scaled (n : Numeral) : Nat × Int :=
  let (whole, dropped) := fill 0 n.whole
  let (m, rest) := fill whole n.fraction
  let e : Int := Decimal.value n.exponent
  (m, (if n.negativeExponent then -e else e) + dropped.length - (n.fraction.length - rest.length))

/-- Whether a number is too large for double precision. A number that is divided by a power of ten
never is. -/
def Numeral.isTooLarge (n : Numeral) : Bool :=
  match n.scaled with
  | (_, .negSucc _) => false
  | (m, .ofNat e) =>
    m != 0 && (decide (Decimal.maxExponent < e) ||
      decide (Decimal.overflowBound ≤ Decimal.round m * Decimal.round (Nat.pow 10 e)))

example : Numeral.scaled ⟨"18446744073709551616".toList, "50".toList, false, []⟩
    = (18446744073709551615, 0) := by decide +kernel
example : Numeral.isTooLarge ⟨"1797693134862315706".toList, [], false, "290".toList⟩ := by
  decide +kernel
example : Numeral.isTooLarge ⟨"179769313486231593".toList, [], false, "291".toList⟩ = false := by
  decide +kernel

end InlineMarkup.Json
