import InlineMarkup.Text.Ascii
import InlineMarkup.Text.Decimal

/-!
# TOML scalars

Numbers, flags, dates and times. Settings hold none of them, so a scalar is only checked for being
well formed and in range (`isScalar`).
-/

namespace InlineMarkup.Toml

/-- A word that is made of digits, where single underscores may stand between digits; the digits
are given without the underscores. -/
def digits? (isDigit : Char → Bool) (s : List Char) : Option (List Char) :=
  let groups := s.splitOn '_'
  if groups.all fun g => !g.isEmpty && g.all isDigit then some groups.flatten else none

/-- Removes a sign. -/
def unsigned : List Char → List Char
  | '+' :: rest => rest
  | '-' :: rest => rest
  | s => s

/-- Decimal digits without leading zeros. -/
def plainDigits? (s : List Char) : Option (List Char) :=
  match digits? Char.isDigit s with
  | some ('0' :: _ :: _) => none
  | found => found

/-- The most that an integer may be. -/
def maxInteger : Nat := Nat.pow 2 128 - 1

/-- The least that an integer may be, without its sign. -/
def minInteger : Nat := Nat.pow 2 127

/-- Whether a word is an integer in base two, eight or sixteen, after `0` and a letter. -/
def isRadix (isDigit : Char → Bool) (base : Nat) (s : List Char) : Bool :=
  match digits? isDigit s with
  | some ds =>
    decide (ds.foldl (fun n c => base * n + (Ascii.hexDigit? c).getD 0) 0 ≤ maxInteger)
  | none => false

/-- Whether a word is an integer. -/
def isInteger (s : List Char) : Bool :=
  match s with
  | '0' :: 'x' :: ds => isRadix Ascii.isHexDigit 16 ds
  | '0' :: 'o' :: ds => isRadix (fun c => '0' ≤ c && c ≤ '7') 8 ds
  | '0' :: 'b' :: ds => isRadix (fun c => c == '0' || c == '1') 2 ds
  | _ =>
    match plainDigits? (unsigned s) with
    | some ds =>
      decide (Decimal.value ds ≤ if s.head? = some '-' then minInteger else maxInteger)
    | none => false

/-- Whether a word is a number with a fraction, an exponent or both. -/
def isFloat (s : List Char) : Bool :=
  let body := unsigned s
  if body = "inf".toList ∨ body = "nan".toList then true
  else
    let (mantissa, exponent) := body.span fun c => c != 'e' && c != 'E'
    let (whole, fraction) := mantissa.span (· != '.')
    let fraction? := match fraction with
      | [] => some []
      | _ :: fraction => digits? Char.isDigit fraction
    let exponent? := match exponent with
      | [] => some []
      | _ :: exponent => digits? Char.isDigit (unsigned exponent)
    match plainDigits? whole, fraction?, exponent? with
    | some whole, some fraction, some ds =>
      !(fraction.isEmpty && ds.isEmpty) &&
        !Decimal.isTooLarge whole fraction ((exponent.drop 1).head? == some '-') ds
    | _, _, _ => false

/-- The number that a word of exactly `n` digits stands for. -/
def fixed? (n : Nat) (s : List Char) : Option Nat :=
  if s.length = n ∧ s.all Char.isDigit then some (Decimal.value s) else none

/-- The number of days of a month. -/
def daysIn (year month : Nat) : Nat :=
  if month = 2 then
    if year % 4 = 0 ∧ (year % 100 ≠ 0 ∨ year % 400 = 0) then 29 else 28
  else if month = 4 ∨ month = 6 ∨ month = 9 ∨ month = 11 then 30
  else 31

/-- Whether a word is a date. -/
def isDate (s : List Char) : Bool :=
  match s.splitOn '-' with
  | [y, m, d] =>
    match fixed? 4 y, fixed? 2 m, fixed? 2 d with
    | some y, some m, some d =>
      decide (1 ≤ m) && decide (m ≤ 12) && decide (1 ≤ d) && decide (d ≤ daysIn y m)
    | _, _, _ => false
  | _ => false

/-- Whether a word is a number of two digits up to `limit`. -/
def isUpTo (limit : Nat) (s : List Char) : Bool :=
  match fixed? 2 s with
  | some n => decide (n ≤ limit)
  | none => false

/-- Whether a word is a number of seconds, with a fraction or without. -/
def isSeconds (s : List Char) : Bool :=
  match s.splitOn '.' with
  | [whole] => isUpTo 60 whole
  | [whole, fraction] => isUpTo 60 whole && !fraction.isEmpty && fraction.all Char.isDigit
  | _ => false

/-- Whether a word is a time of day; the seconds may be left out. -/
def isTime (s : List Char) : Bool :=
  match s.splitOn ':' with
  | [h, m] => isUpTo 23 h && isUpTo 59 m
  | [h, m, sec] => isUpTo 23 h && isUpTo 59 m && isSeconds sec
  | _ => false

/-- Whether a word is an offset from universal time. -/
def isOffset (s : List Char) : Bool :=
  match s with
  | [c] => c == 'Z' || c == 'z'
  | c :: rest =>
    (c == '+' || c == '-') &&
      match rest.splitOn ':' with
      | [h, m] => isUpTo 23 h && isUpTo 59 m
      | _ => false
  | [] => false

/-- Whether a word is a time of day with an offset or without. -/
def isOffsetTime (s : List Char) : Bool :=
  let (time, offset) := s.span fun c => c != 'Z' && c != 'z' && c != '+' && c != '-'
  isTime time && (offset.isEmpty || isOffset offset)

/-- The length of a date. -/
def dateLength : Nat := 10

/-- Whether a word is a date, a time, or a date and a time. -/
def isDateTime (s : List Char) : Bool :=
  let date := s.take dateLength
  match s.drop dateLength with
  | [] => isDate s || isTime s
  | c :: time =>
    ((c == 'T' || c == 't' || c == ' ') && isDate date && isOffsetTime time) || isTime s

/-- Whether a word is a scalar. -/
def isScalar (s : List Char) : Bool :=
  s == "true".toList || s == "false".toList || isInteger s || isFloat s || isDateTime s

/-- A character of a scalar. -/
def isScalarChar (c : Char) : Bool :=
  c.isAlphanum || c == '_' || c == '+' || c == '-' || c == '.' || c == ':'

/-- The word at the start of a text, and the rest of the text. A date goes on after a blank if a
time follows. -/
def readWord (s : List Char) : List Char × List Char :=
  let (word, rest) := s.span isScalarChar
  match rest with
  | ' ' :: h :: h' :: ':' :: _ =>
    if isDate word ∧ h.isDigit ∧ h'.isDigit then
      let (time, rest) := (rest.drop 1).span isScalarChar
      (word ++ ' ' :: time, rest)
    else (word, rest)
  | _ => (word, rest)

example : isScalar "1_000.5e-3".toList := by decide +kernel
example : isScalar "1979-05-27 07:32:00.5Z".toList := by decide +kernel
example : isScalar "1979-02-29".toList = false := by decide +kernel
example : isScalar "01".toList = false := by decide +kernel
example : isScalar "340_282366920938463463374607431768211456".toList = false := by decide +kernel
example : isScalar "1.".toList = false := by decide +kernel

end InlineMarkup.Toml
