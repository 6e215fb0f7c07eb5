import InlineMarkup.Json.Basic
import InlineMarkup.Text.Ascii

/-!
# Reading JSON texts

A text stands in quotes. An escape with a code unit of UTF-16 may need a second one to make a
character; a unit that belongs to no character is not accepted. In values that are skipped
(`skipText`) units are not paired up.
-/

namespace InlineMarkup.Json

/-- The number of bytes of a text. -/
def byteSize (s : List Char) : Nat :=
  s.foldl (fun n c => n + c.utf8Size) 0

/-- The code unit that four digits at the start of a text stand for. Fewer than four bytes cannot
hold it. -/
def codeUnit (s : List Char) : Except Fault Nat :=
  if byteSize (s.take 4) < 4 then .error .truncated
  else match s with
    | a :: b :: c :: d :: _ => match Ascii.hexValue? [a, b, c, d] with
      | some n => .ok n
      | none => .error .malformed
    | _ => .error .malformed

/-- A code unit that begins a pair. -/
def isLeading (n : Nat) : Bool :=
  decide (0xD800 ≤ n) && decide (n ≤ 0xDBFF)

/-- A code unit that ends a pair. -/
def isTrailing (n : Nat) : Bool :=
  decide (0xDC00 ≤ n) && decide (n ≤ 0xDFFF)

/-- The character of a pair of code units. -/
def pairChar (leading trailing : Nat) : Char :=
  Char.ofNat (0x10000 + (leading - 0xD800) * 0x400 + (trailing - 0xDC00))

/-- Reads a character given by code units, after `\u`. The result comes with the number of
characters that were read. -/
def readUnits (s : List Char) : Except Fault (Char × Nat) := do
  let n ← codeUnit s
  if isTrailing n then .error .malformed
  else if isLeading n then
    match s.drop 4 with
    | [] => .error .truncated
    | '\\' :: [] => .error .truncated
    | '\\' :: 'u' :: rest => do
      let m ← codeUnit rest
      if isTrailing m then .ok (pairChar n m, 10) else .error .malformed
    | _ => .error .malformed
  else .ok (Char.ofNat n, 4)

/-- The character of an escape with a single letter. -/
def simpleEscape? (c : Char) : Option Char :=
  if c = '"' ∨ c = '\\' ∨ c = '/' then some c
  else if c = 'b' then some '\x08'
  else if c = 'f' then some '\x0c'
  else if c = 'n' then some '\n'
  else if c = 'r' then some '\r'
  else if c = 't' then some '\t'
  else none

/-- Reads an escape, after the backslash, with the number of characters that were read. -/
def readEscape : List Char → Except Fault (Char × Nat)
  | [] => .error .truncated
  | c :: rest =>
    match simpleEscape? c with
    | some e => .ok (e, 1)
    | none =>
      if c = 'u' then (readUnits rest).map fun (e, used) => (e, used + 1) else .error .malformed

/-- The number of characters of an escape that is skipped, after the backslash. -/
def skipEscape : List Char → Except Fault Nat
  | [] => .error .truncated
  | c :: rest =>
    if (simpleEscape? c).isSome then .ok 1
    else if c = 'u' then (codeUnit rest).map fun _ => 5
    else .error .malformed

/-- Reads a text after its opening quote, where the first `used` characters belong to an escape
that was read already. -/
def readTextFrom : (used : Nat) → List Char → Except Fault (List Char × List Char)
  | _, [] => .error .truncated
  | used + 1, _ :: rest => readTextFrom used rest
  | 0, c :: rest =>
    if c = '"' then .ok ([], rest)
    else if c = '\\' then do
      let (e, used) ← readEscape rest
      let (s, rest) ← readTextFrom used rest
      return (e :: s, rest)
    else if c < ' ' then .error .malformed
    else do
      let (s, rest) ← readTextFrom 0 rest
      return (c :: s, rest)

/-- Reads a text after its opening quote. -/
def readText (s : List Char) : Except Fault (String × List Char) :=
  (readTextFrom 0 s).map fun (t, rest) => (String.ofList t, rest)

/-- Skips a text after its opening quote, where the first `used` characters belong to an escape
that was skipped already. -/
def skipTextFrom : (used : Nat) → List Char → Except Fault (List Char)
  | _, [] => .error .truncated
  | used + 1, _ :: rest => skipTextFrom used rest
  | 0, c :: rest =>
    if c = '"' then .ok rest
    else if c = '\\' then do
      let used ← skipEscape rest
      skipTextFrom used rest
    else if c < ' ' then .error .malformed
    else skipTextFrom 0 rest

/-- Skips a text after its opening quote. -/
def skipText (s : List Char) : Except Fault (List Char) :=
  skipTextFrom 0 s

end InlineMarkup.Json
