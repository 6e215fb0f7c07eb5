import InlineMarkup.Text.Ascii

/-!
# TOML strings

A string is basic (double quotes, with escapes) or literal (single quotes, as it stands), on one
line or, in three quotes, on several. `Form.choose` picks the form in which a text is easiest to
read, and `write` writes it; `readString?` reads all four.
-/

namespace InlineMarkup.Toml

/-- A character that may stand nowhere as it is: a control character other than a tab. -/
def isControl (c : Char) : Bool :=
  (decide (c < ' ') && c != '\t') || c == '\x7f'

/-- The ways to write a string. -/
inductive Form where
  | basic
  | literal
  | multilineBasic
  | multilineLiteral
deriving DecidableEq, Repr

/-- Whether `c` stands `n` times in a row somewhere. -/
def hasRun (c : Char) (n : Nat) : List Char → Bool
  | [] => n == 0
  | d :: rest => (d :: rest).take n == List.replicate n c || hasRun c n rest

/-- The form in which a text is written: the first of the four that needs no escapes, else a
basic one, on several lines if the text has several. -/
def Form.choose (s : List Char) : Form :=
  let newline := s.contains '\n'
  let escaped := s.any fun c => isControl c && c != '\n'
  let backslash := s.contains '\\'
  if !escaped && !backslash && !s.contains '"' && !newline then basic
  else if !escaped && !s.contains '\'' && !newline then literal
  else if !escaped && !backslash && !hasRun '"' 3 s then multilineBasic
  else if !escaped && !hasRun '\'' 3 s then multilineLiteral
  else if newline then multilineBasic
  else basic

/-- The letter of the escape for a character, if it has one. -/
def escapeLetter? (c : Char) : Option Char :=
  if c = '\x08' then some 'b'
  else if c = '\t' then some 't'
  else if c = '\n' then some 'n'
  else if c = '\x0c' then some 'f'
  else if c = '\r' then some 'r'
  else if c = '\\' then some '\\'
  else none

/-- Writes the inside of a basic string. Newlines stand as they are if `multiline`, and of quotes
in a row every one after the first `free` is escaped; `quotes` of them came just before. -/
def writeBasic (multiline : Bool) (free : Nat) : (quotes : Nat) → List Char → List Char
  | _, [] => []
  | quotes, c :: rest =>
    if c = '"' then
      if quotes < free then c :: writeBasic multiline free (quotes + 1) rest
      else '\\' :: '"' :: writeBasic multiline free 0 rest
    else if c = '\n' ∧ multiline then c :: writeBasic multiline free 0 rest
    else match escapeLetter? c with
      | some letter => '\\' :: letter :: writeBasic multiline free 0 rest
      | none =>
        if isControl c then
          '\\' :: 'u' :: (Ascii.hex4 c.toNat).map Char.toUpper ++ writeBasic multiline free 0 rest
        else c :: writeBasic multiline free 0 rest

/-- Writes a string in a form. -/
def Form.write (form : Form) (s : List Char) : List Char :=
  let line := if s.contains '\n' then ['\n'] else []
  match form with
  | basic => '"' :: writeBasic false 0 0 s ++ ['"']
  | literal => '\'' :: s ++ ['\'']
  | multilineBasic => ['"', '"', '"'] ++ line ++ writeBasic true 2 0 s ++ ['"', '"', '"']
  | multilineLiteral => ['\'', '\'', '\''] ++ line ++ s ++ ['\'', '\'', '\'']

/-- Writes a string. -/
def writeString (s : String) : String :=
  String.ofList ((Form.choose s.toList).write s.toList)

/-- The character with a code point, if there is one. -/
def charOfCode? (n : Nat) : Option Char :=
  if n.isValidChar then some (Char.ofNat n) else none

/-- Reads the digits of an escape, `count` of them. -/
def readCode? (count : Nat) (s : List Char) : Option (Char × Nat) :=
  let digits := s.take count
  if digits.length = count then do
    let n ← Ascii.hexValue? digits
    let c ← charOfCode? n
    return (c, count + 1)
  else none

/-- Reads an escape, after the backslash, with the number of characters that were read. -/
def readEscape? : List Char → Option (Char × Nat)
  | [] => none
  | c :: rest =>
    if c = '"' ∨ c = '\\' then some (c, 1)
    else if c = 'b' then some ('\x08', 1)
    else if c = 't' then some ('\t', 1)
    else if c = 'n' then some ('\n', 1)
    else if c = 'f' then some ('\x0c', 1)
    else if c = 'r' then some ('\r', 1)
    else if c = 'e' then some ('\x1b', 1)
    else if c = 'x' then readCode? 2 rest
    else if c = 'u' then readCode? 4 rest
    else if c = 'U' then readCode? 8 rest
    else none

/-- The number of characters of the blanks and newlines at the start of a text. -/
def blankLength : List Char → Nat
  | '\r' :: '\n' :: rest => blankLength rest + 2
  | c :: rest => if c = ' ' ∨ c = '\t' ∨ c = '\n' then blankLength rest + 1 else 0
  | [] => 0

/-- Whether nothing but blanks stands before the next newline. -/
def isLineEnd (s : List Char) : Bool :=
  match s.dropWhile fun c => c == ' ' || c == '\t' with
  | '\n' :: _ => true
  | '\r' :: '\n' :: _ => true
  | _ => false

/-- Reads a basic string on one line after its opening quote, where the first `used` characters
belong to an escape that was read already. -/
def readBasicFrom : (used : Nat) → List Char → Option (List Char × List Char)
  | _, [] => none
  | used + 1, _ :: rest => readBasicFrom used rest
  | 0, c :: rest =>
    if c = '"' then some ([], rest)
    else if c = '\\' then do
      let (e, used) ← readEscape? rest
      let (s, rest) ← readBasicFrom used rest
      return (e :: s, rest)
    else if isControl c then none
    else do
      let (s, rest) ← readBasicFrom 0 rest
      return (c :: s, rest)

/-- Reads a literal string on one line after its opening quote. -/
def readLiteral : List Char → Option (List Char × List Char)
  | [] => none
  | c :: rest =>
    if c = '\'' then some ([], rest)
    else if isControl c then none
    else do
      let (s, rest) ← readLiteral rest
      return (c :: s, rest)

/-- Reads the quotes at the start of a text that end a string on several lines. Up to two more than
the three of the end belong to the string. -/
def readEnd? (quote : Char) (s : List Char) : Option (Option (List Char × List Char)) :=
  let run := s.takeWhile (· == quote)
  if run.length < 3 then none
  else if run.length ≤ 5 then some (some (run.drop 3, s.drop run.length))
  else some none

/-- Reads a string on several lines after its opening quotes, where the first `used` characters
were read already. A backslash begins an escape if `escapes`; at the end of a line it joins the
line to the next text. -/
def readMultilineFrom (quote : Char) (escapes : Bool) : (used : Nat) → List Char →
    Option (List Char × List Char)
  | _, [] => none
  | used + 1, _ :: rest => readMultilineFrom quote escapes used rest
  | 0, c :: rest =>
    if c = quote ∧ (readEnd? quote (c :: rest)).isSome then
      (readEnd? quote (c :: rest)).join
    else if c = '\\' ∧ escapes then
      if isLineEnd rest then readMultilineFrom quote escapes (blankLength rest) rest
      else do
        let (e, used) ← readEscape? rest
        let (s, rest) ← readMultilineFrom quote escapes used rest
        return (e :: s, rest)
    else if isControl c ∧ c ≠ '\n' ∧ ¬(c = '\r' ∧ rest.head? = some '\n') then none
    else do
      let (s, rest) ← readMultilineFrom quote escapes 0 rest
      return (c :: s, rest)

/-- A text without the newline at its start, if there is one. -/
def skipNewline : List Char → List Char
  | '\n' :: rest => rest
  | '\r' :: '\n' :: rest => rest
  | s => s

/-- Reads a string on one line. -/
def readLine? : List Char → Option (List Char × List Char)
  | '"' :: rest => readBasicFrom 0 rest
  | '\'' :: rest => readLiteral rest
  | _ => none

/-- Reads a string of any form. -/
def readString? : List Char → Option (List Char × List Char)
  | '"' :: '"' :: '"' :: rest => readMultilineFrom '"' true 0 (skipNewline rest)
  | '\'' :: '\'' :: '\'' :: rest => readMultilineFrom '\'' false 0 (skipNewline rest)
  | s => readLine? s

end InlineMarkup.Toml
