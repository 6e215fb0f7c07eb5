import InlineMarkup.Json.Numeral
import InlineMarkup.Json.Text

/-!
# Skipping JSON values

The value of an unknown member is skipped, and only has to be well formed. `refuse` says what is
wrong where a value of a certain shape was wanted and something else stands: the beginning of the
other value is looked at, so that a text that is not well formed there counts as such.
-/

namespace InlineMarkup.Json

/-- Skips the colon after a name. -/
def skipColon (s : List Char) : Except Fault (List Char) :=
  match skipSpace s with
  | [] => .error .truncated
  | c :: rest => if c = ':' then .ok rest else .error .malformed

/-- Skips the name of a member. -/
def skipName (s : List Char) : Except Fault (List Char) :=
  match skipSpace s with
  | [] => .error .truncated
  | c :: rest => if c = '"' then skipText rest else .error .malformed

mutual

/-- Skips a value in at most `fuel` steps. -/
def skipValueWithin : (fuel : Nat) → List Char → Except Fault (List Char)
  | 0, _ => .error .malformed
  | fuel + 1, s =>
    match skipSpace s with
    | [] => .error .truncated
    | c :: rest =>
      if c = '"' then skipText rest
      else if c = '[' then skipItems fuel true rest
      else if c = '\x7b' then skipMembers fuel true rest
      else if c = 'n' then readWord "ull".toList rest
      else if c = 't' then readWord "rue".toList rest
      else if c = 'f' then readWord "alse".toList rest
      else if c = '-' then (readNumeral .malformed rest).map (·.2)
      else if c.isDigit then (readNumeral .malformed (c :: rest)).map (·.2)
      else .error .malformed

/-- Skips the items of an array and its end. A comma comes before every item but the first. -/
def skipItems : (fuel : Nat) → (first : Bool) → List Char → Except Fault (List Char)
  | 0, _, _ => .error .malformed
  | fuel + 1, first, s =>
    match skipSpace s with
    | [] => .error .truncated
    | c :: rest =>
      if c = ']' then .ok rest
      else if first then do
        let rest ← skipValueWithin fuel (c :: rest)
        skipItems fuel false rest
      else if c = ',' then do
        let rest ← skipValueWithin fuel rest
        skipItems fuel false rest
      else .error .malformed

/-- Skips the members of an object and its end. A comma comes before every member but the
first. -/
def skipMembers : (fuel : Nat) → (first : Bool) → List Char → Except Fault (List Char)
  | 0, _, _ => .error .malformed
  | fuel + 1, first, s =>
    match skipSpace s with
    | [] => .error .truncated
    | c :: rest =>
      if c = '\x7d' then .ok rest
      else if first ∨ c = ',' then do
        let rest ← skipName (if first then c :: rest else rest)
        let rest ← skipColon rest
        let rest ← skipValueWithin fuel rest
        skipMembers fuel false rest
      else .error .malformed

end

/-- Skips a value of any shape. A bracket takes two steps, and every other step reads at least one
character. -/
def skipValue (s : List Char) : Except Fault (List Char) :=
  skipValueWithin (2 * s.length + 2) s

/-- The fault of a text that does not begin with the wanted value, given what does stand there. -/
def refuse (s : List Char) : Fault :=
  match s with
  | [] => .truncated
  | c :: rest =>
    let refuseWord (word : String) : Fault :=
      match readWord word.toList rest with
      | .ok _ => .mismatch
      | .error fault => fault
    let refuseNumeral (s : List Char) : Fault :=
      match readNumeral .truncated s with
      | .ok (n, _) => if n.isTooLarge then .malformed else .mismatch
      | .error fault => fault
    if c = '"' then
      match readText rest with
      | .ok _ => .mismatch
      | .error fault => fault
    else if c = '[' ∨ c = '\x7b' then .mismatch
    else if c = 'n' then refuseWord "ull"
    else if c = 't' then refuseWord "rue"
    else if c = 'f' then refuseWord "alse"
    else if c = '-' then refuseNumeral rest
    else if c.isDigit then refuseNumeral (c :: rest)
    else .malformed

end InlineMarkup.Json
