import InlineMarkup.Json.Skip

/-!
# Values with named fields

A shape is a fixed list of named fields. A value of it is written as an object, whose members come
in any order and may include unknown ones, or as an array of its fields in their order, where
the last ones may be left out. No field may be given twice.
-/

namespace InlineMarkup.Json

/-- The fields `φ` of a value, collected in `σ`. -/
structure Shape (φ σ : Type) where
  /-- The fields in the order of an array. -/
  fields : List φ
  /-- The name of a field in an object. -/
  name : φ → String
  /-- Whether a field was read already. -/
  has : σ → φ → Bool
  /-- Reads the value of a field. -/
  read : σ → φ → List Char → Except Fault (σ × List Char)

/-- Reads the name of the next member of an object, or the end of the object. A comma comes
before every member but the first. -/
def readName? (first : Bool) (s : List Char) : Except Fault (Option String × List Char) :=
  match skipSpace s with
  | [] => .error .truncated
  | c :: rest =>
    if c = '\x7d' then .ok (none, rest)
    else if first ∨ c = ',' then
      match skipSpace (if first then c :: rest else rest) with
      | [] => .error .truncated
      | q :: rest =>
        if q = '"' then (readText rest).map fun (name, rest) => (some name, rest)
        else .error .malformed
    else .error .malformed

/-- Reads a text. -/
def readString (s : List Char) : Except Fault (String × List Char) :=
  match skipSpace s with
  | '"' :: rest => readText rest
  | other => .error (refuse other)

/-- Reads a flag. -/
def readFlag (s : List Char) : Except Fault (Bool × List Char) :=
  match skipSpace s with
  | 't' :: rest => (readWord "rue".toList rest).map fun rest => (true, rest)
  | 'f' :: rest => (readWord "alse".toList rest).map fun rest => (false, rest)
  | other => .error (refuse other)

namespace Shape

variable {φ σ : Type} (shape : Shape φ σ)

/-- The field of a name. -/
def field? (name : String) : Option φ :=
  shape.fields.find? fun f => shape.name f == name

/-- Reads the members of an object and its end, in at most `fuel` steps. -/
def readMembers : (fuel : Nat) → (first : Bool) → σ → List Char → Except Fault (σ × List Char)
  | 0, _, _, _ => .error .malformed
  | fuel + 1, first, done, s => do
    let (name?, rest) ← readName? first s
    match name? with
    | none => .ok (done, rest)
    | some name =>
      match shape.field? name with
      | none =>
        let rest ← skipColon rest
        let rest ← skipValue rest
        readMembers fuel false done rest
      | some f =>
        if shape.has done f then .error .mismatch
        else
          let rest ← skipColon rest
          let (done, rest) ← shape.read done f rest
          readMembers fuel false done rest

/-- Reads the items of an array, one for each of the fields, and its end. -/
def readItems : (fields : List φ) → (first : Bool) → σ → List Char →
    Except Fault (σ × List Char)
  | [], _, done, s =>
    match skipSpace s with
    | [] => .error .truncated
    | c :: rest => if c = ']' then .ok (done, rest) else .error .malformed
  | f :: fields, first, done, s =>
    match skipSpace s with
    | [] => .error .truncated
    | c :: rest =>
      if c = ']' then .ok (done, rest)
      else if first then do
        let (done, rest) ← shape.read done f (c :: rest)
        readItems fields false done rest
      else if c = ',' then
        match skipSpace rest with
        | [] => .error .truncated
        | c :: rest =>
          if c = ']' then .error .malformed
          else do
            let (done, rest) ← shape.read done f (c :: rest)
            readItems fields false done rest
      else .error .malformed

/-- Reads a value of the shape, with `start` for a value that has no fields yet. -/
def readValue (start : σ) (s : List Char) : Except Fault (σ × List Char) :=
  match skipSpace s with
  | '\x7b' :: rest => shape.readMembers (rest.length + 1) true start rest
  | '[' :: rest => shape.readItems shape.fields true start rest
  | other => .error (refuse other)

end Shape

end InlineMarkup.Json
