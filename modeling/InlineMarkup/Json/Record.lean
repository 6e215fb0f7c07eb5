import InlineMarkup.Collection
import InlineMarkup.Json.Shape
import InlineMarkup.Json.Value

/-!
# Records and collections in JSON

A collection is one object from keys to records. A record has all its fields when it is written;
when it is read, the usage, description, sample and effects may be missing, and so may each
effect.
-/

namespace InlineMarkup.Json

/-- The set of effects as flags. -/
def ofEffects (es : Effects) : Value :=
  .object (Effect.all.map fun e => (e.name, .flag (es.contains e)))

/-- A field of a record that is a text. -/
inductive TextField where
  | key
  | usage
  | opening
  | closing
  | description
  | sample
  | color
deriving DecidableEq, Repr

/-- A field of a record. -/
inductive Field where
  | text (f : TextField)
  | effects
deriving DecidableEq, Repr

/-- The text of a field. -/
def TextField.get (r : Record) : TextField → String
  | key => r.key
  | usage => r.usage
  | opening => r.opening
  | closing => r.closing
  | description => r.description
  | sample => r.sample
  | color => r.color

namespace Field

/-- The fields in the order in which they are written. -/
def all : List Field :=
  [.text .key, .text .usage, .text .opening, .text .closing, .text .description, .text .sample,
    .text .color, .effects]

/-- The name of a field. -/
def name : Field → String
  | text .key => "key"
  | text .usage => "syntax"
  | text .opening => "opening"
  | text .closing => "closing"
  | text .description => "description"
  | text .sample => "example"
  | text .color => "color"
  | effects => "effects"

/-- The value of a field. -/
def get (r : Record) : Field → Value
  | text f => .text (f.get r)
  | effects => ofEffects r.effects

end Field

/-- A record as an object. -/
def ofRecord (r : Record) : Value :=
  .object (Field.all.map fun f => (f.name, f.get r))

/-- A collection as an object. -/
def ofCollection (c : Collection) : Value :=
  .object (c.entries.map fun e => (e.1, ofRecord e.2))

/-- How a set of effects is read: one flag for each effect. -/
def effectsShape : Shape Effect (List (Effect × Bool)) where
  fields := Effect.all
  name := Effect.name
  has flags e := (flags.lookup e).isSome
  read flags e s := (readFlag s).map fun (b, rest) => ((e, b) :: flags, rest)

/-- Reads a set of effects. -/
def readEffects (s : List Char) : Except Fault (Effects × List Char) :=
  (effectsShape.readValue [] s).map fun (flags, rest) =>
    (Effects.ofList ((flags.filter (·.2)).map (·.1)), rest)

/-- The fields of a record that were read so far. -/
structure Fields where
  texts : List (TextField × String) := []
  effects : Option Effects := none
deriving Repr

/-- How the fields of a record are read. -/
def recordShape : Shape Field Fields where
  fields := Field.all
  name := Field.name
  has done
    | .text f => (done.texts.lookup f).isSome
    | .effects => done.effects.isSome
  read done
    | .text f => fun s =>
      (readString s).map fun (t, rest) => ({ done with texts := (f, t) :: done.texts }, rest)
    | .effects => fun s =>
      (readEffects s).map fun (es, rest) => ({ done with effects := some es }, rest)

/-- The record with the given fields, if none of those that a record must have is missing. -/
def Fields.record? (done : Fields) : Option Record := do
  let key ← done.texts.lookup .key
  let opening ← done.texts.lookup .opening
  let closing ← done.texts.lookup .closing
  let color ← done.texts.lookup .color
  return {
    key, opening, closing, color
    usage := (done.texts.lookup .usage).getD ""
    description := (done.texts.lookup .description).getD ""
    sample := (done.texts.lookup .sample).getD ""
    effects := done.effects.getD {} }

/-- Reads a record. -/
def readRecord (s : List Char) : Except Fault (Record × List Char) := do
  let (done, rest) ← recordShape.readValue {} s
  match done.record? with
  | some r => .ok (r, rest)
  | none => .error .mismatch

/-- Reads the entries of a collection and its end, in at most `fuel` steps; a key that comes
again replaces the earlier record. -/
def readEntries : (fuel : Nat) → (first : Bool) → Collection → List Char →
    Except Fault (Collection × List Char)
  | 0, _, _, _ => .error .malformed
  | fuel + 1, first, done, s => do
    let (key?, rest) ← readName? first s
    match key? with
    | none => .ok (done, rest)
    | some key =>
      let rest ← skipColon rest
      let (r, rest) ← readRecord rest
      readEntries fuel false (done.insert key r) rest

/-- Reads a collection. -/
def readCollection (s : List Char) : Except Fault (Collection × List Char) :=
  match skipSpace s with
  | '\x7b' :: rest => readEntries (rest.length + 1) true .empty rest
  | other => .error (refuse other)

/-- Reads a whole text with `read`, where only blanks may follow the value. -/
def decodeWith {α : Type} (read : List Char → Except Fault (α × List Char)) (s : String) :
    Except Fault α := do
  let (a, rest) ← read s.toList
  if (skipSpace rest).isEmpty then .ok a else .error .malformed

/-- The record that a text holds. -/
def decodeRecord (s : String) : Except Fault Record :=
  decodeWith readRecord s

/-- The collection that a text holds. -/
def decodeCollection (s : String) : Except Fault Collection :=
  decodeWith readCollection s

/-- The text of a record. -/
def encodeRecord (r : Record) : String :=
  (ofRecord r).compact

/-- The text of a collection. -/
def encodeCollection (c : Collection) : String :=
  (ofCollection c).pretty

end InlineMarkup.Json
