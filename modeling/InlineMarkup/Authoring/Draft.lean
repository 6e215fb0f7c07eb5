import InlineMarkup.Registry
import InlineMarkup.Store

/-!
# Drafts

A draft is a convention without a key, made from what an author typed.
-/

namespace InlineMarkup

/-- Why an edit is refused. -/
inductive AuthoringFault where
  | invalidPattern (typed : String)
  | invalidColor (color : String)
  /-- Other conventions use the same delimiters. -/
  | conflict (delimiters : Delimiters) (existing : List Convention)
  | builtinImmutable (key : String)
  | unknownKey (key : String)
  | store (fault : StoreFault)
deriving DecidableEq, Repr

/-- The message for a fault. -/
def AuthoringFault.message : AuthoringFault → String
  | invalidPattern typed =>
    "Invalid pattern " ++ Text.quoted typed ++ ": enter a 1-4 character opening sequence"
  | invalidColor color =>
    "Invalid color " ++ Text.quoted color ++ ": use #rgb, #rrggbb, inherit or keyword"
  | conflict delimiters existing =>
    "Delimiters " ++ delimiters.display ++ " are already used by " ++
      ", ".intercalate (existing.map (·.key))
  | builtinImmutable key => "Built-in convention " ++ Text.quoted key ++ " cannot be changed"
  | unknownKey key => "No custom convention with key " ++ Text.quoted key
  | store fault => fault.message

/-- A convention without a key. -/
structure Draft where
  delimiters : Delimiters
  color : Color
  effects : Effects
  usage : String
  description : String
  sample : String
deriving DecidableEq, Repr

namespace Draft

/-- The draft for a typed opening, a color and effects. -/
def ofInput (typed color : String) (effects : Effects) : Except AuthoringFault Draft :=
  match Delimiters.detect? typed with
  | none => .error (.invalidPattern typed)
  | some delimiters =>
    match Color.parse? color with
    | none => .error (.invalidColor color)
    | some color =>
      .ok {
        delimiters, color, effects
        usage := delimiters.enclose "text"
        description := ""
        sample := delimiters.enclose "example" }

/-- The convention of the draft under a key. -/
def toConvention (d : Draft) (key : String) : Convention where
  key := key
  delimiters := d.delimiters
  color := d.color
  effects := d.effects
  usage := d.usage
  description := d.description
  sample := d.sample

end Draft

end InlineMarkup
