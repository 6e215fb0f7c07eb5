import InlineMarkup.Convention
import InlineMarkup.Text.Quoted

/-!
# Records

A record is a custom convention as a store keeps it. Stores can be edited by hand, so a record
may hold anything: `Record.toConvention` checks it, and `Record.ofConvention` writes a
convention down.
-/

namespace InlineMarkup

/-- A custom convention as it is stored, unchecked. -/
structure Record where
  key : String
  usage : String := ""
  opening : String
  closing : String
  description : String := ""
  sample : String := ""
  color : String
  effects : Effects := {}
deriving DecidableEq, Repr

namespace Record

/-- Why a record is no custom convention. -/
inductive Fault where
  | invalidDelimiter (token : String)
  | invalidColor (color : String)
  | reservedKey (key : String)
deriving DecidableEq, Repr

/-- The message for a fault. -/
def Fault.message : Fault → String
  | invalidDelimiter token =>
    "delimiter " ++ Text.quoted token ++ " must be 1-4 printable ASCII characters"
  | invalidColor color =>
    "color " ++ Text.quoted color ++ " must be #rgb, #rrggbb, \"inherit\" or \"keyword\""
  | reservedKey key =>
    "key " ++ Text.quoted key ++ " is reserved for a built-in convention"

/-- The record of a convention. -/
def ofConvention (c : Convention) : Record where
  key := c.key
  usage := c.usage
  opening := c.opening
  closing := c.closing
  description := c.description
  sample := c.sample
  color := c.color.display
  effects := c.effects

/-- The convention a record describes. The key is checked first, then the opening, the closing
and the color. -/
def toConvention (r : Record) : Except Fault Convention :=
  if Convention.isBuiltinKey r.key then .error (.reservedKey r.key)
  else if !Delimiters.isToken r.opening then .error (.invalidDelimiter r.opening)
  else if !Delimiters.isToken r.closing then .error (.invalidDelimiter r.closing)
  else match Color.parse? r.color with
    | none => .error (.invalidColor r.color)
    | some color =>
      .ok {
        key := r.key
        delimiters := ⟨r.opening, r.closing⟩
        color
        effects := r.effects
        usage := r.usage
        description := r.description
        sample := r.sample }

theorem toConvention_eq_ok_iff {r : Record} {c : Convention} :
    r.toConvention = .ok c ↔
      Convention.isBuiltinKey r.key = false ∧ Delimiters.isToken r.opening ∧
        Delimiters.isToken r.closing ∧ Color.parse? r.color = some c.color ∧
        c = { key := r.key, delimiters := ⟨r.opening, r.closing⟩, color := c.color,
              effects := r.effects, usage := r.usage, description := r.description,
              sample := r.sample } := by
  unfold toConvention
  by_cases hk : Convention.isBuiltinKey r.key
  · simp [hk]
  by_cases ho : Delimiters.isToken r.opening
  · by_cases hc : Delimiters.isToken r.closing
    · cases hp : Color.parse? r.color with
      | none => simp [hk, ho, hc]
      | some color =>
        simp only [hk, ho, hc]
        constructor
        · intro h
          cases h
          simp
        · rintro ⟨-, -, -, hcolor, hcon⟩
          cases hcolor
          rw [hcon]
          simp
    · simp [hk, ho, hc]
  · simp [hk, ho]

end Record

end InlineMarkup
