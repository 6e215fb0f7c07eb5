import InlineMarkup.Text.Ascii
import InlineMarkup.Text.Blank

/-!
# Effects

The effects a convention may add to its text, and sets of them. A set lists its effects in the
order of `Effect.all`, whatever the order in which they were put in.
-/

namespace InlineMarkup

/-- One visual effect. -/
inductive Effect where
  | glow
  | bold
  | flash
  | pulse
deriving DecidableEq, Repr

namespace Effect

/-- Every effect, in the order in which sets list them. -/
def all : List Effect := [glow, bold, flash, pulse]

/-- The name authors use. -/
def name : Effect → String
  | glow => "glow"
  | bold => "bold"
  | flash => "flash"
  | pulse => "pulse"

/-- The effect of a name, ignoring blanks around it and letter case. -/
def ofName? (s : String) : Option Effect :=
  all.find? fun e => Ascii.eqIgnoringCase e.name (Text.trim s)

theorem mem_all (e : Effect) : e ∈ all := by
  cases e <;> decide

theorem ofName?_name (e : Effect) : ofName? e.name = some e := by
  cases e <;> decide

end Effect

/-- A set of effects. -/
structure Effects where
  glow : Bool := false
  bold : Bool := false
  flash : Bool := false
  pulse : Bool := false
deriving DecidableEq, Repr

namespace Effects

/-- The empty set. -/
def none : Effects := {}

/-- The set with `e` added. -/
def insert (es : Effects) : Effect → Effects
  | .glow => { es with glow := true }
  | .bold => { es with bold := true }
  | .flash => { es with flash := true }
  | .pulse => { es with pulse := true }

/-- Whether `e` is in the set. -/
def contains (es : Effects) : Effect → Bool
  | .glow => es.glow
  | .bold => es.bold
  | .flash => es.flash
  | .pulse => es.pulse

/-- Whether the set is empty. -/
def isEmpty (es : Effects) : Bool :=
  es == none

/-- The effects of the set, in the order of `Effect.all`. -/
def toList (es : Effects) : List Effect :=
  Effect.all.filter es.contains

/-- The set of the listed effects. -/
def ofList (es : List Effect) : Effects :=
  es.foldl insert none

/-- The set as shown to an author. -/
def display (es : Effects) : String :=
  if es.isEmpty then "none" else "+".intercalate (es.toList.map Effect.name)

theorem contains_insert (es : Effects) (e e' : Effect) :
    (es.insert e).contains e' = (e == e' || es.contains e') := by
  cases e <;> cases e' <;> rfl

theorem mem_toList_iff {es : Effects} {e : Effect} : e ∈ es.toList ↔ es.contains e := by
  simp [toList, Effect.mem_all]

theorem ofList_toList (es : Effects) : ofList es.toList = es := by
  obtain ⟨g, b, f, p⟩ := es
  cases g <;> cases b <;> cases f <;> cases p <;> rfl

end Effects

end InlineMarkup
