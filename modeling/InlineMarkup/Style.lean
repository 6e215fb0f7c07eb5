import InlineMarkup.Color
import InlineMarkup.Effect

/-!
# Styles

The style of a span is a short list of declarations that follows from the color and the effects
of its convention and from the keyword color of the rendering. Flash and pulse only name an
animation; `Style.keyframes` defines both animations once for a whole page.
-/

namespace InlineMarkup

namespace Style

/-- The properties a style may declare. -/
inductive Property where
  | color
  | textShadow
  | fontWeight
  | animation
deriving DecidableEq, Repr

/-- The name of a property in a style sheet. -/
def Property.name : Property → String
  | color => "color"
  | textShadow => "text-shadow"
  | fontWeight => "font-weight"
  | animation => "animation"

/-- A property and its value. -/
structure Declaration where
  property : Property
  value : String
deriving DecidableEq, Repr

/-- One declaration of a `style` attribute. -/
def Declaration.display (d : Declaration) : String :=
  d.property.name ++ ": " ++ d.value

end Style

/-- The declarations of a span, in order. -/
structure Style where
  declarations : List Style.Declaration := []
deriving DecidableEq, Repr

namespace Style

/-- The color of a glow whose text keeps the color in scope. -/
def currentColor : String := "currentColor"

/-- Three shadows of growing size. -/
def glowValue (color : String) : String :=
  "0 0 4px " ++ color ++ ", 0 0 8px " ++ color ++ ", 0 0 16px " ++ color

/-- The animation an effect runs, if it runs one. -/
def animation? : Effect → Option String
  | .flash => some "markup-flash 1s step-end infinite"
  | .pulse => some "markup-pulse 2s ease-in-out infinite"
  | _ => none

/-- The animations of the effects; they share one declaration, since only one would take effect. -/
def animations (effects : Effects) : List String :=
  effects.toList.filterMap animation?

/-- The style of a color and effects in a rendering with keyword color `chosen`. -/
def compile (color : Color) (effects : Effects) (chosen : String) : Style where
  declarations :=
    let resolved := color.resolve chosen
    (resolved.toList.map fun c => ⟨.color, c⟩)
      ++ (if effects.glow then [⟨.textShadow, glowValue (resolved.getD currentColor)⟩] else [])
      ++ (if effects.bold then [⟨.fontWeight, "bold"⟩] else [])
      ++ (if (animations effects).isEmpty then []
          else [⟨.animation, ", ".intercalate (animations effects)⟩])

/-- The text of a `style` attribute. -/
def display (s : Style) : String :=
  "; ".intercalate (s.declarations.map Declaration.display)

/-- Whether nothing is declared. -/
def isEmpty (s : Style) : Bool :=
  s.declarations.isEmpty

/-- The value declared for the property called `name`. -/
def get? (s : Style) (name : String) : Option String :=
  (s.declarations.find? fun d => d.property.name == name).map (·.value)

/-- The animations that flash and pulse name. -/
def keyframes : String :=
  "@keyframes markup-flash \x7b\n" ++
  "  0%, 100% \x7b opacity: 1; \x7d\n" ++
  "  50% \x7b opacity: 0; \x7d\n" ++
  "\x7d\n" ++
  "@keyframes markup-pulse \x7b\n" ++
  "  0%, 100% \x7b opacity: 1; \x7d\n" ++
  "  50% \x7b opacity: 0.4; \x7d\n" ++
  "\x7d\n"

theorem compile_resolveKeyword (color : Color) (effects : Effects) (chosen : String) :
    compile color effects (Color.resolveKeyword chosen) = compile color effects chosen := by
  cases color <;> simp [compile, Color.resolve, Color.resolveKeyword_resolveKeyword]

/-- A style declares the color that is resolved for it, if there is one. -/
theorem get?_color_compile (color : Color) (effects : Effects) (chosen : String) :
    (compile color effects chosen).get? "color" = color.resolve chosen := by
  obtain ⟨glow, bold, flash, pulse⟩ := effects
  cases resolved : color.resolve chosen with
  | some hex => simp [compile, get?, resolved, Property.name]
  | none =>
    cases glow <;> cases bold <;>
      simp [compile, get?, resolved, Property.name]

theorem isEmpty_compile_iff {color : Color} {effects : Effects} {chosen : String} :
    (compile color effects chosen).isEmpty ↔ color = .inherit ∧ effects = Effects.none := by
  obtain ⟨g, b, f, p⟩ := effects
  cases color <;> cases g <;> cases b <;> cases f <;> cases p <;>
    simp [compile, isEmpty, Color.resolve, Effects.none, animations, animation?, Effects.toList,
      Effect.all, Effects.contains]

end Style

end InlineMarkup
