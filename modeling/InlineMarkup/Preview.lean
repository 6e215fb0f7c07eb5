import InlineMarkup.Segment
import InlineMarkup.Style

/-!
# Terminal preview

Segments as text for a terminal. A terminal has neither shadows nor animations, so a glow is
underlined, and flash and pulse blink. Text inside a span is set in the look of all the spans
around it, and every run of text puts the terminal back into its default state.
-/

namespace InlineMarkup

/-- How a terminal shows text. -/
structure Look where
  color : Option Rgb := none
  bold : Bool := false
  underline : Bool := false
  blink : Bool := false
deriving DecidableEq, Repr

namespace Look

/-- A control sequence that sets a graphic rendition. -/
def escape (code : String) : String := "\x1b[" ++ code ++ "m"

/-- The code of a foreground color. -/
def colorCode (c : Rgb) : String :=
  "38;2;" ++ toString c.red ++ ";" ++ toString c.green ++ ";" ++ toString c.blue

/-- Whether any attribute other than the color is set. -/
def hasAttribute (l : Look) : Bool := l.bold || l.underline || l.blink

/-- The codes that set a look, the color first. -/
def codes (l : Look) : List String :=
  l.color.toList.map colorCode ++ (if l.bold then ["1"] else []) ++
    (if l.underline then ["4"] else []) ++ (if l.blink then ["5"] else [])

/-- The codes that end a look. -/
def endCodes (l : Look) : List String :=
  if l.hasAttribute then ["0"] else if l.color.isSome then ["39"] else []

/-- Text in a look. -/
def write (l : Look) (s : String) : String :=
  String.join (l.codes.map escape) ++ s ++ String.join (l.endCodes.map escape)

/-- The look with an effect added. -/
def addEffect (l : Look) : Effect → Look
  | .glow => { l with underline := true }
  | .bold => { l with bold := true }
  | .flash => { l with blink := true }
  | .pulse => { l with blink := true }

/-- The look of a span of `c` inside the look `around`. A color that is not plain hex is left out
of account. -/
def ofSpan (c : Convention) (keyword : String) (around : Look) : Look :=
  let color := (c.color.resolve keyword).bind Rgb.ofHex?
  c.effects.toList.foldl addEffect { around with color := color.or around.color }

end Look

namespace Preview

mutual

/-- One segment inside the look of the spans around it, if there are any. -/
def renderOne (keyword : String) (around : Option Look) : Segment String → String
  | .plain run => match around with
    | none => run
    | some look => look.write run
  | .span c cs => renderAll keyword (some (.ofSpan c keyword (around.getD {}))) cs

/-- Segments inside the look of the spans around them, if there are any. -/
def renderAll (keyword : String) (around : Option Look) : List (Segment String) → String
  | [] => ""
  | s :: rest => renderOne keyword around s ++ renderAll keyword around rest

end

/-- Segments as one line for a terminal. -/
def render (segments : List (Segment String)) (chosen : String) : String :=
  renderAll chosen none segments ++ "\n"

theorem write_default (s : String) : Look.write {} s = s := by
  simp [Look.write, Look.codes, Look.endCodes, Look.hasAttribute, String.join]

end Preview

end InlineMarkup
