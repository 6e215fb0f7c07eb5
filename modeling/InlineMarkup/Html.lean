import InlineMarkup.Segment
import InlineMarkup.Style

/-!
# HTML

Segments as HTML. Every plain run is escaped exactly once, at whatever depth it stands; the tags
around spans are made from class names and styles alone, which are escaped as attributes. So no
text of an author can open, close or alter a tag.
-/

namespace InlineMarkup

namespace Html

/-- A character of an attribute in double quotes. -/
def escapeAttributeChar (c : Char) : List Char :=
  if c = '&' then "&amp;".toList
  else if c = '<' then "&lt;".toList
  else if c = '>' then "&gt;".toList
  else if c = '"' then "&quot;".toList
  else [c]

/-- A character of text, safe in attributes with quotes of either kind as well. -/
def escapeChar (c : Char) : List Char :=
  if c = '\'' then "&#x27;".toList else escapeAttributeChar c

/-- An attribute value in double quotes. -/
def escapeAttribute (s : String) : String :=
  String.ofList (s.toList.flatMap escapeAttributeChar)

/-- Text. -/
def escape (s : String) : String :=
  String.ofList (s.toList.flatMap escapeChar)

/-- The tag that opens a span of `c`. -/
def openTag (c : Convention) (keyword : String) : String :=
  "<span class=\"" ++ escapeAttribute c.className ++ "\" style=\"" ++
    escapeAttribute (Style.compile c.color c.effects keyword).display ++ "\">"

mutual

/-- One segment as HTML. -/
def renderOne (keyword : String) : Segment String → String
  | .plain run => escape run
  | .span c cs => openTag c keyword ++ renderAll keyword cs ++ "</span>"

/-- Segments as HTML. -/
def renderAll (keyword : String) : List (Segment String) → String
  | [] => ""
  | s :: rest => renderOne keyword s ++ renderAll keyword rest

end

/-- Segments as HTML in a rendering with the chosen keyword color. -/
def render (segments : List (Segment String)) (chosen : String) : String :=
  renderAll (Color.resolveKeyword chosen) segments

/-- One span as HTML in a rendering with the chosen keyword color. -/
def renderSpan (c : Convention) (children : List (Segment String)) (chosen : String) : String :=
  renderOne (Color.resolveKeyword chosen) (.span c children)

theorem escape_append (s t : String) : escape (s ++ t) = escape s ++ escape t := by
  simp [escape]

theorem renderAll_append (keyword : String) (l l' : List (Segment String)) :
    renderAll keyword (l ++ l') = renderAll keyword l ++ renderAll keyword l' := by
  induction l with
  | nil => simp [renderAll]
  | cons s rest ih => simp [renderAll, ih, String.append_assoc]

theorem render_resolveKeyword (segments : List (Segment String)) (chosen : String) :
    render segments (Color.resolveKeyword chosen) = render segments chosen := by
  rw [render, render, Color.resolveKeyword_resolveKeyword]

end Html

end InlineMarkup
