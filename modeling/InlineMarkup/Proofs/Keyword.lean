import InlineMarkup.Html
import InlineMarkup.Preview
import InlineMarkup.Proofs.Segment.Atoms

/-!
# What the keyword color decides

The segments of a text decide a whole page but for gaps, one in the tag of each span that takes the
keyword color, and the chosen color decides what fills them (`Html.renderAll_eq_join`). Where no
span takes it, or two choices come to the same color, the page and the preview are the same.
-/

namespace InlineMarkup

open Segment

variable {chosen chosen' : String} {segments : List (Segment String)}

/-- No span among the segments gets a color from one choice and another from the other. -/
def Segment.SameColors (chosen chosen' : String) (segments : List (Segment String)) : Prop :=
  ∀ c cs, Inside (.span c cs) segments → c.color.resolve chosen = c.color.resolve chosen'

/-- Only the keyword color depends on the choice. -/
theorem Color.resolve_eq_of_ne_keyword {color : Color} (other : color ≠ .keyword)
    (chosen chosen' : String) : color.resolve chosen = color.resolve chosen' := by
  cases color with
  | literal hex => rfl
  | inherit => rfl
  | keyword => exact absurd rfl other

theorem Segment.sameColors_of_no_keyword
    (none : ∀ c cs, Inside (.span c cs) segments → c.color ≠ .keyword) :
    SameColors chosen chosen' segments :=
  fun c cs inside => Color.resolve_eq_of_ne_keyword (none c cs inside) chosen chosen'

theorem Segment.sameColors_of_resolveKeyword_eq
    (same : Color.resolveKeyword chosen = Color.resolveKeyword chosen') :
    SameColors chosen chosen' segments := by
  intro c cs inside
  cases color : c.color with
  | literal hex => rfl
  | inherit => rfl
  | keyword => rw [Color.resolve, Color.resolve, same]

/-- A style depends on the choice through the color that it resolves alone. -/
theorem Style.compile_congr {color : Color}
    (same : color.resolve chosen = color.resolve chosen') (effects : Effects) :
    compile color effects chosen = compile color effects chosen' := by
  rw [compile, compile, same]

namespace Html

/-- A piece of a page. -/
inductive Piece where
  /-- The segments decide the piece. -/
  | fixed (text : String)
  /-- The style of a span that takes the keyword color. -/
  | keywordStyle (effects : Effects)

/-- The piece as it is written for a chosen color. -/
def Piece.write (chosen : String) : Piece → String
  | fixed text => text
  | keywordStyle effects => escapeAttribute (Style.compile .keyword effects chosen).display

@[simp] theorem write_fixed (chosen text : String) : (Piece.fixed text).write chosen = text := rfl

/-- The style of a span of `c`. -/
def stylePiece (c : Convention) : Piece :=
  if c.color = .keyword then .keywordStyle c.effects
  else .fixed (escapeAttribute (Style.compile c.color c.effects Color.defaultKeyword).display)

/-- The tag that opens a span of `c`, up to its style. -/
def tagStart (c : Convention) : String :=
  "<span class=\"" ++ escapeAttribute c.className ++ "\" style=\""

mutual

/-- The pieces of one segment. -/
def piecesOne : Segment String → List Piece
  | .plain run => [.fixed (escape run)]
  | .span c cs =>
    [.fixed (tagStart c), stylePiece c, .fixed "\">"] ++ pieces cs ++ [.fixed "</span>"]

/-- The pieces of a page, whatever color is chosen. -/
def pieces : List (Segment String) → List Piece
  | [] => []
  | s :: rest => piecesOne s ++ pieces rest

end

theorem write_stylePiece (c : Convention) (chosen : String) :
    (stylePiece c).write chosen =
      escapeAttribute (Style.compile c.color c.effects chosen).display := by
  unfold stylePiece
  split
  · rename_i keyword
    rw [Piece.write, keyword]
  · rename_i other
    have same := Color.resolve_eq_of_ne_keyword other Color.defaultKeyword chosen
    rw [Piece.write, Style.compile_congr same]

theorem openTag_eq (c : Convention) (chosen : String) :
    openTag c chosen = tagStart c ++ (stylePiece c).write chosen ++ "\">" := by
  rw [write_stylePiece]
  rfl

/-- A page is its pieces, of which each gap is filled with a style for the chosen color. -/
theorem renderAll_eq_join (chosen : String) (segments : List (Segment String)) :
    renderAll chosen segments = String.join ((pieces segments).map (Piece.write chosen)) := by
  induction segments using Segment.listInduction with
  | nil => rfl
  | plain run rest ih =>
    simp [renderAll, renderOne, pieces, piecesOne, ih]
  | span c cs rest inner ih =>
    simp [renderAll, renderOne, openTag_eq, pieces, piecesOne, inner, ih, String.append_assoc]

theorem renderAll_congr (same : SameColors chosen chosen' segments) :
    renderAll chosen segments = renderAll chosen' segments := by
  induction segments using Segment.listInduction with
  | nil => rfl
  | plain run rest ih =>
    have later := ih fun c cs inside => same c cs (inside.tail (.plain run))
    rw [renderAll, renderAll, renderOne, renderOne, later]
  | span c cs rest inner ih =>
    have here := Style.compile_congr (same c cs (.here List.mem_cons_self)) c.effects
    have tag : openTag c chosen = openTag c chosen' := by
      rw [openTag_eq, openTag_eq, write_stylePiece, write_stylePiece, here]
    have content := inner fun d ds inside => same d ds (inside.child c rest)
    have later := ih fun d ds inside => same d ds (inside.tail (.span c cs))
    rw [renderAll, renderAll, renderOne, renderOne, tag, content, later]

/-- Resolving the color before the styles are compiled, as they do once more, is without effect. -/
theorem render_eq_renderAll (segments : List (Segment String)) (chosen : String) :
    render segments chosen = renderAll chosen segments := by
  have same := Color.resolveKeyword_resolveKeyword chosen
  exact renderAll_congr (sameColors_of_resolveKeyword_eq same)

end Html

namespace Preview

theorem renderAll_congr (same : SameColors chosen chosen' segments) (around : Option Look) :
    renderAll chosen around segments = renderAll chosen' around segments := by
  induction segments using Segment.listInduction generalizing around with
  | nil => rfl
  | plain run rest ih =>
    have here : renderOne chosen around (.plain run) = renderOne chosen' around (.plain run) := by
      cases around <;> rfl
    have later := ih fun c cs inside => same c cs (inside.tail (.plain run))
    rw [renderAll, renderAll, here, later]
  | span c cs rest inner ih =>
    have here := same c cs (.here List.mem_cons_self)
    have content := inner fun d ds inside => same d ds (inside.child c rest)
    have later := ih fun d ds inside => same d ds (inside.tail (.span c cs))
    have look : Look.ofSpan c chosen = Look.ofSpan c chosen' := by
      funext around
      rw [Look.ofSpan, Look.ofSpan, here]
    rw [renderAll, renderAll, renderOne, renderOne, look, content, later]

end Preview

/-- The chosen keyword color fills the gaps of a page and decides nothing else, neither of the page
nor, where no gap is filled differently, of the preview. -/
theorem render_of_keyword (segments : List (Segment String)) :
    (∀ chosen, Html.render segments chosen = Html.render segments (Color.resolveKeyword chosen)) ∧
      (∀ chosen, Html.render segments chosen =
        String.join ((Html.pieces segments).map (Html.Piece.write chosen))) ∧
      ∀ chosen chosen',
        (∀ c cs, Inside (.span c cs) segments → c.color ≠ .keyword) ∨
            Color.resolveKeyword chosen = Color.resolveKeyword chosen' →
          Html.render segments chosen = Html.render segments chosen' ∧
            Preview.render segments chosen = Preview.render segments chosen' := by
  refine ⟨fun chosen => (Html.render_resolveKeyword segments chosen).symm,
    fun chosen => ?_, ?_⟩
  · rw [Html.render_eq_renderAll, Html.renderAll_eq_join]
  intro chosen chosen' reason
  have same : SameColors chosen chosen' segments := by
    rcases reason with none | resolved
    · exact sameColors_of_no_keyword none
    · exact sameColors_of_resolveKeyword_eq resolved
  constructor
  · rw [Html.render_eq_renderAll, Html.render_eq_renderAll, Html.renderAll_congr same]
  · rw [Preview.render, Preview.render, Preview.renderAll_congr same]

/-- A span that takes the keyword color, under two choices of which one is no color, and beside it a
tree without such a span. -/
theorem render_of_keyword_nested :
    let glowing : Convention :=
      { Convention.exclamation with color := .keyword, effects := .ofList [.glow] }
    let plain : List (Segment String) :=
      [.span { Convention.angleBrackets with color := .inherit } [.plain "a"]]
    let nested : List (Segment String) :=
      [.span .squareBrackets [.span glowing plain, .plain "<b>"]]
    (Color.resolveKeyword "red; x" = Color.resolveKeyword "#ff00ff" ∧
        Html.render nested "red; x" = Html.render nested "#ff00ff" ∧
        Preview.render nested "red; x" = Preview.render nested "#ff00ff") ∧
      (∀ c cs, Inside (.span c cs) plain → c.color ≠ .keyword) ∧
        Html.render plain "#fff" = Html.render plain "#000" ∧
        Preview.render plain "#fff" = Preview.render plain "#000" := by
  intro glowing plain nested
  have resolved : Color.resolveKeyword "red; x" = Color.resolveKeyword "#ff00ff" := by decide
  have none : ∀ c cs, Inside (.span c cs) plain → c.color ≠ .keyword := by
    intro c cs inside
    simp only [plain, inside_span_cons_iff, inside_plain_cons_iff, not_inside_nil, span.injEq,
      reduceCtorEq, or_false] at inside
    rw [inside.1]
    decide
  obtain ⟨-, -, ofNested⟩ := render_of_keyword nested
  obtain ⟨-, -, ofPlain⟩ := render_of_keyword plain
  exact ⟨⟨resolved, ofNested _ _ (.inr resolved)⟩, none, ofPlain _ _ (.inl none)⟩

end InlineMarkup
