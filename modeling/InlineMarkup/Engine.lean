import InlineMarkup.Authoring.Request
import InlineMarkup.Html
import InlineMarkup.Segment.Parse

/-!
# Rendering from a store

Every rendering loads the store again, so that an edit counts from the next rendering on. Where a
store cannot be loaded, some functions use the built-in conventions alone and others fail. The
warnings of a rendering come with its result.
-/

namespace InlineMarkup.Engine

variable {σ : Type} [Store σ]

/-- The registry of a store. -/
def loadRegistry (s : σ) : Except StoreFault (Registry × List Warning) :=
  (Store.load s).map fun records => (.ofCollection records, Warning.ofCollection records)

/-- The registry of a store, or of the built-in conventions alone. -/
def registry (s : σ) : Registry × List Warning :=
  match loadRegistry s with
  | .ok found => found
  | .error fault => (.builtin, [.builtinsOnly fault])

/-- A text as HTML under a registry. -/
def render (registry : Registry) (text chosen : String) : String × List Warning :=
  (Html.render (Segment.parse registry text) chosen, Warning.ofKeyword chosen)

/-- A text as HTML. -/
def parse (s : σ) (text chosen : String) : String × List Warning :=
  let (active, before) := registry s
  let (html, after) := render active text chosen
  (html, before ++ after)

/-- A text as HTML, unless the store cannot be loaded. -/
def tryParse (s : σ) (text chosen : String) : Except StoreFault (String × List Warning) :=
  (loadRegistry s).map fun (active, before) =>
    let (html, after) := render active text chosen
    (html, before ++ after)

/-- The segments of a text. -/
def segments (s : σ) (text : String) : List (Segment String) × List Warning :=
  let (active, before) := registry s
  (Segment.parse active text, before)

/-- The segments of a text, unless the store cannot be loaded. -/
def trySegments (s : σ) (text : String) :
    Except StoreFault (List (Segment String) × List Warning) :=
  (loadRegistry s).map fun (active, before) => (Segment.parse active text, before)

/-- The custom conventions of a store, in the order of their keys: what the records describe that
name their own key. -/
def customs (s : σ) : Except StoreFault (List Convention) :=
  (Store.load s).map fun records =>
    (records.entries.filter fun e => e.2.key == e.1).filterMap fun e => e.2.toConvention.toOption

/-- What an author would get for a typed opening, a color and effects. -/
def propose (s : σ) (typed color : String) (effects : Effects) :
    Except AuthoringFault (Proposal × List Warning) :=
  match Draft.ofInput typed color effects with
  | .error fault => .error fault
  | .ok draft =>
    match Store.load s with
    | .error fault => .error (.store fault)
    | .ok records => .ok (draft.propose records, Warning.ofCollection records)

end InlineMarkup.Engine
