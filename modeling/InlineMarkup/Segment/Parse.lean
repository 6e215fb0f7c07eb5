import InlineMarkup.Registry
import InlineMarkup.Segment.Pass

/-!
# Parsing text

Text starts as one plain run, and each convention claims its spans in one pass, in matching order.
Nothing is an error: what no convention claims stays plain text.
-/

namespace InlineMarkup

namespace Segment

/-- The segments of a text that nothing has claimed from. -/
def ofBytes (text : Bytes) : List (Segment Bytes) :=
  if text.isEmpty then [] else [.plain text]

/-- The segments of bytes under the conventions, which take their turns in the listed order. -/
def parseBytes (conventions : List Convention) (text : Bytes) : List (Segment Bytes) :=
  conventions.foldl (fun segments c => pass c segments) (ofBytes text)

/-- The segments of a text under a registry. -/
def parse (registry : Registry) (text : String) : List (Segment String) :=
  mapAll Utf8.decode (parseBytes registry.conventions (Utf8.encode text))

theorem parseBytes_append (conventions later : List Convention) (text : Bytes) :
    parseBytes (conventions ++ later) text =
      later.foldl (fun segments c => pass c segments) (parseBytes conventions text) := by
  simp [parseBytes]

end Segment

end InlineMarkup
