import InlineMarkup.Segment
import InlineMarkup.Text.Search

/-!
# Positions in segments

A position names a place in a list of segments: a byte of a plain run or the end of the run, or
the point just before a span, which has offset zero. Looking for a pattern (`Position.find?`)
enters plain runs only and steps over spans. Copying (`Position.copy`) cuts the runs at the two
ends and takes whole spans.
-/

namespace InlineMarkup

/-- Byte `offset` of the segment numbered `segment`. -/
structure Position where
  segment : Nat
  offset : Nat
deriving DecidableEq, Repr

namespace Position

/-- The start of every list. -/
def start : Position := ⟨0, 0⟩

/-- The end of a list. -/
def endOf {ρ : Type} (segments : List (Segment ρ)) : Position := ⟨segments.length, 0⟩

/-- `n` bytes on in the same segment. -/
def advance (p : Position) (n : Nat) : Position :=
  { p with offset := p.offset + n }

/-- Positions are ordered by segment and then by offset. -/
instance : LE Position where
  le p q := p.segment < q.segment ∨ p.segment = q.segment ∧ p.offset ≤ q.offset

instance (p q : Position) : Decidable (p ≤ q) :=
  inferInstanceAs (Decidable (p.segment < q.segment ∨ p.segment = q.segment ∧ p.offset ≤ q.offset))

theorem le_iff {p q : Position} :
    p ≤ q ↔ p.segment < q.segment ∨ p.segment = q.segment ∧ p.offset ≤ q.offset := Iff.rfl

/-- The first occurrence of `pattern` in a plain run, where the segments are numbered from `index`
and the first of them is searched from `offset`. -/
def findIn? (pattern : Bytes) : (index offset : Nat) → List (Segment Bytes) → Option Position
  | _, _, [] => none
  | index, _, .span .. :: rest => findIn? pattern (index + 1) 0 rest
  | index, offset, .plain run :: rest =>
    match Cursor.find? ⟨run, offset⟩ pattern with
    | some found => some ⟨index, found⟩
    | none => findIn? pattern (index + 1) 0 rest

/-- The first occurrence of `pattern` in a plain run, not before `origin`. -/
def find? (segments : List (Segment Bytes)) (origin : Position) (pattern : Bytes) :
    Option Position :=
  findIn? pattern origin.segment origin.offset (segments.drop origin.segment)

/-- What lies between two positions in the segment numbered `index`. -/
def copyOne (first last : Position) (index : Nat) : Segment Bytes → List (Segment Bytes)
  | .plain run =>
    let low := if index = first.segment then first.offset else 0
    let high := if index = last.segment then last.offset else run.length
    if low < high then [.plain ((run.take high).drop low)] else []
  | .span c cs => if first ≤ ⟨index, 0⟩ ∧ index < last.segment then [.span c cs] else []

/-- What lies between two positions, where the segments are numbered from `index`. -/
def copyIn (first last : Position) : (index : Nat) → List (Segment Bytes) → List (Segment Bytes)
  | _, [] => []
  | index, s :: rest =>
    if last.segment < index then []
    else copyOne first last index s ++ copyIn first last (index + 1) rest

/-- The segments from `first` to `last`: cut runs and whole spans. -/
def copy (segments : List (Segment Bytes)) (first last : Position) : List (Segment Bytes) :=
  copyIn first last first.segment (segments.drop first.segment)

end Position

end InlineMarkup
