import InlineMarkup.Convention

/-!
# Segments

Parsed text is a list of segments. A plain run was claimed by no convention; a span holds what
stood between the delimiters of its convention. Runs are bytes while text is parsed and texts
once it is shown, so the type of a run is a parameter.
-/

namespace InlineMarkup

/-- A piece of parsed text. -/
inductive Segment (ρ : Type) where
  /-- Text that no convention claimed. -/
  | plain (run : ρ)
  /-- What stood between the delimiters of a convention. -/
  | span (convention : Convention) (children : List (Segment ρ))
deriving Repr

namespace Segment

variable {ρ σ : Type}

/-- The convention of a span. -/
def convention? : Segment ρ → Option Convention
  | plain _ => none
  | span c _ => some c

/-- The segments inside a span; a plain run has none. -/
def children : Segment ρ → List (Segment ρ)
  | plain _ => []
  | span _ cs => cs

mutual

/-- The segment with `f` applied to its runs at every depth. -/
def map (f : ρ → σ) : Segment ρ → Segment σ
  | plain run => plain (f run)
  | span c cs => span c (mapAll f cs)

/-- The segments with `f` applied to their runs at every depth. -/
def mapAll (f : ρ → σ) : List (Segment ρ) → List (Segment σ)
  | [] => []
  | s :: rest => s.map f :: mapAll f rest

end

mutual

/-- The visible text of a segment, without any delimiters. -/
def text : Segment String → String
  | plain run => run
  | span _ cs => textAll cs

/-- The visible text of segments. -/
def textAll : List (Segment String) → String
  | [] => ""
  | s :: rest => s.text ++ textAll rest

end

theorem mapAll_eq_map (f : ρ → σ) (l : List (Segment ρ)) : mapAll f l = l.map (map f) := by
  induction l with
  | nil => rfl
  | cons s rest ih => simp [mapAll, ih]

theorem textAll_append (l l' : List (Segment String)) :
    textAll (l ++ l') = textAll l ++ textAll l' := by
  induction l with
  | nil => simp [textAll]
  | cons s rest ih => simp [textAll, ih, String.append_assoc]

end Segment

end InlineMarkup
