import InlineMarkup.Proofs.Segment.Atoms

/-!
# Joining runs

Runs that adjoin are joined by `Segment.fuse`, and empty runs left out by `Segment.prune`, both at
every depth. Joining changes no atom, and without empty runs it leaves all runs apart.
-/

namespace InlineMarkup

namespace Segment

variable {ρ α : Type}

/-- A segment put before others; two runs that come to adjoin are joined. -/
def join [Append ρ] : Segment ρ → List (Segment ρ) → List (Segment ρ)
  | plain run, plain run' :: rest => plain (run ++ run') :: rest
  | s, rest => s :: rest

mutual

/-- A segment with adjoining runs joined inside it. -/
def fuseOne [Append ρ] : Segment ρ → Segment ρ
  | plain run => plain run
  | span c cs => span c (fuse cs)

/-- Segments with adjoining runs joined, at every depth. -/
def fuse [Append ρ] : List (Segment ρ) → List (Segment ρ)
  | [] => []
  | s :: rest => join (fuseOne s) (fuse rest)

end

section Fuse

variable [Append ρ] {pieces : ρ → List α}
  (pieces_append : ∀ a b : ρ, pieces (a ++ b) = pieces a ++ pieces b)

include pieces_append

theorem atoms_fuse (l : List (Segment ρ)) : atoms pieces (fuse l) = atoms pieces l := by
  induction l using listInduction with
  | nil => rfl
  | plain run rest ih =>
    rw [atoms_plain, ← ih, fuse, fuseOne]
    match fuse rest with
    | [] => rfl
    | .plain run' :: rest' => simp [join, pieces_append]
    | .span c cs :: rest' => rfl
  | span c cs rest inner ih =>
    rw [atoms_span, ← ih, ← inner]
    rfl

/-- Where no run is empty, joining leaves the runs apart. -/
theorem normal_fuse {l : List (Segment ρ)}
    (filled : ∀ run, Inside (.plain run) l → pieces run ≠ []) : Normal pieces (fuse l) := by
  induction l using listInduction with
  | nil => exact .nil
  | plain run rest ih =>
    have here : pieces run ≠ [] := by
      apply filled
      exact inside_plain_cons_iff.2 (.inl rfl)
    have later : Normal pieces (fuse rest) := by
      apply ih
      intro run' inside
      exact filled run' (inside.tail _)
    rw [fuse, fuseOne]
    match fuse rest, later with
    | [], _ => exact normal_plain_cons.2 ⟨here, rfl, .nil⟩
    | .plain run' :: rest', later =>
      obtain ⟨-, apart, later⟩ := normal_plain_cons.1 later
      exact normal_plain_cons.2 ⟨by simp [pieces_append, here], apart, later⟩
    | .span c cs :: rest', later => exact normal_plain_cons.2 ⟨here, rfl, later⟩
  | span c cs rest inner ih =>
    have children : Normal pieces (fuse cs) := by
      apply inner
      intro run inside
      exact filled run (inside.child c rest)
    have later : Normal pieces (fuse rest) := by
      apply ih
      intro run inside
      exact filled run (inside.tail _)
    exact normal_span_cons.2 ⟨children, later⟩

end Fuse

/-! ## Empty runs -/

mutual

/-- A segment without the empty runs inside it, or nothing if it is one. -/
def pruneOne : Segment String → List (Segment String)
  | plain run => if run = "" then [] else [plain run]
  | span c cs => [span c (prune cs)]

/-- Segments without their empty runs, at every depth. -/
def prune : List (Segment String) → List (Segment String)
  | [] => []
  | s :: rest => pruneOne s ++ prune rest

end

end Segment

end InlineMarkup
