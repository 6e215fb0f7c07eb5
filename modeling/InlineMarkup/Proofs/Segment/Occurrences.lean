import InlineMarkup.Proofs.Segment.Position
import InlineMarkup.Segment.Pass

/-!
# Where a search ends

A search that succeeds has found its pattern whole in one run, not before the place from which it
began (`Position.occurs_of_find?_eq_some`). The empty pattern is found at that place, or at the
start of the next run. Places are numbered from left to right (`Position.place`), so that a search
that goes on further and further comes to an end.
-/

namespace InlineMarkup

namespace Bytes

/-- What a search finds lies in the text. -/
theorem occurs_of_find?_eq_some {pattern text : Bytes} {n : Nat}
    (h : find? pattern text = some n) :
    n + pattern.length ≤ text.length ∧ pattern <+: text.drop n := by
  induction text generalizing n with
  | nil =>
    cases pattern with
    | nil =>
      cases h
      simp
    | cons a pattern => simp [find?, findFrom?] at h
  | cons b text ih =>
    rw [find?_cons] at h
    split at h
    · rename_i here
      cases h
      have starts := List.isPrefixOf_iff_prefix.1 here
      exact ⟨by simpa using starts.length_le, starts⟩
    · obtain ⟨m, found, rfl⟩ := Option.map_eq_some_iff.1 h
      obtain ⟨fits, starts⟩ := ih found
      refine ⟨?_, by simpa using starts⟩
      rw [List.length_cons]
      omega

end Bytes

namespace Position

open Segment

theorem le_advance (p : Position) (n : Nat) : p ≤ p.advance n :=
  .inr ⟨rfl, Nat.le_add_right _ _⟩

theorem lt_advance (p : Position) {n : Nat} (some : 0 < n) : p < p.advance n :=
  .inr ⟨rfl, Nat.lt_add_of_pos_right some⟩

/-- The pattern stands at `p`, whole in the run of that segment. -/
structure Occurs (segments : List (Segment Bytes)) (pattern : Bytes) (p : Position)
    (run : Bytes) : Prop where
  here : segments[p.segment]? = some (.plain run)
  fits : p.offset + pattern.length ≤ run.length
  starts : pattern <+: run.drop p.offset

variable {segments : List (Segment Bytes)} {pattern : Bytes} {p : Position}

theorem drop_eq_of_getElem? {s : Segment Bytes} {index : Nat} (here : segments[index]? = some s) :
    segments.drop index = s :: segments.drop (index + 1) := by
  obtain ⟨bound, eq⟩ := List.getElem?_eq_some_iff.1 here
  rw [List.drop_eq_getElem_cons bound, eq]

theorem within_of_getElem? {run : Bytes} (here : segments[p.segment]? = some (.plain run))
    (fits : p.offset ≤ run.length) : Within segments p where
  segment_le := Nat.le_of_lt (List.getElem?_eq_some_iff.1 here).1
  fits := by
    rw [drop_eq_of_getElem? here]
    exact fits

theorem Occurs.within {run : Bytes} (occurs : Occurs segments pattern p run) {n : Nat}
    (le : n ≤ pattern.length) : Within segments (p.advance n) := by
  have fits := occurs.fits
  have short : p.offset + n ≤ run.length := by omega
  exact within_of_getElem? occurs.here short

/-- Searching the segments from `index` on, of which the first is searched from `offset`. Only the
empty pattern is found at the end of a run by a search that begins past it. -/
theorem occurs_of_findIn?_eq_some {index offset : Nat} {l : List (Segment Bytes)}
    (hl : segments.drop index = l) (fits : pattern = [] → Fits offset l)
    (h : findIn? pattern index offset l = some p) :
    ⟨index, offset⟩ ≤ p ∧ (∃ run, Occurs segments pattern p run) ∧
      (pattern = [] → p = ⟨index, offset⟩ ∨ p.offset = 0) := by
  induction l generalizing index offset with
  | nil => cases h
  | cons s rest ih =>
    have next := drop_succ_of_drop_eq_cons hl
    -- what is found further on begins after this segment
    have further (h : findIn? pattern (index + 1) 0 rest = some p) :
        ⟨index, offset⟩ ≤ p ∧ (∃ run, Occurs segments pattern p run) ∧
          (pattern = [] → p = ⟨index, offset⟩ ∨ p.offset = 0) := by
      obtain ⟨le, occurs, empty⟩ := ih next (fun _ => fits_zero rest) h
      have later : (⟨index, offset⟩ : Position) ≤ ⟨index + 1, 0⟩ := .inl (Nat.lt_succ_self index)
      refine ⟨le_trans later le, occurs, fun none => .inr ?_⟩
      rcases empty none with rfl | zero
      · rfl
      · exact zero
    cases s with
    | span c cs => exact further h
    | plain run =>
      have here : segments[index]? = some (.plain run) := by
        rw [← List.head?_drop, hl, List.head?_cons]
      simp only [findIn?, Cursor.find?] at h
      cases found : Bytes.find? pattern (run.drop (min offset run.length)) with
      | none =>
        rw [found, Option.map_none] at h
        exact further h
      | some n =>
        rw [found, Option.map_some] at h
        cases h
        obtain ⟨inside, starts⟩ := Bytes.occurs_of_find?_eq_some found
        rw [List.length_drop] at inside
        have short : offset ≤ run.length := by
          by_cases none : pattern = []
          · exact fits none
          · have filled := List.length_pos_iff.2 none
            omega
        rw [Nat.min_eq_left short] at found inside starts ⊢
        rw [List.drop_drop] at starts
        refine ⟨.inr ⟨rfl, Nat.le_add_right _ _⟩, ⟨run, here, ?_, starts⟩, fun none => .inl ?_⟩
        · show offset + n + pattern.length ≤ run.length
          omega
        · rw [none, Bytes.find?_nil_left] at found
          cases found
          rfl

theorem occurs_of_find?_eq_some {origin : Position} (within : Within segments origin)
    (h : find? segments origin pattern = some p) :
    origin ≤ p ∧ (∃ run, Occurs segments pattern p run) ∧
      (pattern = [] → p = origin ∨ p.offset = 0) :=
  occurs_of_findIn?_eq_some rfl (fun _ => within.fits) h

end Position

/-! ## Counting places -/

namespace Segment

theorem plainSize_append (l l' : List (Segment Bytes)) :
    plainSize (l ++ l') = plainSize l + plainSize l' := by
  induction l with
  | nil => rw [List.nil_append, plainSize, Nat.zero_add]
  | cons s rest ih =>
    cases s with
    | plain run => rw [List.cons_append, plainSize, plainSize, ih, Nat.add_assoc]
    | span c cs => rw [List.cons_append, plainSize, plainSize, ih]

theorem plainSize_le_of_prefix {l l' : List (Segment Bytes)} (h : l <+: l') :
    plainSize l ≤ plainSize l' := by
  obtain ⟨rest, rfl⟩ := h
  rw [plainSize_append]
  exact Nat.le_add_right _ _

end Segment

namespace Position

open Segment

/-- The number of a place in a list, where each byte of a run counts, and each segment once
more for its end. -/
def place (segments : List (Segment Bytes)) (p : Position) : Nat :=
  plainSize (segments.take p.segment) + p.segment + p.offset

variable {segments : List (Segment Bytes)} {pattern : Bytes} {p q : Position}

theorem plainSize_take_add_le (within : Within segments p) :
    plainSize (segments.take p.segment) + p.offset ≤
      plainSize (segments.take (p.segment + 1)) := by
  have fits := within.fits
  rw [List.take_add_one, plainSize_append, ← List.head?_drop]
  match segments.drop p.segment, fits with
  | [], zero => exact Nat.add_le_add_left (Nat.le_of_eq zero) _
  | .span c cs :: rest, zero => exact Nat.add_le_add_left (Nat.le_of_eq zero) _
  | .plain run :: rest, short => exact Nat.add_le_add_left short _

theorem place_lt_place (within : Within segments p) (h : p < q) :
    place segments p < place segments q := by
  rcases h with lt | ⟨same, lt⟩
  · have here := plainSize_take_add_le within
    have later : plainSize (segments.take (p.segment + 1)) ≤
        plainSize (segments.take q.segment) :=
      plainSize_le_of_prefix (List.take_prefix_take_left lt)
    rw [place, place]
    omega
  · rw [place, place, same]
    omega

theorem place_le_place (within : Within segments p) (h : p ≤ q) :
    place segments p ≤ place segments q := by
  rcases lt_or_eq_of_le h with lt | rfl
  · exact Nat.le_of_lt (place_lt_place within lt)
  · exact Nat.le_refl _

theorem place_le (within : Within segments p) :
    place segments p ≤ plainSize segments + segments.length := by
  have here := plainSize_take_add_le within
  have whole := plainSize_le_of_prefix (List.take_prefix (p.segment + 1) segments)
  have inside := within.segment_le
  rw [place]
  omega

end Position

end InlineMarkup
