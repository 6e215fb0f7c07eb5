import Mathlib.Order.Bounds.Basic
import InlineMarkup.Proofs.Segment.Occurrences

/-!
# Leftmost occurrences

The places from a position on at which a pattern stands whole in one run are its
`Position.occurrences`. A search answers with the least of them, and with nothing only where there
are none (`Position.find?_leftmost`). It may begin anywhere: past the end of a run it goes on in the
next segment. What the spans hold makes no difference to it, for no occurrence is inside a span.
-/

namespace InlineMarkup

/-! ## Searching one run -/

theorem Bytes.exists_find?_of_prefix {pattern text : Bytes} {n : Nat}
    (starts : pattern <+: text.drop n) : ∃ m ≤ n, find? pattern text = some m := by
  induction text generalizing n with
  | nil =>
    rw [List.drop_nil, List.prefix_nil] at starts
    rw [starts, find?_nil_left]
    exact ⟨0, Nat.zero_le n, rfl⟩
  | cons b text ih =>
    rw [find?_cons]
    by_cases here : pattern.isPrefixOf (b :: text)
    · rw [if_pos here]
      exact ⟨0, Nat.zero_le n, rfl⟩
    · rw [if_neg here]
      cases n with
      | zero => exact absurd (List.isPrefixOf_iff_prefix.2 starts) here
      | succ n =>
        obtain ⟨m, le, found⟩ := ih starts
        rw [found]
        exact ⟨m + 1, Nat.succ_le_succ le, rfl⟩

/-- A pattern that stands in the text from a cursor on is found, there or before. -/
theorem Cursor.exists_find?_of_prefix {c : Cursor} {pattern : Bytes} {n : Nat} (le : c.offset ≤ n)
    (starts : pattern <+: c.text.drop n) : ∃ m ≤ n, c.find? pattern = some m := by
  have further : min c.offset c.text.length + (n - min c.offset c.text.length) = n := by omega
  rw [← further, ← List.drop_drop] at starts
  obtain ⟨m, before, found⟩ := Bytes.exists_find?_of_prefix starts
  refine ⟨min c.offset c.text.length + m, by omega, ?_⟩
  rw [find?, found, Option.map_some]

/-! ## Searching segments -/

namespace Segment

/-- The run of a plain segment. A span has none, whatever it holds. -/
def run? {ρ : Type} : Segment ρ → Option ρ
  | plain run => some run
  | span .. => none

theorem run?_eq_some_iff {ρ : Type} {s : Segment ρ} {run : ρ} :
    s.run? = some run ↔ s = .plain run := by
  cases s <;> simp [run?]

end Segment

namespace Position

open Segment

/-- The places from `origin` on at which the pattern stands, whole in one run. -/
def occurrences (segments : List (Segment Bytes)) (pattern : Bytes) (origin : Position) :
    Set Position :=
  {p | origin ≤ p ∧ ∃ run, Occurs segments pattern p run}

variable {segments : List (Segment Bytes)} {pattern : Bytes} {origin p : Position}

/-- Searching the segments from `index` on, of which the first is searched from `offset`. -/
theorem exists_findIn?_of_occurs {run : Bytes} (occurs : Occurs segments pattern p run)
    {index offset : Nat} {l : List (Segment Bytes)} (hl : segments.drop index = l)
    (le : ⟨index, offset⟩ ≤ p) : ∃ q ≤ p, findIn? pattern index offset l = some q := by
  induction l generalizing index offset with
  | nil =>
    have outside := List.drop_eq_nil_iff.1 hl
    have inside := (List.getElem?_eq_some_iff.1 occurs.here).1
    rw [le_iff] at le
    dsimp only at le
    omega
  | cons s rest ih =>
    rcases le with later | ⟨same, le⟩
    · -- whatever this segment answers comes before the occurrence
      have next : (⟨index + 1, 0⟩ : Position) ≤ p := by
        rw [le_iff]
        dsimp only at later ⊢
        omega
      obtain ⟨q, before, found⟩ := ih (drop_succ_of_drop_eq_cons hl) next
      cases s with
      | span c cs => exact ⟨q, before, found⟩
      | plain run' =>
        rw [findIn?]
        cases Cursor.find? ⟨run', offset⟩ pattern with
        | none => exact ⟨q, before, found⟩
        | some n => exact ⟨⟨index, n⟩, .inl later, rfl⟩
    · have here := occurs.here
      rw [← same, ← List.head?_drop, hl, List.head?_cons] at here
      cases here
      obtain ⟨n, before, found⟩ :=
        Cursor.exists_find?_of_prefix (c := ⟨run, offset⟩) le occurs.starts
      rw [findIn?, found]
      exact ⟨⟨index, n⟩, .inr ⟨same, before⟩, rfl⟩

theorem exists_find?_of_mem_occurrences (mem : p ∈ occurrences segments pattern origin) :
    ∃ q ≤ p, find? segments origin pattern = some q := by
  obtain ⟨le, run, occurs⟩ := mem
  exact exists_findIn?_of_occurs occurs rfl le

section Filled

variable (filled : pattern ≠ [])

include filled

theorem mem_occurrences_of_find? (h : find? segments origin pattern = some p) :
    p ∈ occurrences segments pattern origin := by
  obtain ⟨le, occurs, -⟩ := occurs_of_findIn?_eq_some rfl (fun empty => absurd empty filled) h
  exact ⟨le, occurs⟩

theorem isLeast_of_find? (h : find? segments origin pattern = some p) :
    IsLeast (occurrences segments pattern origin) p := by
  refine ⟨mem_occurrences_of_find? filled h, ?_⟩
  intro q mem
  obtain ⟨p', le, found⟩ := exists_find?_of_mem_occurrences mem
  rw [h] at found
  cases found
  exact le

theorem find?_eq_some_iff :
    find? segments origin pattern = some p ↔ IsLeast (occurrences segments pattern origin) p := by
  constructor
  · exact isLeast_of_find? filled
  · intro least
    obtain ⟨q, -, found⟩ := exists_find?_of_mem_occurrences least.1
    rw [found, (isLeast_of_find? filled found).unique least]

theorem find?_eq_none_iff :
    find? segments origin pattern = none ↔ occurrences segments pattern origin = ∅ := by
  rw [Set.eq_empty_iff_forall_notMem]
  constructor
  · intro none p mem
    obtain ⟨q, -, found⟩ := exists_find?_of_mem_occurrences mem
    rw [none] at found
    cases found
  · intro none
    cases found : find? segments origin pattern with
    | none => rfl
    | some p => exact absurd (mem_occurrences_of_find? filled found) (none p)

end Filled

/-- Where a pattern occurs is a matter of the runs. -/
theorem occurrences_congr {other : List (Segment Bytes)}
    (same : other.map run? = segments.map run?) :
    occurrences other pattern origin = occurrences segments pattern origin := by
  have runs (index : Nat) (run : Bytes) :
      other[index]? = some (.plain run) ↔ segments[index]? = some (.plain run) := by
    have read (l : List (Segment Bytes)) :
        l[index]? = some (.plain run) ↔ (l.map run?)[index]? = some (some run) := by
      rw [List.getElem?_map]
      simp [run?_eq_some_iff]
    rw [read, read, same]
  ext p
  apply and_congr_right
  intro le
  apply exists_congr
  intro run
  constructor
  · rintro ⟨here, fits, starts⟩
    exact ⟨(runs _ _).1 here, fits, starts⟩
  · rintro ⟨here, fits, starts⟩
    exact ⟨(runs _ _).2 here, fits, starts⟩

/-- A search finds the least place from `origin` on at which the pattern stands in a run, and it
fails only if there is no such place. What was found lies in its run, and what the spans hold does
not change it. -/
theorem find?_leftmost (segments : List (Segment Bytes)) (origin : Position) {pattern : Bytes}
    (filled : pattern ≠ []) :
    (∀ p, find? segments origin pattern = some p ↔
      IsLeast (occurrences segments pattern origin) p) ∧
    (find? segments origin pattern = none ↔ occurrences segments pattern origin = ∅) ∧
    (∀ p, find? segments origin pattern = some p →
      ∃ run, segments[p.segment]? = some (.plain run) ∧
        p.offset + pattern.length ≤ run.length) ∧
    ∀ other : List (Segment Bytes), other.map run? = segments.map run? →
      find? other origin pattern = find? segments origin pattern := by
  refine ⟨fun p => find?_eq_some_iff filled, find?_eq_none_iff filled, ?_, ?_⟩
  · intro p found
    obtain ⟨-, run, occurs⟩ := mem_occurrences_of_find? filled found
    exact ⟨run, occurs.here, occurs.fits⟩
  · intro other same
    apply Option.ext
    intro p
    rw [find?_eq_some_iff filled, find?_eq_some_iff filled, occurrences_congr same]

/-- From past the end of the first run on, the pattern stands in a span, which is not entered, and
at two places of the last run that overlap. Near the end of that run no more than its beginning
stands. -/
theorem find?_leftmost_overlapping :
    let segments : List (Segment Bytes) :=
      [.plain (Utf8.encode "é!!"), .span .exclamation [.plain (Utf8.encode "!!")],
        .plain (Utf8.encode "!ü!!!")]
    let hollow : List (Segment Bytes) :=
      [.plain (Utf8.encode "é!!"), .span .angleBrackets [], .plain (Utf8.encode "!ü!!!")]
    let pattern := Utf8.encode "!!"
    pattern ≠ [] ∧
      IsLeast (occurrences segments pattern ⟨0, 9⟩) ⟨2, 3⟩ ∧
      occurrences segments pattern ⟨2, 5⟩ = ∅ ∧
      (∃ run, segments[2]? = some (.plain run) ∧ 3 + pattern.length ≤ run.length) ∧
      find? hollow ⟨0, 9⟩ pattern = some ⟨2, 3⟩ := by
  intro segments hollow pattern
  have filled : pattern ≠ [] := by decide
  have found : find? segments ⟨0, 9⟩ pattern = some ⟨2, 3⟩ := by decide
  obtain ⟨least, -, fits, runs⟩ := find?_leftmost segments ⟨0, 9⟩ filled
  obtain ⟨-, missing, -⟩ := find?_leftmost segments ⟨2, 5⟩ filled
  exact ⟨filled, (least _).1 found, missing.1 (by decide), fits _ found,
    (runs hollow rfl).trans found⟩

end Position

end InlineMarkup
