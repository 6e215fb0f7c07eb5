import Mathlib.Data.List.Basic
import InlineMarkup.Proofs.Segment.Boundary
import InlineMarkup.Proofs.Segment.Fuse

/-!
# Copies

Copying the segments between two positions takes from each segment its share: what of it lies
between the positions (`Position.copy_eq_flatMap`). Two copies that meet at a position make one,
but for a run that is cut there and whose parts are to be joined again (`Position.spliced_copy`).
So copies neither drop nor repeat anything (`Position.copy_exact`).
-/

namespace InlineMarkup

namespace Segment

/-- Segments with the runs that adjoin joined. What the spans hold stays as it is. -/
def merged {ρ : Type} [Append ρ] (l : List (Segment ρ)) : List (Segment ρ) :=
  l.foldr join []

theorem merged_of_separated {ρ α : Type} [Append ρ] {pieces : ρ → List α} {l : List (Segment ρ)}
    (apart : Separated pieces l) : merged l = l := by
  induction l with
  | nil => rfl
  | cons s rest ih =>
    cases s with
    | plain run =>
      obtain ⟨-, ends, apart⟩ := apart
      have later : merged rest = rest := ih apart
      show join (.plain run) (merged rest) = .plain run :: rest
      rw [later]
      cases rest with
      | nil => rfl
      | cons t rest =>
        cases t with
        | plain run' => cases ends
        | span c cs => rfl
    | span c cs =>
      show .span c cs :: merged rest = .span c cs :: rest
      rw [ih apart]

theorem join_parts (u v : Bytes) (l : List (Segment Bytes)) :
    join (.plain u) (join (.plain v) l) = join (.plain (u ++ v)) l := by
  match l with
  | [] => rfl
  | .plain run :: rest => simp [join]
  | .span c cs :: rest => rfl

/-- The parts of a run are joined to the run. -/
theorem merged_parts (before after : List (Segment Bytes)) (u v : Bytes) :
    merged (before ++ .plain u :: .plain v :: after) =
      merged (before ++ .plain (u ++ v) :: after) := by
  unfold merged
  rw [List.foldr_append, List.foldr_append, List.foldr_cons, List.foldr_cons, List.foldr_cons,
    join_parts]

/-- The whole that two lists of segments make: one after the other, or with the last run of the one
and the first of the other as the parts of a run. -/
inductive Spliced (left right : List (Segment Bytes)) : List (Segment Bytes) → Prop where
  | between : Spliced left right (left ++ right)
  | inside {before after : List (Segment Bytes)} {u v : Bytes}
      (ends : left = before ++ [.plain u]) (begins : right = .plain v :: after) :
      Spliced left right (before ++ .plain (u ++ v) :: after)

section Spliced

variable {left right whole : List (Segment Bytes)}

theorem Spliced.append_left (h : Spliced left right whole) (l : List (Segment Bytes)) :
    Spliced (l ++ left) right (l ++ whole) := by
  cases h with
  | between =>
    rw [← List.append_assoc]
    exact .between
  | inside ends begins =>
    rw [← List.append_assoc]
    apply Spliced.inside
    · rw [ends, List.append_assoc]
    · exact begins

theorem Spliced.merged_eq (h : Spliced left right whole) :
    merged (left ++ right) = merged whole := by
  cases h with
  | between => rfl
  | inside ends begins =>
    rw [ends, begins, List.append_assoc]
    exact merged_parts _ _ _ _

/-- The two parts of a cut, and the whole cut. -/
theorem spliced_cut {run : Bytes} {low mid high : Nat} (first : low ≤ mid) (second : mid ≤ high)
    (inside : high ≤ run.length) (after : List (Segment Bytes)) :
    Spliced (if low < mid then [.plain ((run.take mid).drop low)] else [])
      ((if mid < high then [.plain ((run.take high).drop mid)] else []) ++ after)
      ((if low < high then [.plain ((run.take high).drop low)] else []) ++ after) := by
  rcases Nat.eq_or_lt_of_le first with rfl | some
  · rw [if_neg (Nat.lt_irrefl low)]
    exact .between
  rcases Nat.eq_or_lt_of_le second with rfl | more
  · rw [if_neg (Nat.lt_irrefl mid)]
    exact .between
  · have parts : (run.take high).drop low =
        (run.take mid).drop low ++ (run.take high).drop mid := by
      have bound : mid ≤ (run.take high).length := by
        rw [List.length_take]
        omega
      have cut := Position.take_drop_append_drop first bound
      rw [List.take_take, Nat.min_eq_left second] at cut
      exact cut.symm
    rw [if_pos some, if_pos more, if_pos (Nat.lt_trans some more), parts]
    exact .inside (List.nil_append _).symm rfl

end Spliced

end Segment

namespace Position

open Segment

variable {segments rest : List (Segment Bytes)} {s : Segment Bytes} {first last a b c : Position}
  {index : Nat}

/-! ## Copies that meet -/

theorem copyOne_congr_last (before : index < b.segment) (before' : index < c.segment)
    (s : Segment Bytes) : copyOne a b index s = copyOne a c index s := by
  cases s with
  | plain run =>
    have same : high b index (.plain run) = high c index (.plain run) := by
      rw [high, high, if_neg (by omega), if_neg (by omega)]
    rw [copyOne_plain, copyOne_plain, same]
  | span d ds => simp only [copyOne, before, before']

theorem copyIn_congr_first (above : a.segment < index) (above' : b.segment < index)
    (l : List (Segment Bytes)) : copyIn a c index l = copyIn b c index l := by
  induction l generalizing index with
  | nil => rfl
  | cons s rest ih =>
    have same : copyOne a c index s = copyOne b c index s := by
      cases s with
      | plain run =>
        have begins : low a index = low b index := by
          rw [low, low, if_neg (by omega), if_neg (by omega)]
        rw [copyOne_plain, copyOne_plain, begins]
      | span d ds => simp only [copyOne, le_iff, above, above', true_or]
    rw [copyIn, copyIn, same, ih (Nat.lt_succ_of_lt above) (Nat.lt_succ_of_lt above')]

/-- In the segment in which two copies meet, one takes what comes before and the other the rest. -/
theorem spliced_copyOne (ab : a ≤ b) (bc : b ≤ c) (fitsA : b.segment = a.segment →
      Fits a.offset (s :: rest)) (fitsB : Fits b.offset (s :: rest))
    (fitsC : b.segment = c.segment → Fits c.offset (s :: rest)) (after : List (Segment Bytes)) :
    Spliced (copyOne a b b.segment s) (copyOne b c b.segment s ++ after)
      (copyOne a c b.segment s ++ after) := by
  cases s with
  | plain run =>
    have begins : low b b.segment = b.offset := if_pos rfl
    have ends : high b b.segment (.plain run) = b.offset := if_pos rfl
    have left := low_le_high ab fitsA
    have right := low_le_high bc fun _ : b.segment = b.segment => fitsB
    have inside := high_le fitsC
    rw [ends] at left
    rw [begins] at right
    rw [copyOne_plain, copyOne_plain, copyOne_plain, begins, ends]
    exact spliced_cut left right (by simpa [atomsOne] using inside) after
  | span d ds =>
    have above := segment_le_of_le ab
    have pointA : a ≤ ⟨b.segment, 0⟩ := le_point above fitsA
    have pointB : b ≤ ⟨b.segment, 0⟩ := le_point (Nat.le_refl _) fun _ => fitsB
    have nothing : copyOne a b b.segment (.span d ds) = [] := if_neg (by omega)
    have same : copyOne b c b.segment (.span d ds) = copyOne a c b.segment (.span d ds) := by
      simp only [copyOne, pointA, pointB]
    rw [nothing, same]
    exact .between

/-- From any segment on up to the one in which two copies meet. -/
theorem spliced_copyIn (ab : a ≤ b) (bc : b ≤ c) (ha : Within segments a) (hb : Within segments b)
    (hc : Within segments c) {k : Nat} {l : List (Segment Bytes)} (hl : segments.drop index = l)
    (above : a.segment ≤ index) (hk : b.segment = index + k) :
    Spliced (copyIn a b index l) (copyIn b c b.segment (l.drop k)) (copyIn a c index l) := by
  have ordered := segment_le_of_le bc
  induction l generalizing index k with
  | nil =>
    rw [List.drop_nil]
    exact .between
  | cons s rest ih =>
    rw [copyIn, copyIn, if_neg (by omega), if_neg (by omega)]
    cases k with
    | zero =>
      obtain rfl : b.segment = index := hk
      rw [copyIn_of_lt (Nat.lt_succ_self _), List.append_nil, List.drop_zero, copyIn,
        if_neg (by omega), copyIn_congr_first (a := a) (b := b) (by omega) (Nat.lt_succ_self _)]
      exact spliced_copyOne ab bc (ha.fits_of_drop hl) (hb.fits_of_drop hl rfl)
        (hc.fits_of_drop hl) _
    | succ k =>
      rw [List.drop_succ_cons, copyOne_congr_last (b := b) (c := c) (by omega) (by omega)]
      have next := drop_succ_of_drop_eq_cons hl
      exact (ih next (by omega) (by omega)).append_left _

theorem spliced_copy (ab : a ≤ b) (bc : b ≤ c) (ha : Within segments a) (hb : Within segments b)
    (hc : Within segments c) :
    Spliced (copy segments a b) (copy segments b c) (copy segments a c) := by
  obtain ⟨k, hk⟩ := Nat.exists_eq_add_of_le (segment_le_of_le ab)
  have spliced := spliced_copyIn ab bc ha hb hc rfl (Nat.le_refl _) hk
  rw [List.drop_drop, ← hk] at spliced
  exact spliced

/-! ## The share of each segment -/

/-- What is copied of the segment `s` numbered `index`. -/
def share (first last : Position) (s : Segment Bytes) (index : Nat) : List (Segment Bytes) :=
  if first.segment ≤ index ∧ index ≤ last.segment then copyOne first last index s else []

theorem copyIn_eq_flatMap (above : first.segment ≤ index) (l : List (Segment Bytes)) :
    copyIn first last index l = (l.zipIdx index).flatMap fun x => share first last x.1 x.2 := by
  induction l generalizing index with
  | nil => rfl
  | cons s rest ih =>
    by_cases past : last.segment < index
    · rw [copyIn_of_lt past, eq_comm, List.flatMap_eq_nil_iff]
      intro x mem
      have later := List.le_snd_of_mem_zipIdx mem
      exact if_neg (by omega)
    · rw [copyIn, if_neg past, List.zipIdx_cons, List.flatMap_cons, ih (Nat.le_succ_of_le above),
        share, if_pos ⟨above, Nat.le_of_not_lt past⟩]

theorem copy_eq_flatMap (within : Within segments first) (last : Position) :
    copy segments first last = segments.zipIdx.flatMap fun x => share first last x.1 x.2 := by
  have before : ((segments.take first.segment).zipIdx.flatMap
      fun x => share first last x.1 x.2) = [] := by
    rw [List.flatMap_eq_nil_iff]
    intro x mem
    have earlier := List.snd_lt_add_of_mem_zipIdx mem
    rw [List.length_take] at earlier
    exact if_neg (by omega)
  have parts := @List.zipIdx_append _ (segments.take first.segment) (segments.drop first.segment) 0
  rw [List.take_append_drop, List.length_take, Nat.min_eq_left within.segment_le,
    Nat.zero_add] at parts
  rw [parts, List.flatMap_append, before, List.nil_append]
  exact copyIn_eq_flatMap (Nat.le_refl _) _

/-! ## What stands between two positions -/

/-- A byte of a run, or a span, stands at a position. -/
inductive Stands (segments : List (Segment Bytes)) : Position → Prop where
  | byte {index offset : Nat} {run : Bytes} (here : segments[index]? = some (.plain run))
      (inside : offset < run.length) : Stands segments ⟨index, offset⟩
  | span {index : Nat} {c : Convention} {cs : List (Segment Bytes)}
      (here : segments[index]? = some (.span c cs)) : Stands segments ⟨index, 0⟩

theorem stands_iff {p : Position} :
    Stands segments p ↔ ∃ s, segments[p.segment]? = some s ∧ p.offset < (atomsOne id s).length := by
  constructor
  · rintro (⟨here, inside⟩ | ⟨here⟩)
    · exact ⟨_, here, by simpa [atomsOne] using inside⟩
    · exact ⟨_, here, Nat.one_pos⟩
  · obtain ⟨index, offset⟩ := p
    rintro ⟨s, here, inside⟩
    cases s with
    | plain run => exact .byte here (by simpa [atomsOne] using inside)
    | span c cs =>
      obtain rfl : offset = 0 := Nat.lt_one_iff.1 inside
      exact .span here

/-- The spans whose points lie at or after `first` and before `last`, in order. -/
def spansBetween (segments : List (Segment Bytes)) (first last : Position) :
    List (Segment Bytes) :=
  segments.zipIdx.filterMap fun (s, index) =>
    if s.convention?.isSome ∧ first ≤ ⟨index, 0⟩ ∧ ⟨index, 0⟩ < last then some s else none

theorem le_iff_low_le (above : first.segment ≤ index) {offset : Nat} :
    first ≤ ⟨index, offset⟩ ↔ low first index ≤ offset := by
  rw [le_iff, low]
  split <;> dsimp only <;> omega

theorem lt_iff_lt_high (below : index ≤ last.segment) {offset : Nat}
    (inside : offset < (atomsOne id s).length) :
    ⟨index, offset⟩ < last ↔ offset < high last index s := by
  rw [lt_iff, high]
  split <;> dsimp only <;> omega

/-- A span is copied if its point lies between the positions. -/
theorem share_span {d : Convention} {ds : List (Segment Bytes)} (hlast : Within segments last)
    (here : segments[index]? = some (.span d ds)) (first : Position) :
    share first last (.span d ds) index =
      if first ≤ ⟨index, 0⟩ ∧ ⟨index, 0⟩ < last then [.span d ds] else [] := by
  have atLast (same : index = last.segment) : last.offset = 0 :=
    hlast.fits_of_drop (drop_eq_of_getElem? here) same
  have before : ⟨index, 0⟩ < last ↔ index < last.segment := by
    rw [lt_iff]
    dsimp only
    omega
  by_cases range : first.segment ≤ index ∧ index ≤ last.segment
  · rw [share, if_pos range, copyOne]
    simp only [before]
  · rw [share, if_neg range, if_neg]
    rw [before, le_iff]
    dsimp only
    omega

theorem filter_share (hlast : Within segments last) (here : segments[index]? = some s)
    (first : Position) :
    (share first last s index).filter (·.convention?.isSome) =
      (if s.convention?.isSome ∧ first ≤ ⟨index, 0⟩ ∧ ⟨index, 0⟩ < last then some s
        else none).toList := by
  cases s with
  | plain run =>
    have noSpan : (share first last (.plain run) index).filter (·.convention?.isSome) = [] := by
      rw [share, copyOne_plain]
      split
      · split <;> rfl
      · rfl
    rw [noSpan, if_neg (by simp [convention?])]
    rfl
  | span d ds =>
    rw [share_span hlast here]
    simp only [convention?, Option.isSome_some, true_and]
    split <;> rfl

/-- Of the spans, a copy holds those whose points lie between its ends, each of them once. -/
theorem filter_copy (hfirst : Within segments first) (hlast : Within segments last) :
    (copy segments first last).filter (·.convention?.isSome) =
      spansBetween segments first last := by
  rw [copy_eq_flatMap hfirst, List.filter_flatMap, spansBetween,
    List.filterMap_eq_flatMap_toList]
  apply List.flatMap_congr
  rintro ⟨s, index⟩ mem
  exact filter_share hlast (List.mem_zipIdx_iff_getElem?.1 mem) first

theorem share_eq_nil_iff (hlast : Within segments last) (here : segments[index]? = some s) :
    share first last s index = [] ↔
      ∀ offset < (atomsOne id s).length, first ≤ ⟨index, offset⟩ → ¬ ⟨index, offset⟩ < last := by
  cases s with
  | span d ds =>
    rw [share_span hlast here]
    simp [atomsOne]
  | plain run =>
    by_cases range : first.segment ≤ index ∧ index ≤ last.segment
    · obtain ⟨above, below⟩ := range
      rw [share, if_pos ⟨above, below⟩, copyOne_plain]
      constructor
      · intro nothing offset inside after before
        rw [le_iff_low_le above] at after
        rw [lt_iff_lt_high below inside] at before
        rw [if_pos (Nat.lt_of_le_of_lt after before)] at nothing
        cases nothing
      · intro none
        apply if_neg
        intro some
        have bound := high_le (hlast.fits_of_drop (drop_eq_of_getElem? here))
        have inside := Nat.lt_of_lt_of_le some bound
        apply none _ inside
        · exact (le_iff_low_le above).2 (Nat.le_refl _)
        · exact (lt_iff_lt_high below inside).2 some
    · rw [share, if_neg range]
      simp only [true_iff, le_iff, lt_iff]
      omega

/-- A copy is empty if nothing stands between its ends. -/
theorem copy_eq_nil_iff (hfirst : Within segments first) (hlast : Within segments last) :
    copy segments first last = [] ↔ ∀ p, first ≤ p → p < last → ¬ Stands segments p := by
  rw [copy_eq_flatMap hfirst, List.flatMap_eq_nil_iff]
  constructor
  · intro nothing p after before stands
    obtain ⟨s, here, inside⟩ := stands_iff.1 stands
    have none := nothing (s, p.segment) (List.mem_zipIdx_iff_getElem?.2 here)
    exact (share_eq_nil_iff hlast here).1 none p.offset inside after before
  · rintro none ⟨s, index⟩ mem
    have here := List.mem_zipIdx_iff_getElem?.1 mem
    apply (share_eq_nil_iff hlast here).2
    intro offset inside after before
    exact none ⟨index, offset⟩ after before (stands_iff.2 ⟨s, here, inside⟩)

theorem copy_start_endOf (filled : ∀ run, .plain run ∈ segments → run ≠ []) :
    copy segments start (endOf segments) = segments := by
  have whole : ∀ x ∈ segments.zipIdx, share start (endOf segments) x.1 x.2 = [x.1] := by
    rintro ⟨s, index⟩ mem
    have here := List.mem_zipIdx_iff_getElem?.1 mem
    have bound : index < segments.length := (List.getElem?_eq_some_iff.1 here).1
    cases s with
    | plain run =>
      have some := List.length_pos_iff.2 (filled run (List.mem_of_getElem? here))
      have begins : low start index = 0 := ite_self 0
      have ends : high (endOf segments) index (.plain run) = run.length := by
        have before : index ≠ (endOf segments).segment := Nat.ne_of_lt bound
        rw [high, if_neg before]
        simp [atomsOne]
      rw [share, if_pos ⟨Nat.zero_le _, Nat.le_of_lt bound⟩, copyOne_plain, begins, ends,
        if_pos some, List.take_length, List.drop_zero]
    | span d ds =>
      rw [share_span (within_endOf segments) here, if_pos]
      exact ⟨(le_iff_low_le (Nat.zero_le _)).2 (Nat.le_of_eq (ite_self 0)), .inl bound⟩
  rw [copy_eq_flatMap (within_start segments), List.flatMap_congr whole, ← List.map_eq_flatMap,
    List.zipIdx_map_fst]

/-- Copies take exactly what lies between two positions. Two that meet make one, once the parts of a
run that was cut are joined; from the start to the end everything is copied; of the spans, those
whose points lie between the ends, each of them once; and a copy is empty if neither a byte nor a
span stands between its ends. Where the ends are between characters, so are all cuts. -/
theorem copy_exact (ha : Within segments a) (hb : Within segments b) (hc : Within segments c)
    (ab : a ≤ b) (bc : b ≤ c) :
    merged (copy segments a b ++ copy segments b c) = merged (copy segments a c) ∧
    (Separated id segments →
      merged (copy segments a b ++ copy segments b c) = copy segments a c) ∧
    ((∀ run, .plain run ∈ segments → run ≠ []) →
      copy segments start (endOf segments) = segments) ∧
    (copy segments a b).filter (·.convention?.isSome) = spansBetween segments a b ∧
    (copy segments a b = [] ↔ ∀ p, a ≤ p → p < b → ¬ Stands segments p) ∧
    ∀ letters, Spelled letters segments → Aligned segments a → Aligned segments b →
      CleanCopy segments a b := by
  have whole := (spliced_copy ab bc ha hb hc).merged_eq
  refine ⟨whole, ?_, copy_start_endOf, filter_copy ha hb, copy_eq_nil_iff ha hb, ?_⟩
  · intro apart
    rw [whole]
    exact merged_of_separated (separated_copy ha hc apart)
  · intro letters spelled hfirst hlast
    exact cleanCopy_of_aligned spelled hfirst hlast ab

/-- The copies meet inside a run; the first begins inside another, and the second ends before a
span. -/
theorem copy_exact_around_span :
    let enclosed : Segment Bytes := .span .exclamation [.plain (Utf8.encode "x")]
    let segments : List (Segment Bytes) :=
      [.plain (Utf8.encode "aé"), enclosed, .plain (Utf8.encode "bç"), .span .angleBrackets []]
    let a : Position := ⟨0, 1⟩
    let b : Position := ⟨2, 1⟩
    let c : Position := ⟨3, 0⟩
    (Within segments a ∧ Within segments b ∧ Within segments c ∧ a ≤ b ∧ b ≤ c) ∧
      merged (copy segments a b ++ copy segments b c) =
        [.plain (Utf8.encode "é"), enclosed, .plain (Utf8.encode "bç")] ∧
      copy segments start (endOf segments) = segments ∧
      (copy segments a b).filter (·.convention?.isSome) = [enclosed] ∧
      copy segments a b ≠ [] ∧ CleanCopy segments a b := by
  intro enclosed segments a b c
  have ha : Within segments a := ⟨by decide, show 1 ≤ (Utf8.encode "aé").length by decide⟩
  have hb : Within segments b := ⟨by decide, show 1 ≤ (Utf8.encode "bç").length by decide⟩
  have hc : Within segments c := ⟨by decide, rfl⟩
  have ab : a ≤ b := by decide
  have bc : b ≤ c := by decide
  have apart : Separated id segments := ⟨by decide, rfl, by decide, rfl, trivial⟩
  have filled : ∀ run, .plain run ∈ segments → run ≠ [] := fun _ mem => apart.filled mem
  have spelled : Spelled "aébçx".toList segments := by
    intro run here
    simp only [segments, enclosed, inside_plain_cons_iff, inside_span_cons_iff, not_inside_nil,
      Segment.plain.injEq, reduceCtorEq, or_false, false_or] at here
    rcases here with rfl | rfl | rfl
    · exact ⟨"aé", rfl, by decide⟩
    · exact ⟨"x", rfl, by decide⟩
    · exact ⟨"bç", rfl, by decide⟩
  have hfirst : Aligned segments a := by
    refine ⟨ha, ?_⟩
    rintro run ⟨⟩
    exact .inr ⟨_, rfl, by decide⟩
  have hlast : Aligned segments b := by
    refine ⟨hb, ?_⟩
    rintro run ⟨⟩
    exact .inr ⟨_, rfl, by decide⟩
  obtain ⟨-, joined, whole, spans, empty, clean⟩ := copy_exact ha hb hc ab bc
  refine ⟨⟨ha, hb, hc, ab, bc⟩, joined apart, whole filled, spans, ?_, ?_⟩
  · intro nothing
    exact empty.1 nothing a (le_refl a) (by decide) (.byte rfl (by decide))
  · exact clean _ spelled hfirst hlast

end Position

end InlineMarkup
