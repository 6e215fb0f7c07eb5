import Mathlib.Order.Defs.PartialOrder
import InlineMarkup.Proofs.Segment.Scan
import InlineMarkup.Segment.Position

/-!
# Positions and the atoms that follow them

A position stands for the atoms from it on (`Position.remaining`). Copying the segments between
two positions gives the atoms between them (`remaining_eq_copy_append`), and looking for a pattern
splits the remaining atoms at its first occurrence (`split?_remaining_of_find?_eq_some`), since
runs that are apart leave no occurrence across the end of a run.
-/

namespace InlineMarkup

/-! ## Occurrences in one run -/

namespace Bytes

theorem find?_cons (pattern : Bytes) (b : UInt8) (text : Bytes) :
    find? pattern (b :: text) =
      if pattern.isPrefixOf (b :: text) then some 0 else (find? pattern text).map (· + 1) := by
  have later := findFrom?_add pattern text 0 1
  simp only [find?, findFrom?, later]

end Bytes

namespace Scan

open Segment

theorem after?_text_append {pattern text : Bytes} {beyond : List (Segment UInt8)}
    (filled : pattern ≠ []) (ends : startsPlain beyond = false) :
    after? pattern (text.map .plain ++ beyond) =
      if pattern.isPrefixOf text then some ((text.drop pattern.length).map .plain ++ beyond)
      else none := by
  induction pattern generalizing text with
  | nil => exact absurd rfl filled
  | cons a pattern ih =>
    match text, beyond, ends with
    | [], [], _ => simp [after?]
    | [], .span c cs :: beyond, _ => simp [after?]
    | b :: text, _, _ =>
      by_cases same : a = b
      · cases pattern with
        | nil => simp [after?, same]
        | cons a' pattern => simp [after?, same, ih (List.cons_ne_nil a' pattern)]
      · simp [after?, same]

/-- What a search in a run says about the atoms of the run and of what comes after it. -/
theorem split?_text_append {pattern text : Bytes} {beyond : List (Segment UInt8)}
    (filled : pattern ≠ []) (ends : startsPlain beyond = false) :
    match Bytes.find? pattern text with
    | some n => n + pattern.length ≤ text.length ∧
        split? pattern (text.map .plain ++ beyond) =
          some ((text.take n).map .plain, (text.drop (n + pattern.length)).map .plain ++ beyond)
    | none =>
      split? pattern (text.map .plain ++ beyond) =
        (split? pattern beyond).map fun (before, rest) => (text.map .plain ++ before, rest) := by
  induction text with
  | nil =>
    have none : Bytes.find? pattern [] = none := by simp [Bytes.find?, Bytes.findFrom?, filled]
    simp [none]
  | cons b text ih =>
    have start := @after?_text_append pattern (b :: text) beyond filled ends
    rw [Bytes.find?_cons]
    by_cases here : pattern.isPrefixOf (b :: text)
    · rw [if_pos here] at start ⊢
      have fits := (List.isPrefixOf_iff_prefix.1 here).length_le
      exact ⟨by simpa using fits, by simpa using split?_of_after?_eq_some start⟩
    · rw [if_neg here, List.map_cons, List.cons_append] at start
      rw [if_neg here, List.map_cons, List.cons_append, split?_cons_of_after?_eq_none start]
      cases found : Bytes.find? pattern text with
      | none =>
        simp only [found] at ih
        simp [ih, Function.comp_def]
      | some n =>
        simp only [found] at ih
        refine ⟨by have := ih.1; simp only [List.length_cons]; omega, ?_⟩
        rw [ih.2, show n + 1 + pattern.length = n + pattern.length + 1 by omega]
        simp

end Scan

namespace Position

open Segment Scan

variable {segments : List (Segment Bytes)}

/-! ## The order of positions -/

instance : LT Position where
  lt p q := p.segment < q.segment ∨ p.segment = q.segment ∧ p.offset < q.offset

instance (p q : Position) : Decidable (p < q) :=
  inferInstanceAs (Decidable (p.segment < q.segment ∨ p.segment = q.segment ∧ p.offset < q.offset))

theorem lt_iff {p q : Position} :
    p < q ↔ p.segment < q.segment ∨ p.segment = q.segment ∧ p.offset < q.offset := Iff.rfl

instance : PartialOrder Position where
  le_refl p := by simp [le_iff]
  le_trans p q r hpq hqr := by
    simp only [le_iff] at *
    omega
  le_antisymm p q hpq hqp := by
    cases p
    cases q
    simp only [le_iff, mk.injEq] at *
    omega
  lt_iff_le_not_ge p q := by
    simp only [le_iff, lt_iff]
    omega

theorem segment_le_of_le {p q : Position} (h : p ≤ q) : p.segment ≤ q.segment := by
  rw [le_iff] at h
  omega

/-! ## Places in a list -/

/-- Whether an offset is a place in the first segment: up to the end of a run, or before a span. -/
def Fits (offset : Nat) : List (Segment Bytes) → Prop
  | .plain run :: _ => offset ≤ run.length
  | _ => offset = 0

/-- A place in a list: a byte of a run or its end, the point before a span, or the end. -/
structure Within (segments : List (Segment Bytes)) (p : Position) : Prop where
  segment_le : p.segment ≤ segments.length
  fits : Fits p.offset (segments.drop p.segment)

/-- The atoms from a position on. -/
def remaining (segments : List (Segment Bytes)) (p : Position) : List (Segment UInt8) :=
  (atoms id (segments.drop p.segment)).drop p.offset

theorem fits_zero (l : List (Segment Bytes)) : Fits 0 l := by
  match l with
  | [] => rfl
  | .plain run :: _ => exact Nat.zero_le _
  | .span .. :: _ => rfl

theorem within_start (segments : List (Segment Bytes)) : Within segments start :=
  ⟨Nat.zero_le _, fits_zero _⟩

theorem within_endOf (segments : List (Segment Bytes)) : Within segments (endOf segments) :=
  ⟨Nat.le_refl _, fits_zero _⟩

theorem Within.fits_of_drop {p : Position} (within : Within segments p) {index : Nat}
    {l : List (Segment Bytes)} (hl : segments.drop index = l) (here : index = p.segment) :
    Fits p.offset l := by
  rw [← hl, here]
  exact within.fits

@[simp] theorem remaining_start (segments : List (Segment Bytes)) :
    remaining segments start = atoms id segments := rfl

@[simp] theorem remaining_endOf (segments : List (Segment Bytes)) :
    remaining segments (endOf segments) = [] := by
  simp [remaining, endOf]

theorem le_endOf {p : Position} (h : Within segments p) : p ≤ endOf segments := by
  have last := h.fits
  have low := h.segment_le
  simp only [le_iff, endOf]
  by_cases same : p.segment = segments.length
  · rw [same, List.drop_length] at last
    exact .inr ⟨same, Nat.le_of_eq last⟩
  · omega

/-! ## Copying -/

theorem drop_succ_of_drop_eq_cons {l rest : List (Segment Bytes)} {s : Segment Bytes} {n : Nat}
    (h : l.drop n = s :: rest) : l.drop (n + 1) = rest := by
  rw [← List.tail_drop, h, List.tail_cons]

theorem copyIn_of_lt {first last : Position} {index : Nat} (h : last.segment < index)
    (l : List (Segment Bytes)) : copyIn first last index l = [] := by
  cases l with
  | nil => rfl
  | cons s rest => rw [copyIn, if_pos h]

theorem take_drop_append_drop {α : Type} {text : List α} {m n : Nat} (mn : m ≤ n)
    (bound : n ≤ text.length) : (text.take n).drop m ++ text.drop n = text.drop m := by
  rw [← List.drop_append_of_le_length (by simp only [List.length_take]; omega),
    List.take_append_drop]

theorem Fits.le {offset : Nat} {s : Segment Bytes} {rest : List (Segment Bytes)}
    (h : Fits offset (s :: rest)) : offset ≤ (atomsOne id s).length := by
  cases s with
  | plain run =>
    have short : offset ≤ run.length := h
    simpa [atomsOne] using short
  | span c cs =>
    have zero : offset = 0 := h
    omega

/-- Where copying begins among the atoms of the segment numbered `index`. -/
def low (first : Position) (index : Nat) : Nat :=
  if index = first.segment then first.offset else 0

/-- Where copying ends among the atoms of the segment `s` numbered `index`. -/
def high (last : Position) (index : Nat) (s : Segment Bytes) : Nat :=
  if index = last.segment then last.offset else (atomsOne id s).length

section CopyOne

variable {first last : Position} {index : Nat} {s : Segment Bytes} {rest : List (Segment Bytes)}

theorem high_le (fits : index = last.segment → Fits last.offset (s :: rest)) :
    high last index s ≤ (atomsOne id s).length := by
  unfold high
  split
  · rename_i here
    exact (fits here).le
  · exact Nat.le_refl _

theorem low_le_high (le : first ≤ last)
    (fits : index = first.segment → Fits first.offset (s :: rest)) :
    low first index ≤ high last index s := by
  unfold low high
  split
  · rename_i atFirst
    split
    · rename_i atLast
      rcases le with lt | ⟨-, le⟩
      · omega
      · exact le
    · exact (fits atFirst).le
  · exact Nat.zero_le _

theorem copyOne_plain (first last : Position) (index : Nat) (run : Bytes) :
    copyOne first last index (.plain run) =
      if low first index < high last index (.plain run) then
        [.plain ((run.take (high last index (.plain run))).drop (low first index))]
      else [] := by
  simp [copyOne, low, high, atomsOne]

/-- A position in or before a span is before the point that stands for it. -/
theorem le_point {c : Convention} {cs : List (Segment Bytes)} (above : first.segment ≤ index)
    (fits : index = first.segment → Fits first.offset (.span c cs :: rest)) :
    first ≤ ⟨index, 0⟩ := by
  rcases Nat.lt_or_eq_of_le above with lt | same
  · exact .inl lt
  · exact .inr ⟨same, Nat.le_of_eq (fits same.symm)⟩

/-- Of the atoms of one segment, copying takes those from where it begins to where it ends. -/
theorem atoms_copyOne (above : first.segment ≤ index) (below : index ≤ last.segment)
    (fitsFirst : index = first.segment → Fits first.offset (s :: rest))
    (fitsLast : index = last.segment → Fits last.offset (s :: rest)) :
    atoms id (copyOne first last index s) =
      ((atomsOne id s).take (high last index s)).drop (low first index) := by
  cases s with
  | plain run =>
    rw [copyOne_plain]
    split
    · simp [atomsOne]
    · rw [List.drop_eq_nil_of_le (by rw [List.length_take]; omega)]
      rfl
  | span c cs =>
    have begun := le_point above fitsFirst
    have zero : low first index = 0 := by
      unfold low
      split
      · rename_i atFirst
        exact fitsFirst atFirst
      · rfl
    rw [zero, List.drop_zero]
    rcases Nat.lt_or_eq_of_le below with lt | same
    · have whole : high last index (.span c cs) = 1 := if_neg (by omega)
      rw [copyOne, if_pos ⟨begun, lt⟩, whole]
      rfl
    · have nothing : high last index (.span c cs) = 0 := by
        rw [high, if_pos same]
        exact fitsLast same
      rw [copyOne, if_neg (by omega), nothing]
      rfl

end CopyOne

/-- From any segment on, copying takes the atoms up to the last position and leaves the rest. -/
theorem atoms_copyIn {first last : Position} (le : first ≤ last) {index k : Nat}
    {l : List (Segment Bytes)} (above : first.segment ≤ index) (hk : last.segment = index + k)
    (bound : k ≤ l.length) (fitsFirst : index = first.segment → Fits first.offset l)
    (fitsLast : Fits last.offset (l.drop k)) :
    (atoms id l).drop (low first index) =
      atoms id (copyIn first last index l) ++ (atoms id (l.drop k)).drop last.offset := by
  induction l generalizing index k with
  | nil => simp [copyIn]
  | cons s rest ih =>
    have fitsHere : index = last.segment → Fits last.offset (s :: rest) := by
      intro same
      rw [show k = 0 by omega] at fitsLast
      exact fitsLast
    have ordered := low_le_high le fitsFirst
    have inside := high_le fitsHere
    rw [copyIn, if_neg (by omega), atoms_append,
      atoms_copyOne above (by omega) fitsFirst fitsHere, atoms,
      List.drop_append_of_le_length (by omega)]
    cases k with
    | zero =>
      have ends : high last index s = last.offset := if_pos hk.symm
      rw [ends] at ordered inside ⊢
      rw [copyIn_of_lt (by omega), atoms_nil, List.append_nil, List.drop_zero, atoms,
        List.drop_append_of_le_length inside, ← List.append_assoc,
        take_drop_append_drop ordered inside]
    | succ k =>
      have whole : high last index s = (atomsOne id s).length := if_neg (by omega)
      have later := @ih (index + 1) k (by omega) (by omega) (Nat.le_of_succ_le_succ bound)
        (by omega) fitsLast
      have fresh : low first (index + 1) = 0 := if_neg (by omega)
      rw [fresh, List.drop_zero] at later
      rw [whole, List.take_length, List.drop_succ_cons, List.append_assoc, ← later]

/-- The atoms from one position on are those of the copy up to another, and those from there on. -/
theorem remaining_eq_copy_append {first last : Position} (hfirst : Within segments first)
    (hlast : Within segments last) (le : first ≤ last) :
    remaining segments first =
      atoms id (copy segments first last) ++ remaining segments last := by
  obtain ⟨k, hk⟩ := Nat.exists_eq_add_of_le (segment_le_of_le le)
  have bound : k ≤ (segments.drop first.segment).length := by
    have := hlast.segment_le
    rw [List.length_drop]
    omega
  have fits := hlast.fits
  unfold remaining copy
  rw [hk, ← List.drop_drop] at fits ⊢
  have copied := atoms_copyIn le (Nat.le_refl _) hk bound (fun _ => hfirst.fits) fits
  rw [low, if_pos rfl] at copied
  exact copied

/-! ## The shape of copies -/

theorem separated_drop {l : List (Segment Bytes)} (h : Separated id l) (n : Nat) :
    Separated id (l.drop n) := by
  induction n generalizing l with
  | zero => exact h
  | succ n ih =>
    cases l with
    | nil => exact h
    | cons s rest =>
      cases s with
      | plain run => exact ih h.2.2
      | span c cs => exact ih h

theorem span_mem_copyIn {first last : Position} {index : Nat} {l : List (Segment Bytes)}
    {c : Convention} {cs : List (Segment Bytes)} (h : .span c cs ∈ copyIn first last index l) :
    .span c cs ∈ l := by
  induction l generalizing index with
  | nil => exact h
  | cons s rest ih =>
    rw [copyIn] at h
    split at h
    · simp at h
    · rcases List.mem_append.1 h with h | h
      · cases s with
        | plain run =>
          simp only [copyOne] at h
          split at h <;> simp at h
        | span d ds =>
          simp only [copyOne] at h
          split at h
          · rw [List.mem_singleton.1 h]
            exact List.mem_cons_self
          · simp at h
      · exact List.mem_cons_of_mem _ (ih h)

/-- A copy is separated where its source is, and it starts with a run only where the source does. -/
theorem separated_copyIn {first last : Position} (hfirst : Within segments first)
    (hlast : Within segments last) {index : Nat} {l : List (Segment Bytes)}
    (hl : segments.drop index = l) (above : first.segment ≤ index) (apart : Separated id l) :
    Separated id (copyIn first last index l) ∧
      (startsPlain l = false → startsPlain (copyIn first last index l) = false) := by
  induction l generalizing index with
  | nil => exact ⟨trivial, fun _ => rfl⟩
  | cons s rest ih =>
    rw [copyIn]
    split
    · exact ⟨trivial, fun _ => rfl⟩
    · have next := drop_succ_of_drop_eq_cons hl
      cases s with
      | plain run =>
        obtain ⟨-, ends, apart⟩ := apart
        obtain ⟨tail, tailStart⟩ := ih next (by omega) apart
        refine ⟨?_, fun h => by cases h⟩
        have inside : high last index (.plain run) ≤ run.length := by
          simpa [atomsOne] using high_le (hlast.fits_of_drop hl)
        rw [copyOne_plain]
        split
        · refine ⟨?_, tailStart ends, tail⟩
          rw [id_eq, ne_eq, List.drop_eq_nil_iff, List.length_take]
          omega
        · exact tail
      | span c cs =>
        obtain ⟨tail, -⟩ := ih next (by omega) apart
        simp only [copyOne]
        split
        · exact ⟨tail, fun _ => rfl⟩
        · -- A span is left out only at the last position.
          rename_i out
          have begun := le_point above (hfirst.fits_of_drop hl)
          have atLast : last.segment < index + 1 := by
            have : ¬ index < last.segment := fun h => out ⟨begun, h⟩
            omega
          rw [copyIn_of_lt atLast]
          exact ⟨trivial, fun _ => rfl⟩

theorem separated_copy {first last : Position} (hfirst : Within segments first)
    (hlast : Within segments last) (apart : Separated id segments) :
    Separated id (copy segments first last) :=
  (separated_copyIn hfirst hlast rfl (Nat.le_refl _) (separated_drop apart first.segment)).1

theorem span_mem_copy {first last : Position} {c : Convention} {cs : List (Segment Bytes)}
    (h : .span c cs ∈ copy segments first last) : .span c cs ∈ segments :=
  List.mem_of_mem_drop (span_mem_copyIn h)

theorem normal_copy {first last : Position} (hfirst : Within segments first)
    (hlast : Within segments last) (normal : Normal id segments) :
    Normal id (copy segments first last) := by
  constructor
  · exact separated_copy hfirst hlast normal.separated
  · intro c cs mem
    apply normal.inner
    exact span_mem_copy mem

/-! ## Searching -/

@[simp] theorem advance_zero (p : Position) : p.advance 0 = p := rfl

/-- A place at which a search from `origin` found the pattern: the first occurrence among the
remaining atoms is there, and the whole of it lies in one run. -/
structure Found (segments : List (Segment Bytes)) (origin : Position) (pattern : Bytes)
    (p : Position) : Prop where
  le : origin ≤ p
  within : ∀ n ≤ pattern.length, Within segments (p.advance n)
  here : remaining segments p =
    pattern.map .plain ++ remaining segments (p.advance pattern.length)
  split : ∃ before, split? pattern (remaining segments origin) =
    some (before, remaining segments (p.advance pattern.length))

/-- What the answer of a search from `origin` says about the remaining atoms. -/
def Answers (segments : List (Segment Bytes)) (origin : Position) (pattern : Bytes) :
    Option Position → Prop
  | none => split? pattern (remaining segments origin) = none
  | some p => Found segments origin pattern p

section Search

variable {pattern : Bytes} {index offset : Nat}

/-- A search that goes on in the next segment answers what is answered there. -/
theorem Answers.of_next {answer : Option Position} {passed : List (Segment UInt8)}
    (answers : Answers segments ⟨index + 1, 0⟩ pattern answer)
    (pass : split? pattern (remaining segments ⟨index, offset⟩) =
      (split? pattern (remaining segments ⟨index + 1, 0⟩)).map
        fun (before, rest) => (passed ++ before, rest)) :
    Answers segments ⟨index, offset⟩ pattern answer := by
  cases answer with
  | none =>
    have missing : split? pattern (remaining segments ⟨index + 1, 0⟩) = none := answers
    show split? pattern (remaining segments ⟨index, offset⟩) = none
    rw [pass, missing, Option.map_none]
  | some p =>
    obtain ⟨le, within, here, before, split⟩ := answers
    have later : (⟨index, offset⟩ : Position) ≤ ⟨index + 1, 0⟩ := .inl (Nat.lt_succ_self index)
    refine ⟨le_trans later le, within, here, passed ++ before, ?_⟩
    rw [pass, split, Option.map_some]

theorem remaining_plain {run : Bytes} {rest : List (Segment Bytes)}
    (hl : segments.drop index = .plain run :: rest) (inside : offset ≤ run.length) :
    remaining segments ⟨index, offset⟩ = (run.drop offset).map .plain ++ atoms id rest := by
  simp [remaining, hl, List.drop_append, Nat.sub_eq_zero_of_le inside]

/-- An occurrence in a run is found if it is the first one from `offset` on. -/
theorem Found.of_run {run : Bytes} {rest : List (Segment Bytes)} {n : Nat}
    (hl : segments.drop index = .plain run :: rest)
    (bound : offset + n + pattern.length ≤ run.length)
    (split : split? pattern (remaining segments ⟨index, offset⟩) =
      some (((run.drop offset).take n).map .plain,
        remaining segments ⟨index, offset + n + pattern.length⟩)) :
    Found segments ⟨index, offset⟩ pattern ⟨index, offset + n⟩ where
  le := .inr ⟨rfl, Nat.le_add_right _ _⟩
  within m hm := by
    constructor
    · show index ≤ segments.length
      apply Nat.le_of_not_lt
      intro outside
      rw [List.drop_eq_nil_of_le (Nat.le_of_lt outside)] at hl
      cases hl
    · simp only [advance, hl, Fits]
      omega
  here := by
    have whole := eq_of_split?_eq_some split
    have cut : (run.drop offset).map Segment.plain =
        ((run.drop offset).take n).map .plain ++ (run.drop (offset + n)).map .plain := by
      rw [← List.map_append, ← List.drop_drop, List.take_append_drop]
    rw [remaining_plain hl (by omega), cut, List.append_assoc] at whole
    rw [remaining_plain hl (by omega)]
    exact List.append_cancel_left whole
  split := ⟨_, split⟩

/-- Searching the segments from `index` on, of which the first is searched from `offset`. -/
theorem answers_findIn? (filled : pattern ≠ []) {l : List (Segment Bytes)}
    (hl : segments.drop index = l) (apart : Separated id l) (fits : Fits offset l) :
    Answers segments ⟨index, offset⟩ pattern (findIn? pattern index offset l) := by
  induction l generalizing index offset with
  | nil => simp [Answers, findIn?, remaining, hl, split?_nil filled]
  | cons s rest ih =>
    have next := drop_succ_of_drop_eq_cons hl
    have after : remaining segments ⟨index + 1, 0⟩ = atoms id rest := by simp [remaining, next]
    cases s with
    | span c cs =>
      have zero : offset = 0 := fits
      have later := ih next apart (fits_zero rest)
      have pass : split? pattern (remaining segments ⟨index, offset⟩) =
          (split? pattern (remaining segments ⟨index + 1, 0⟩)).map
            fun (before, rest) => ([.span c (atoms id cs)] ++ before, rest) := by
        simp [remaining, hl, next, zero, split?_span filled]
      exact later.of_next pass
    | plain run =>
      have short : offset ≤ run.length := fits
      obtain ⟨-, ends, apart⟩ := apart
      have search := @split?_text_append pattern (run.drop offset) _ filled
        (apart.startsPlain_atoms.trans ends)
      simp only [findIn?, Cursor.find?, Nat.min_eq_left short]
      cases found : Bytes.find? pattern (run.drop offset) with
      | none =>
        simp only [found] at search
        rw [← remaining_plain hl short, ← after] at search
        have later := ih next apart (fits_zero rest)
        exact later.of_next search
      | some n =>
        simp only [found, List.length_drop, List.drop_drop] at search
        obtain ⟨bound, split⟩ := search
        have fit : offset + n + pattern.length ≤ run.length := by omega
        rw [← remaining_plain hl short, ← Nat.add_assoc, ← remaining_plain hl fit] at split
        exact Found.of_run hl fit split

end Search

variable {origin p : Position} {pattern : Bytes}

theorem answers_find? (apart : Separated id segments) (filled : pattern ≠ [])
    (within : Within segments origin) :
    Answers segments origin pattern (find? segments origin pattern) :=
  answers_findIn? filled rfl (separated_drop apart origin.segment) within.fits

theorem found_of_find?_eq_some (apart : Separated id segments) (filled : pattern ≠ [])
    (within : Within segments origin) (h : find? segments origin pattern = some p) :
    Found segments origin pattern p := by
  have answers := answers_find? apart filled within
  rw [h] at answers
  exact answers

theorem split?_remaining_of_find?_eq_none (apart : Separated id segments) (filled : pattern ≠ [])
    (within : Within segments origin) (h : find? segments origin pattern = none) :
    split? pattern (remaining segments origin) = none := by
  have answers := answers_find? apart filled within
  rw [h] at answers
  exact answers

/-- A search splits the remaining atoms into what was copied up to the occurrence and what
follows it. -/
theorem Found.split?_remaining (within : Within segments origin)
    (found : Found segments origin pattern p) :
    split? pattern (remaining segments origin) =
      some (atoms id (copy segments origin p), remaining segments (p.advance pattern.length)) := by
  obtain ⟨before, split⟩ := found.split
  have copied : remaining segments origin =
      atoms id (copy segments origin p) ++ remaining segments p :=
    remaining_eq_copy_append within (found.within 0 (Nat.zero_le _)) found.le
  have whole := eq_of_split?_eq_some split
  rw [← found.here, copied] at whole
  rw [split, List.append_cancel_right whole]

end Position

end InlineMarkup
