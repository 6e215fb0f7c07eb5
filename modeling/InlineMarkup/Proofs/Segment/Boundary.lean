import InlineMarkup.Proofs.Segment.Characters
import InlineMarkup.Proofs.Segment.Occurrences

/-!
# Cuts between characters

A run is cut only between two of its characters. A delimiter that was found begins and ends at such
a place (`Position.aligned_of_find?`), although the search for it may have begun inside a
character; and copies between such places cut no character (`Position.cleanCopy_of_aligned`), so
that what they cut out spells a text again.
-/

namespace InlineMarkup

namespace Bytes

/-- A place between two characters of a text: its end, or where the first byte of one stands. -/
def IsBoundary (text : Bytes) (n : Nat) : Prop :=
  n = text.length ∨ ∃ b, text[n]? = some b ∧ b.IsUTF8FirstByte

/-- A range that may be cut out of a run. -/
structure Cut (run : Bytes) (low high : Nat) : Prop where
  ordered : low ≤ high
  inside : high ≤ run.length
  begins : IsBoundary run low
  ends : IsBoundary run high

end Bytes

namespace Utf8

open Bytes

theorem length_encode (s : String) : (encode s).length = s.rawEndPos.byteIdx := by
  rw [← List.size_toByteArray, toByteArray_encode]
  rfl

theorem isBoundary_iff_isValid {s : String} {n : Nat} :
    IsBoundary (encode s) n ↔ String.Pos.Raw.IsValid s ⟨n⟩ := by
  have byte (h : (⟨n⟩ : String.Pos.Raw) < s.rawEndPos) :
      (encode s)[n]? = some (s.getUTF8Byte ⟨n⟩ h) := by
    have inside : n < (encode s).length := by
      rw [length_encode]
      exact h
    have inArray : n < (encode s).toByteArray.size := by rwa [List.size_toByteArray]
    rw [List.getElem?_eq_getElem inside, ← List.getElem_toByteArray (h := inArray)]
    simp only [toByteArray_encode]
    rfl
  rw [String.Pos.Raw.isValid_iff_isUTF8FirstByte, IsBoundary, length_encode]
  constructor
  · rintro (last | ⟨b, here, first⟩)
    · exact .inl (String.Pos.Raw.ext last)
    · obtain ⟨inside, -⟩ := List.getElem?_eq_some_iff.1 here
      rw [length_encode] at inside
      rw [byte inside] at here
      cases here
      exact .inr ⟨inside, first⟩
  · rintro (last | ⟨inside, first⟩)
    · exact .inl (congrArg String.Pos.Raw.byteIdx last)
    · exact .inr ⟨_, byte inside, first⟩

/-- The boundaries of a text are the places at which it can be parted. -/
theorem isBoundary_encode_iff {s : String} {n : Nat} :
    IsBoundary (encode s) n ↔ ∃ t u, s = t ++ u ∧ n = (encode t).length := by
  rw [isBoundary_iff_isValid, String.Pos.Raw.isValid_iff_exists_append]
  simp only [length_encode, String.Pos.Raw.ext_iff]

/-- A text whose bytes begin those of another begins the other. -/
theorem exists_eq_append_of_encode_prefix {s t : String} (h : encode s <+: encode t) :
    ∃ u, t = s ++ u := by
  obtain ⟨rest, eq⟩ := h
  have bytes : Scan.encoded (t.toList.map .plain) =
      (Scan.encodedText s.toList).map .plain ++ rest.map .plain := by
    rw [Scan.encoded, Segment.atoms_map_plain, ← List.map_append]
    exact congrArg (List.map Segment.plain) eq.symm
  have found := Scan.after?_encoded s.toList (t.toList.map .plain)
  rw [Scan.after?_eq_some_iff.2 bytes] at found
  obtain ⟨atoms, starts, -⟩ := Option.map_eq_some_iff.1 found.symm
  obtain ⟨first, later, parted, same, -⟩ :=
    List.map_eq_append_iff.1 (Scan.after?_eq_some_iff.1 starts)
  have first_eq : first = s.toList :=
    (List.map_inj_right fun _ _ eq => Segment.plain_injective eq).1 same
  refine ⟨.ofList later, String.toList_inj.1 ?_⟩
  rw [parted, first_eq, String.toList_append, String.toList_ofList]

/-- A delimiter that stands in a text begins at a boundary. -/
theorem isBoundary_of_starts {s t : String} {n : Nat} (filled : t ≠ "")
    (starts : encode t <+: (encode s).drop n) : IsBoundary (encode s) n := by
  obtain ⟨ch, later, eq⟩ := List.exists_cons_of_ne_nil (Scan.toList_ne_nil filled)
  obtain ⟨first, rest, bytes, isFirst, -⟩ := encodeChar_eq_cons ch
  obtain ⟨after, whole⟩ := starts
  rw [encode, eq, List.flatMap_cons, bytes] at whole
  refine .inr ⟨first, ?_, isFirst⟩
  rw [← List.head?_drop, ← whole]
  rfl

/-- A delimiter that begins at a boundary of a text ends at one. -/
theorem isBoundary_add {s t : String} {n : Nat} (begins : IsBoundary (encode s) n)
    (starts : encode t <+: (encode s).drop n) :
    IsBoundary (encode s) (n + (encode t).length) := by
  obtain ⟨before, rest, rfl, rfl⟩ := isBoundary_encode_iff.1 begins
  rw [encode_append, List.drop_left] at starts
  obtain ⟨after, rfl⟩ := exists_eq_append_of_encode_prefix starts
  refine isBoundary_encode_iff.2 ⟨before ++ t, after, by rw [String.append_assoc], ?_⟩
  rw [encode_append, List.length_append]

/-- What is cut out of a text is a text again. -/
theorem exists_of_cut {s : String} {low high : Nat} (cut : Cut (encode s) low high) :
    ∃ t, ((encode s).take high).drop low = encode t ∧ t.toList ⊆ s.toList := by
  obtain ⟨before, rest, parted, rfl⟩ := isBoundary_encode_iff.1 cut.begins
  obtain ⟨upTo, after, rfl, rfl⟩ := isBoundary_encode_iff.1 cut.ends
  have begins : encode before <+: encode upTo := by
    refine List.prefix_of_prefix_length_le ?_ (List.prefix_append _ (encode after)) cut.ordered
    rw [← encode_append, parted, encode_append]
    exact List.prefix_append _ _
  obtain ⟨t, rfl⟩ := exists_eq_append_of_encode_prefix begins
  refine ⟨t, ?_, ?_⟩
  · rw [encode_append (before ++ t), List.take_left, encode_append, List.drop_left]
  · intro ch mem
    simp [mem]

/-- Between ASCII characters every place is a boundary. -/
theorem isBoundary_of_ascii {s : String} (ascii : ∀ ch ∈ s.toList, ch.val ≤ 127) {n : Nat}
    (le : n ≤ (encode s).length) : IsBoundary (encode s) n := by
  rcases Nat.lt_or_eq_of_le le with inside | last
  · refine .inr ⟨(encode s)[n], List.getElem?_eq_getElem inside, ?_⟩
    obtain ⟨ch, mem, byte⟩ := List.mem_flatMap.1 (List.getElem_mem inside)
    obtain ⟨first, later, bytes, isFirst, -⟩ := encodeChar_eq_cons ch
    have one : (String.utf8EncodeChar ch).length = 1 := by
      rw [String.length_utf8EncodeChar, Char.utf8Size_eq_one_iff]
      exact ascii ch mem
    rw [bytes, List.length_cons, Nat.add_eq_right, List.length_eq_zero_iff] at one
    rw [bytes, one, List.mem_singleton] at byte
    rw [byte]
    exact isFirst
  · exact .inl last

end Utf8

namespace Segment

/-- Every run, at whatever depth, spells a text in the given letters. -/
def Spelled (letters : List Char) (l : List (Segment Bytes)) : Prop :=
  ∀ run, Inside (.plain run) l → ∃ s : String, run = Utf8.encode s ∧ s.toList ⊆ letters

theorem Spelled.append_span {letters : List Char} {l cs rest : List (Segment Bytes)}
    (left : Spelled letters l) (inside : Spelled letters cs) (right : Spelled letters rest)
    (c : Convention) : Spelled letters (l ++ .span c cs :: rest) := by
  intro run here
  rw [inside_append_iff, inside_span_cons_iff] at here
  rcases here with here | here | here | here
  · exact left run here
  · cases here
  · exact inside run here
  · exact right run here

theorem Spelled.getElem? {letters : List Char} {l : List (Segment Bytes)}
    (spelled : Spelled letters l) {index : Nat} {run : Bytes}
    (here : l[index]? = some (.plain run)) :
    ∃ s : String, run = Utf8.encode s ∧ s.toList ⊆ letters :=
  spelled run (.here (List.mem_of_getElem? here))

end Segment

namespace Position

open Segment

/-- The copy from `first` to `last` cuts every run that it meets between two characters of the
run, or at its ends. -/
def CleanCopy (segments : List (Segment Bytes)) (first last : Position) : Prop :=
  ∀ index run, segments[index]? = some (.plain run) →
    first.segment ≤ index → index ≤ last.segment →
    run.Cut (if index = first.segment then first.offset else 0)
      (if index = last.segment then last.offset else run.length)

/-- A place in a list that is inside no character. -/
structure Aligned (segments : List (Segment Bytes)) (p : Position) : Prop
    extends Within segments p where
  between : ∀ run, segments[p.segment]? = some (.plain run) → run.IsBoundary p.offset

variable {letters : List Char} {segments : List (Segment Bytes)} {first last p q : Position}

section Spelled

variable (spelled : Spelled letters segments)

include spelled

theorem isBoundary_zero {index : Nat} {run : Bytes} (here : segments[index]? = some (.plain run)) :
    run.IsBoundary 0 := by
  obtain ⟨s, rfl, -⟩ := spelled.getElem? here
  exact Utf8.isBoundary_encode_iff.2 ⟨"", s, by simp, rfl⟩

theorem aligned_start : Aligned segments start where
  toWithin := within_start segments
  between _ := isBoundary_zero spelled

theorem aligned_endOf : Aligned segments (endOf segments) where
  toWithin := within_endOf segments
  between _ := isBoundary_zero spelled

/-- Among ASCII characters every place is between two of them. -/
theorem Within.aligned_of_ascii (within : Within segments p)
    (ascii : ∀ ch ∈ letters, ch.val ≤ 127) : Aligned segments p where
  toWithin := within
  between run here := by
    obtain ⟨s, rfl, sub⟩ := spelled.getElem? here
    have fits := within.fits_of_drop (drop_eq_of_getElem? here) rfl
    exact Utf8.isBoundary_of_ascii (fun ch mem => ascii ch (sub mem)) fits

/-- A delimiter that was found stands between characters. Only an empty one may be found inside a
character, if the search begins there. -/
theorem aligned_of_find? {t : String} (within : Within segments p)
    (begins : t ≠ "" ∨ Aligned segments p) (h : find? segments p (Utf8.encode t) = some q) :
    Aligned segments q ∧ Aligned segments (q.advance (Utf8.encode t).length) := by
  obtain ⟨-, ⟨run, occurs⟩, empty⟩ := occurs_of_find?_eq_some within h
  obtain ⟨s, rfl, -⟩ := spelled.getElem? occurs.here
  have same {run : Bytes} (here : segments[q.segment]? = some (.plain run)) :
      run = Utf8.encode s := by
    rw [occurs.here] at here
    cases here
    rfl
  have boundary : (Utf8.encode s).IsBoundary q.offset := by
    by_cases filled : t = ""
    · have aligned := begins.resolve_left (· filled)
      rcases empty (by rw [filled]; rfl) with rfl | zero
      · exact aligned.between _ occurs.here
      · rw [zero]
        exact isBoundary_zero spelled occurs.here
    · exact Utf8.isBoundary_of_starts filled occurs.starts
  constructor
  · refine ⟨occurs.within (Nat.zero_le _), fun run here => ?_⟩
    rw [same here]
    exact boundary
  · refine ⟨occurs.within (Nat.le_refl _), fun run here => ?_⟩
    rw [same here]
    exact Utf8.isBoundary_add boundary occurs.starts

theorem cleanCopy_of_aligned (hfirst : Aligned segments first) (hlast : Aligned segments last)
    (le : first ≤ last) : CleanCopy segments first last := by
  intro index run here above below
  have fits {p : Position} (aligned : Aligned segments p) (same : index = p.segment) :
      p.offset ≤ run.length :=
    aligned.fits_of_drop (drop_eq_of_getElem? here) same
  have begins : run.IsBoundary (if index = first.segment then first.offset else 0) := by
    split
    · rename_i atFirst
      exact hfirst.between run (atFirst ▸ here)
    · exact isBoundary_zero spelled here
  have ends : run.IsBoundary (if index = last.segment then last.offset else run.length) := by
    split
    · rename_i atLast
      exact hlast.between run (atLast ▸ here)
    · exact .inl rfl
  refine ⟨?_, ?_, begins, ends⟩
  · rw [le_iff] at le
    by_cases atFirst : index = first.segment
    · have short := fits hfirst atFirst
      rw [if_pos atFirst]
      split <;> omega
    · rw [if_neg atFirst]
      exact Nat.zero_le _
  · split
    · rename_i atLast
      exact fits hlast atLast
    · exact Nat.le_refl _

end Spelled

/-- The runs of a copy were cut out of runs. -/
theorem plain_mem_copyIn {index : Nat} {l : List (Segment Bytes)} {part : Bytes}
    (clean : CleanCopy segments first last) (hl : segments.drop index = l)
    (above : first.segment ≤ index) (h : .plain part ∈ copyIn first last index l) :
    ∃ run low high, .plain run ∈ segments ∧ run.Cut low high ∧ part = (run.take high).drop low := by
  induction l generalizing index with
  | nil => cases h
  | cons s rest ih =>
    rw [copyIn] at h
    split at h
    · cases h
    · rename_i below
      rcases List.mem_append.1 h with here | later
      · cases s with
        | span c cs =>
          simp only [copyOne] at here
          split at here <;> simp at here
        | plain run =>
          have at_index : segments[index]? = some (.plain run) := by
            rw [← List.head?_drop, hl, List.head?_cons]
          rw [copyOne_plain] at here
          split at here
          · rename_i some
            have size : high last index (.plain run) =
                if index = last.segment then last.offset else run.length := by
              simp [high, atomsOne]
            cases List.mem_singleton.1 here
            rw [size] at some ⊢
            exact ⟨run, _, _, List.mem_of_getElem? at_index,
              clean index run at_index above (Nat.le_of_not_lt below), rfl⟩
          · cases here
      · exact ih (drop_succ_of_drop_eq_cons hl) (Nat.le_succ_of_le above) later

theorem spelled_copy (spelled : Spelled letters segments) (clean : CleanCopy segments first last) :
    Spelled letters (copy segments first last) := by
  rintro run (mem | ⟨mem, inside⟩)
  · obtain ⟨whole, low, high, source, cut, rfl⟩ :=
      plain_mem_copyIn clean rfl (Nat.le_refl _) mem
    obtain ⟨s, rfl, sub⟩ := spelled whole (.here source)
    obtain ⟨t, eq, subset⟩ := Utf8.exists_of_cut cut
    exact ⟨t, eq, List.Subset.trans subset sub⟩
  · exact spelled run (.deeper (span_mem_copy mem) inside)

end Position

end InlineMarkup
