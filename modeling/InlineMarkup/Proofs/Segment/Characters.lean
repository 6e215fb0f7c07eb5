import InlineMarkup.Proofs.Segment.Pass

/-!
# Bytes and characters

Passes look for delimiters byte by byte and may resume inside a character. Since a delimiter
begins with the first byte of a character, and no later byte of a character looks like one, it is
found only where it stands as characters, and a scan of bytes claims what a scan of characters
does (`claim_encoded`).
-/

namespace InlineMarkup

namespace Utf8

theorem encodeChar_eq_cons (ch : Char) :
    ∃ first later, String.utf8EncodeChar ch = first :: later ∧ first.IsUTF8FirstByte ∧
      ∀ b ∈ later, ¬ b.IsUTF8FirstByte := by
  have size := ch.utf8Size_pos
  rw [← String.length_utf8EncodeChar] at size
  obtain ⟨first, later, eq⟩ := List.exists_cons_of_ne_nil (List.ne_nil_of_length_pos size)
  have isFirst (i : Nat) (hi : i < (first :: later).length) :
      ((first :: later)[i]).IsUTF8FirstByte ↔ i = 0 := by
    have inRange : i < (String.utf8EncodeChar ch).length := by
      rw [eq]
      exact hi
    have fact := @UInt8.isUTF8FirstByte_getElem_utf8EncodeChar ch i inRange
    simpa only [eq] using fact
  refine ⟨first, later, eq, (isFirst 0 (by simp)).2 rfl, ?_⟩
  intro b mem
  obtain ⟨i, hi, rfl⟩ := List.getElem_of_mem mem
  have below : i + 1 < (first :: later).length := by
    rw [List.length_cons]
    omega
  intro again
  have zero : i + 1 = 0 := (isFirst (i + 1) below).1 again
  omega

/-- The encoding of a character does not begin that of another. -/
theorem eq_of_encodeChar_append_eq {ch ch' : Char} {x y : Bytes}
    (eq : String.utf8EncodeChar ch ++ x = String.utf8EncodeChar ch' ++ y) : ch = ch' := by
  have decoded (c : Char) (z : Bytes) :
      (String.utf8EncodeChar c ++ z).toByteArray.utf8DecodeChar? 0 = some c := by
    rw [List.toByteArray_append]
    exact ByteArray.utf8DecodeChar?_utf8EncodeChar_append
  have same := decoded ch x
  rw [eq, decoded ch' y] at same
  exact (Option.some.inj same).symm

end Utf8

namespace Scan

open Segment

/-- The atoms of characters, as bytes. -/
abbrev encoded (atoms : List (Segment Char)) : List (Segment UInt8) :=
  Segment.atoms String.utf8EncodeChar atoms

/-- The bytes of a text, given by its characters. -/
abbrev encodedText (text : List Char) : Bytes :=
  text.flatMap String.utf8EncodeChar

/-- As bytes, an atom is one atom and perhaps later bytes of the same character. -/
theorem exists_encoded_cons (atom : Segment Char) :
    ∃ (first : Segment UInt8) (later : Bytes), (∀ b ∈ later, ¬ b.IsUTF8FirstByte) ∧
      ∀ atoms, encoded (atom :: atoms) = first :: (later.map .plain ++ encoded atoms) := by
  cases atom with
  | span c cs => exact ⟨.span c (encoded cs), [], by simp, fun _ => rfl⟩
  | plain ch =>
    obtain ⟨first, later, eq, -, inner⟩ := Utf8.encodeChar_eq_cons ch
    exact ⟨.plain first, later, inner, fun atoms => by simp [encoded, eq]⟩

theorem encoded_eq_nil_iff {atoms : List (Segment Char)} : encoded atoms = [] ↔ atoms = [] := by
  cases atoms with
  | nil => simp [encoded]
  | cons atom atoms =>
    obtain ⟨first, later, -, eq⟩ := exists_encoded_cons atom
    simp [eq]

/-- The bytes among atoms. -/
def bytesOf (atoms : List (Segment UInt8)) : Bytes :=
  atoms.filterMap fun
    | .plain b => some b
    | .span .. => none

theorem bytesOf_map_plain_append (text : Bytes) (atoms : List (Segment UInt8)) :
    bytesOf (text.map .plain ++ atoms) = text ++ bytesOf atoms := by
  induction text with
  | nil => rfl
  | cons b text ih =>
    show b :: bytesOf (text.map .plain ++ atoms) = b :: (text ++ bytesOf atoms)
    rw [ih]

/-- Delimiters are found at the start of atoms where their characters stand there. -/
theorem after?_encoded (pattern : List Char) (atoms : List (Segment Char)) :
    after? (encodedText pattern) (encoded atoms) = (after? pattern atoms).map encoded := by
  induction pattern generalizing atoms with
  | nil => simp [after?]
  | cons ch pattern ih =>
    obtain ⟨first, later, eq, -⟩ := Utf8.encodeChar_eq_cons ch
    cases atoms with
    | nil => simp [encoded, after?, eq]
    | cons atom atoms =>
      cases atom with
      | span c cs => simp [encoded, after?, eq]
      | plain ch' =>
        rw [encodedText, List.flatMap_cons, encoded, atoms_plain]
        by_cases same : ch = ch'
        · rw [← same, after?_append, ih]
          simp [after?]
        · rw [after?, if_neg same, Option.map_none, Option.eq_none_iff_forall_ne_some]
          intro rest h
          have bytes := congrArg bytesOf (after?_eq_some_iff.1 h)
          rw [bytesOf_map_plain_append, bytesOf_map_plain_append, List.append_assoc] at bytes
          exact same (Utf8.eq_of_encodeChar_append_eq bytes).symm

section Later

variable {pattern : List Char} {later : Bytes}

/-- No delimiter begins inside a character. -/
theorem after?_later (filled : pattern ≠ []) {b : UInt8} (hb : ¬ b.IsUTF8FirstByte)
    (atoms : List (Segment UInt8)) : after? (encodedText pattern) (.plain b :: atoms) = none := by
  obtain ⟨ch, pattern, rfl⟩ := List.exists_cons_of_ne_nil filled
  obtain ⟨first, rest, eq, isFirst, -⟩ := Utf8.encodeChar_eq_cons ch
  rw [encodedText, List.flatMap_cons, eq, List.cons_append, after?, if_neg]
  rintro rfl
  exact hb isFirst

theorem split?_later (filled : pattern ≠ []) (hl : ∀ b ∈ later, ¬ b.IsUTF8FirstByte)
    (atoms : List (Segment UInt8)) :
    split? (encodedText pattern) (later.map .plain ++ atoms) =
      (split? (encodedText pattern) atoms).map
        fun (before, rest) => (later.map .plain ++ before, rest) := by
  induction later with
  | nil => simp
  | cons b later ih =>
    obtain ⟨hb, hl⟩ := List.forall_mem_cons.1 hl
    have here := after?_later filled hb (later.map .plain ++ atoms)
    rw [List.map_cons, List.cons_append, split?_cons_of_after?_eq_none here, ih hl]
    simp [Function.comp_def]

theorem claim_later (filled : pattern ≠ []) (hl : ∀ b ∈ later, ¬ b.IsUTF8FirstByte)
    (c : Convention) (closing : Bytes) (atoms : List (Segment UInt8)) :
    claim c (encodedText pattern) closing (later.map .plain ++ atoms) =
      later.map .plain ++ claim c (encodedText pattern) closing atoms := by
  induction later with
  | nil => rfl
  | cons b later ih =>
    obtain ⟨hb, hl⟩ := List.forall_mem_cons.1 hl
    have here := after?_later filled hb (later.map .plain ++ atoms)
    rw [List.map_cons, List.cons_append, claim_cons_of_no_opening here, ih hl, List.cons_append]

end Later

theorem encodedText_ne_nil {text : List Char} (filled : text ≠ []) : encodedText text ≠ [] := by
  obtain ⟨ch, text, rfl⟩ := List.exists_cons_of_ne_nil filled
  obtain ⟨first, later, eq, -⟩ := Utf8.encodeChar_eq_cons ch
  simp [encodedText, eq]

/-- The first occurrence of a delimiter among bytes is its first one among characters. -/
theorem split?_encoded {pattern : List Char} (filled : pattern ≠ [])
    (atoms : List (Segment Char)) :
    split? (encodedText pattern) (encoded atoms) =
      (split? pattern atoms).map fun (before, rest) => (encoded before, encoded rest) := by
  induction atoms with
  | nil => simp [encoded, split?_nil filled, split?_nil (encodedText_ne_nil filled)]
  | cons atom atoms ih =>
    have start := after?_encoded pattern (atom :: atoms)
    cases found : after? pattern (atom :: atoms) with
    | some rest =>
      rw [found, Option.map_some] at start
      rw [split?_of_after?_eq_some found, split?_of_after?_eq_some start]
      rfl
    | none =>
      obtain ⟨first, later, inner, eq⟩ := exists_encoded_cons atom
      rw [found, Option.map_none, eq] at start
      rw [split?_cons_of_after?_eq_none found, eq, split?_cons_of_after?_eq_none start,
        split?_later filled inner, ih]
      simp [Function.comp_def, eq]

/-- A scan of bytes claims what a scan of characters claims. -/
theorem claim_encoded (c : Convention) {opening closing : List Char} (ho : opening ≠ [])
    (hc : closing ≠ []) (atoms : List (Segment Char)) :
    claim c (encodedText opening) (encodedText closing) (encoded atoms) =
      encoded (claim c opening closing atoms) := by
  induction size : atoms.length using Nat.strongRecOn generalizing atoms with
  | ind n ih =>
    subst size
    match atoms with
    | [] => simp [encoded]
    | atom :: atoms =>
      obtain ⟨first, later, inner, eq⟩ := exists_encoded_cons atom
      have start := after?_encoded opening (atom :: atoms)
      have below := ih atoms.length (by simp) atoms rfl
      cases hopen : after? opening (atom :: atoms) with
      | none =>
        rw [hopen, Option.map_none, eq] at start
        rw [claim_cons_of_no_opening hopen, eq, eq, claim_cons_of_no_opening start,
          claim_later ho inner, below]
      | some inside =>
        have close := split?_encoded hc inside
        rw [hopen, Option.map_some] at start
        match hclose : split? closing inside with
        | none =>
          rw [hclose, Option.map_none] at close
          rw [claim_of_no_closing hopen hclose, claim_of_no_closing start close]
        | some ([], rest) =>
          rw [hclose] at close
          rw [eq] at start
          rw [claim_cons_of_nothing_inside hopen hclose, eq, eq,
            claim_cons_of_nothing_inside start close, claim_later ho inner, below]
        | some (content :: contents, rest) =>
          rw [hclose] at close
          rw [claim_of_content hopen hclose (by simp),
            claim_of_content start close (by simp [encoded_eq_nil_iff]),
            ih rest.length (length_lt_of_claimed hopen hclose) rest rfl]
          rfl

theorem toList_ne_nil {s : String} (h : s ≠ "") : s.toList ≠ [] := by
  simpa using h

theorem pass_encoded {c : Convention} (delimited : c.Delimited) (atoms : List (Segment Char)) :
    pass Utf8.encode c (encoded atoms) = encoded (pass String.toList c atoms) :=
  claim_encoded c (toList_ne_nil delimited.opening) (toList_ne_nil delimited.closing) atoms

theorem foldl_pass_encoded {conventions : List Convention}
    (delimited : ∀ c ∈ conventions, c.Delimited) (atoms : List (Segment Char)) :
    conventions.foldl (fun atoms c => pass Utf8.encode c atoms) (encoded atoms) =
      encoded (conventions.foldl (fun atoms c => pass String.toList c atoms) atoms) := by
  induction conventions generalizing atoms with
  | nil => rfl
  | cons c rest ih =>
    have now := delimited c List.mem_cons_self
    have others : ∀ d ∈ rest, d.Delimited := by
      intro d mem
      exact delimited d (List.mem_cons_of_mem c mem)
    rw [List.foldl_cons, List.foldl_cons, pass_encoded now, ih others]

end Scan

end InlineMarkup
