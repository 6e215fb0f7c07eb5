import Mathlib.Data.List.Induction
import InlineMarkup.Proofs.Segment.Characters

/-!
# What parsing a text gives

Every run that parsing cuts is the encoding of a text, so nothing is lost when the runs are read
as texts (`mapAll_encode_parse`). The atoms of the result, be they bytes or characters, are those
of the scans of the conventions, each over what the one before it left.
-/

namespace InlineMarkup

namespace Segment

open Scan

/-- Atoms are those of a text and then of what does not go on with it. -/
theorem exists_text_append {α : Type} (atoms : List (Segment α)) :
    ∃ (text : List α) (rest : List (Segment α)),
      atoms = text.map .plain ++ rest ∧ startsPlain rest = false := by
  induction atoms with
  | nil => exact ⟨[], [], rfl, rfl⟩
  | cons atom atoms ih =>
    cases atom with
    | plain a =>
      obtain ⟨text, rest, rfl, ends⟩ := ih
      exact ⟨a :: text, rest, rfl, ends⟩
    | span c cs => exact ⟨[], .span c cs :: atoms, rfl, rfl⟩

theorem startsPlain_encoded (atoms : List (Segment Char)) :
    startsPlain (encoded atoms) = startsPlain atoms := by
  match atoms with
  | [] => rfl
  | .span .. :: rest => rfl
  | .plain ch :: rest =>
    obtain ⟨first, later, eq, -⟩ := Utf8.encodeChar_eq_cons ch
    simp [encoded, eq, startsPlain]

/-- Segments of bytes whose atoms are those of characters are encoded texts. -/
theorem exists_mapAll_encode {segments : List (Segment Bytes)} (normal : Normal id segments)
    {characters : List (Segment Char)} (eq : atoms id segments = encoded characters) :
    ∃ texts, mapAll Utf8.encode texts = segments ∧ atoms String.toList texts = characters := by
  induction segments using listInduction generalizing characters with
  | nil =>
    rw [atoms_nil] at eq
    exact ⟨[], rfl, (encoded_eq_nil_iff.1 eq.symm).symm⟩
  | plain run rest ih =>
    obtain ⟨-, ends, normal⟩ := normal_plain_cons.1 normal
    obtain ⟨text, later, rfl, apart⟩ := exists_text_append characters
    rw [atoms_plain, encoded, atoms_append, atoms_map_plain] at eq
    obtain ⟨same, eq⟩ := map_plain_append_inj (normal.separated.startsPlain_atoms.trans ends)
      ((startsPlain_encoded later).trans apart) eq
    obtain ⟨texts, rfl, rfl⟩ := ih normal eq
    refine ⟨.plain (String.ofList text) :: texts, ?_, by simp⟩
    rw [id_eq] at same
    simp [mapAll, map, Utf8.encode, same]
  | span c cs rest inner ih =>
    obtain ⟨normalInside, normal⟩ := normal_span_cons.1 normal
    cases characters with
    | nil => cases eq
    | cons atom later =>
      cases atom with
      | plain ch =>
        have starts := congrArg startsPlain eq
        rw [startsPlain_encoded] at starts
        cases starts
      | span d ds =>
        simp only [encoded, atoms_span, List.cons.injEq, span.injEq] at eq
        obtain ⟨⟨sameConvention, eqInside⟩, eq⟩ := eq
        obtain ⟨textsInside, encodesInside, charactersInside⟩ := inner normalInside eqInside
        obtain ⟨texts, encodes, rfl⟩ := ih normal eq
        refine ⟨.span c textsInside :: texts, ?_, ?_⟩
        · rw [← encodesInside, ← encodes]
          rfl
        · rw [← charactersInside, ← sameConvention]
          rfl

/-! ## Where spans come from -/

/-- What the scans of conventions leave of a text. -/
abbrev scanned (conventions : List Convention) (text : String) : List (Segment Char) :=
  conventions.foldl (fun atoms c => Scan.pass String.toList c atoms) (text.toList.map .plain)

theorem scanned_append (earlier later : List Convention) (text : String) :
    scanned (earlier ++ later) text =
      later.foldl (fun atoms c => Scan.pass String.toList c atoms) (scanned earlier text) :=
  List.foldl_append

/-- A span was claimed in the scan of its convention, from what the conventions before it left. -/
theorem content_of_inside_scanned {conventions : List Convention} {text : String} {c : Convention}
    {content : List (Segment Char)} (h : Inside (.span c content) (scanned conventions text)) :
    ∃ earlier later, conventions = earlier ++ c :: later ∧
      Content c.closing.toList (scanned earlier text) content := by
  -- from the last convention back: its scan made the span or was given it
  induction conventions using List.reverseRecOn with
  | nil =>
    obtain ⟨a, -, eq⟩ := inside_map_plain h
    cases eq
  | append_singleton conventions d ih =>
    rw [scanned_append] at h
    rcases inside_claim h with ⟨content', eq, made⟩ | inside
    · cases eq
      exact ⟨conventions, [], rfl, made⟩
    · obtain ⟨earlier, later, rfl, made⟩ := ih inside
      exact ⟨earlier, later ++ [d], by simp, made⟩

section Parse

variable {registry : Registry} (delimited : ∀ c ∈ registry.conventions, c.Delimited)
  (text : String)

include delimited

/-- Parsing a text loses nothing when bytes are read as texts again, and its characters are those
of the scans of its conventions. -/
theorem parse_spec :
    mapAll Utf8.encode (parse registry text) =
        parseBytes registry.conventions (Utf8.encode text) ∧
      atoms String.toList (parse registry text) = scanned registry.conventions text := by
  have eq := atoms_parseBytes delimited (Utf8.encode text)
  have bytes : (Utf8.encode text).map .plain = encoded (text.toList.map .plain) :=
    (atoms_map_plain String.utf8EncodeChar text.toList).symm
  rw [bytes, foldl_pass_encoded delimited] at eq
  obtain ⟨texts, encodes, characters⟩ :=
    exists_mapAll_encode (normal_parseBytes delimited (Utf8.encode text)) eq
  have parsed : parse registry text = texts := by
    rw [parse, ← encodes, mapAll_mapAll, mapAll_eq_self Utf8.decode_encode]
  exact ⟨by rw [parsed, encodes], by rw [parsed, characters]⟩

theorem mapAll_encode_parse :
    mapAll Utf8.encode (parse registry text) =
      parseBytes registry.conventions (Utf8.encode text) :=
  (parse_spec delimited text).1

theorem atoms_parse :
    atoms String.toList (parse registry text) = scanned registry.conventions text :=
  (parse_spec delimited text).2

theorem content_of_inside_parse {c : Convention} {cs : List (Segment String)}
    (h : Inside (.span c cs) (parse registry text)) :
    ∃ earlier later, registry.conventions = earlier ++ c :: later ∧
      Content c.closing.toList (scanned earlier text) (atoms String.toList cs) := by
  have inside := inside_atoms String.toList h
  rw [atoms_parse delimited] at inside
  exact content_of_inside_scanned inside

theorem normal_parse : Normal String.toList (parse registry text) := by
  have normal := normal_parseBytes delimited (Utf8.encode text)
  rw [← mapAll_encode_parse delimited, normal_mapAll] at normal
  refine normal.of_pieces fun run filled empty => filled ?_
  rw [id_eq, Utf8.encode, empty, List.flatMap_nil]

end Parse

/-- A pass claims what the scan of its convention claims, whatever the segments it is given, as
long as their runs are apart. A whole parse is therefore the scans of the conventions in matching
order, begun with every byte of the text as an atom. -/
theorem atoms_pass_and_parse :
    (∀ (c : Convention) (segments : List (Segment Bytes)), c.Delimited → Separated id segments →
      atoms id (pass c segments) = Scan.pass Utf8.encode c (atoms id segments)) ∧
    ∀ (registry : Registry) (text : String), (∀ c ∈ registry.conventions, c.Delimited) →
      atoms Utf8.encode (parse registry text) =
        registry.conventions.foldl (fun atoms c => Scan.pass Utf8.encode c atoms)
          ((Utf8.encode text).map .plain) := by
  refine ⟨fun c segments delimited apart => atoms_pass delimited apart, ?_⟩
  intro registry text delimited
  have bytes := atoms_mapAll id Utf8.encode (parse registry text)
  rw [mapAll_encode_parse delimited, atoms_parseBytes delimited] at bytes
  exact bytes.symm

/-- An exclamation mark that closes nothing, one that opens a span around another span, and one
that is never closed. -/
theorem atoms_pass_and_parse_exclamation :
    let segments : List (Segment Bytes) :=
      [.plain (Utf8.encode "é!!a"), .span .angleBrackets [.plain (Utf8.encode "b!")],
        .plain (Utf8.encode "!c!")]
    let text := "[a <b!> ü] !!c <d>! !"
    (Convention.exclamation.Delimited ∧ Separated id segments ∧
      atoms id (pass .exclamation segments) =
        Scan.pass Utf8.encode .exclamation (atoms id segments)) ∧
    (∀ c ∈ Registry.builtin.conventions, c.Delimited) ∧
      atoms Utf8.encode (parse .builtin text) =
        Registry.builtin.conventions.foldl (fun atoms c => Scan.pass Utf8.encode c atoms)
          ((Utf8.encode text).map .plain) := by
  have delimited : Convention.exclamation.Delimited := ⟨by decide, by decide⟩
  have apart : Separated id [.plain (Utf8.encode "é!!a"),
      .span .angleBrackets [.plain (Utf8.encode "b!")], .plain (Utf8.encode "!c!")] :=
    ⟨by decide, rfl, by decide, rfl, trivial⟩
  exact ⟨⟨delimited, apart, atoms_pass_and_parse.1 _ _ delimited apart⟩,
    Registry.delimited_builtin, atoms_pass_and_parse.2 _ _ Registry.delimited_builtin⟩

end Segment

end InlineMarkup
