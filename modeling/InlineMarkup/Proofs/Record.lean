import InlineMarkup.Record
import InlineMarkup.Proofs.Color.Spelling

/-!
# Records read back

What the fields of a record may hold is said here by a grammar, apart from the checks that
`Record.toConvention` makes. The checks accept exactly what the grammar allows, and of what it does
not allow they report the first thing. A record that is accepted is written down again as it was,
but for the spelling of its color.
-/

namespace InlineMarkup

namespace Delimiters

/-- One to four characters from `!` to `~`. -/
structure Token (s : String) : Prop where
  filled : 1 ≤ s.toList.length
  short : s.toList.length ≤ 4
  graphic : ∀ ch ∈ s.toList, 0x21 ≤ ch.toNat ∧ ch.toNat ≤ 0x7e

theorem isToken_iff_token {s : String} : isToken s ↔ Token s := by
  have graphic (ch : Char) : Ascii.isGraphic ch ↔ 0x21 ≤ ch.toNat ∧ ch.toNat ≤ 0x7e := by
    rw [Ascii.isGraphic, Bool.and_eq_true, decide_eq_true_eq, decide_eq_true_eq,
      Ascii.le_iff_toNat_le, Ascii.le_iff_toNat_le]
    rfl
  simp only [isToken_iff, graphic, maxLength, ← List.length_pos_iff]
  exact ⟨fun ⟨filled, short, all⟩ => ⟨filled, short, all⟩,
    fun ⟨filled, short, all⟩ => ⟨filled, short, all⟩⟩

end Delimiters

namespace Record

/-- What the grammar asks of a record. -/
structure Accepted (r : Record) : Prop where
  free : r.key ∉ Convention.builtinKeys
  opening : Delimiters.Token r.opening
  closing : Delimiters.Token r.closing
  color : Color.Spelled r.color

/-- The first thing in a record, in the order of its key, opening, closing and color, that the
grammar does not allow. -/
inductive Rejected (r : Record) : Fault → Prop where
  | key (reserved : r.key ∈ Convention.builtinKeys) : Rejected r (.reservedKey r.key)
  | opening (free : r.key ∉ Convention.builtinKeys) (wrong : ¬ Delimiters.Token r.opening) :
    Rejected r (.invalidDelimiter r.opening)
  | closing (free : r.key ∉ Convention.builtinKeys) (opening : Delimiters.Token r.opening)
      (wrong : ¬ Delimiters.Token r.closing) : Rejected r (.invalidDelimiter r.closing)
  | color (free : r.key ∉ Convention.builtinKeys) (opening : Delimiters.Token r.opening)
      (closing : Delimiters.Token r.closing) (wrong : ¬ Color.Spelled r.color) :
    Rejected r (.invalidColor r.color)

/-- The record as it is written down once it was read. -/
def normalize (r : Record) : Except Fault Record :=
  r.toConvention.map ofConvention

variable {r : Record} {c : Convention}

theorem accepted_or_rejected (r : Record) : r.Accepted ∨ ∃ fault, r.Rejected fault := by
  by_cases reserved : r.key ∈ Convention.builtinKeys
  · exact .inr ⟨_, .key reserved⟩
  by_cases opening : Delimiters.Token r.opening
  · by_cases closing : Delimiters.Token r.closing
    · by_cases color : Color.Spelled r.color
      · exact .inl ⟨reserved, opening, closing, color⟩
      · exact .inr ⟨_, .color reserved opening closing color⟩
    · exact .inr ⟨_, .closing reserved opening closing⟩
  · exact .inr ⟨_, .opening reserved opening⟩

/-! ## Checks and grammar -/

theorem isBuiltinKey_iff {key : String} :
    Convention.isBuiltinKey key ↔ key ∈ Convention.builtinKeys := by
  rw [Convention.isBuiltinKey, List.contains_iff_mem]

theorem isBuiltinKey_eq_false {key : String} (free : key ∉ Convention.builtinKeys) :
    Convention.isBuiltinKey key = false :=
  eq_false_of_ne_true (mt isBuiltinKey_iff.1 free)

theorem exists_toConvention_of_accepted (accepted : r.Accepted) : ∃ c, r.toConvention = .ok c := by
  obtain ⟨free, opening, closing, color⟩ := accepted
  obtain ⟨color, read⟩ := Color.exists_parse?_eq_some_iff.2 color
  refine ⟨{ key := r.key, delimiters := ⟨r.opening, r.closing⟩, color, effects := r.effects
            usage := r.usage, description := r.description, sample := r.sample }, ?_⟩
  exact toConvention_eq_ok_iff.2 ⟨isBuiltinKey_eq_false free,
    Delimiters.isToken_iff_token.2 opening, Delimiters.isToken_iff_token.2 closing, read, rfl⟩

theorem toConvention_of_rejected {fault : Fault} (rejected : r.Rejected fault) :
    r.toConvention = .error fault := by
  have free (free : r.key ∉ Convention.builtinKeys) : ¬ Convention.isBuiltinKey r.key :=
    mt isBuiltinKey_iff.1 free
  have token {s : String} (token : Delimiters.Token s) : ¬ (!Delimiters.isToken s) := by
    simp [Delimiters.isToken_iff_token.2 token]
  have wrong {s : String} (wrong : ¬ Delimiters.Token s) : !Delimiters.isToken s := by
    rw [Bool.not_eq_true', ← Bool.not_eq_true, Delimiters.isToken_iff_token]
    exact wrong
  cases rejected with
  | key reserved => rw [toConvention, if_pos (isBuiltinKey_iff.2 reserved)]
  | opening key opening => rw [toConvention, if_neg (free key), if_pos (wrong opening)]
  | closing key opening closing =>
    rw [toConvention, if_neg (free key), if_neg (token opening), if_pos (wrong closing)]
  | color key opening closing color =>
    have unread : Color.parse? r.color = none := by
      rw [← Color.exists_parse?_eq_some_iff] at color
      exact Option.eq_none_iff_forall_ne_some.2 fun c read => color ⟨c, read⟩
    rw [toConvention, if_neg (free key), if_neg (token opening), if_neg (token closing), unread]

theorem exists_toConvention_iff : (∃ c, r.toConvention = .ok c) ↔ r.Accepted := by
  refine ⟨?_, exists_toConvention_of_accepted⟩
  rintro ⟨c, read⟩
  refine (accepted_or_rejected r).resolve_right ?_
  rintro ⟨fault, rejected⟩
  rw [toConvention_of_rejected rejected] at read
  cases read

theorem toConvention_eq_error_iff {fault : Fault} :
    r.toConvention = .error fault ↔ r.Rejected fault := by
  refine ⟨fun failed => ?_, toConvention_of_rejected⟩
  rcases accepted_or_rejected r with accepted | ⟨fault', rejected⟩
  · obtain ⟨c, read⟩ := exists_toConvention_of_accepted accepted
    rw [read] at failed
    cases failed
  · rw [toConvention_of_rejected rejected] at failed
    cases failed
    exact rejected

/-! ## Written down again -/

theorem ofConvention_of_toConvention (read : r.toConvention = .ok c) :
    ofConvention c = { r with color := Ascii.lower (Text.trim r.color) } := by
  obtain ⟨-, -, -, color, eq⟩ := toConvention_eq_ok_iff.1 read
  rw [← Color.display_of_parse? color, eq]
  rfl

/-- A convention that passes the checks of a record is what its record describes. -/
theorem toConvention_ofConvention {c : Convention} (custom : c.isBuiltin = false)
    (valid : c.delimiters.isValid) (readable : Color.parse? c.color.display = some c.color) :
    (ofConvention c).toConvention = .ok c := by
  rw [Delimiters.isValid, Bool.and_eq_true] at valid
  exact toConvention_eq_ok_iff.2 ⟨custom, valid.1, valid.2, readable, rfl⟩

/-- So what is written down for a record that was read is read alike. -/
theorem toConvention_ofConvention_of_read (read : r.toConvention = .ok c) :
    (ofConvention c).toConvention = .ok c := by
  obtain ⟨free, opening, closing, color, eq⟩ := toConvention_eq_ok_iff.1 read
  have custom : c.isBuiltin = false := by
    rw [eq]
    exact free
  have valid : c.delimiters.isValid := by
    rw [eq, Delimiters.isValid, Bool.and_eq_true]
    exact ⟨opening, closing⟩
  exact toConvention_ofConvention custom valid (Color.parse?_display color)

theorem normalize_bind_normalize (r : Record) : r.normalize.bind normalize = r.normalize := by
  cases read : r.toConvention with
  | error fault =>
    rw [normalize, read]
    rfl
  | ok c =>
    have again := toConvention_ofConvention_of_read read
    rw [normalize, read]
    show (ofConvention c).normalize = .ok (ofConvention c)
    rw [normalize, again]
    rfl

/-- The checks of a record accept exactly the grammar and report the first thing that it does not
allow. What is accepted is written down as it was but for the color, which loses its blanks and its
capitals, and from then on it stays the same. -/
theorem toConvention_exact (r : Record) :
    ((∃ c, r.toConvention = .ok c) ↔ r.Accepted) ∧
      (∀ fault, r.toConvention = .error fault ↔ r.Rejected fault) ∧
      (∀ c, r.toConvention = .ok c →
        (∃ core, Text.Core r.color core ∧ ofConvention c = { r with color := Ascii.lower core }) ∧
          (ofConvention c).toConvention = .ok c) ∧
      r.normalize.bind normalize = r.normalize := by
  refine ⟨exists_toConvention_iff, fun _ => toConvention_eq_error_iff, ?_,
    normalize_bind_normalize r⟩
  intro c read
  exact ⟨⟨_, Text.core_trim r.color, ofConvention_of_toConvention read⟩,
    toConvention_ofConvention_of_read read⟩

/-- A color with capitals between blanks, one of which is no ASCII character. -/
theorem toConvention_exact_capitals :
    let r : Record :=
      { key := "custom-a", opening := "~", closing := "=>", color := "\u3000#0aF\n" }
    let c : Convention :=
      { key := "custom-a", delimiters := ⟨"~", "=>"⟩, color := .literal "#0af", effects := {}
        usage := "", description := "", sample := "" }
    r.toConvention = .ok c ∧
      (∃ core, Text.Core r.color core ∧ ofConvention c = { r with color := Ascii.lower core }) ∧
      (ofConvention c).toConvention = .ok c := by
  intro r c
  have read : r.toConvention = .ok c := by decide
  obtain ⟨-, -, written, -⟩ := toConvention_exact r
  exact ⟨read, written c read⟩

end Record

end InlineMarkup
