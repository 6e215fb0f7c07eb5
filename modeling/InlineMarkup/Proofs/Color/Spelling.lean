import Mathlib.Data.List.Forall2
import Mathlib.Tactic.SplitIfs
import InlineMarkup.Proofs.Color

/-!
# How colors are spelled

The grammar of a color as an author may write it: blanks around (`Text.Core`) one of two words in
any case, or a number sign and digits (`Color.Spelling`). It mentions neither trimming nor letters
that are made small. A text is read as a color exactly if the grammar allows it
(`Color.exists_parse?_eq_some_iff`), and the color is then shown without the blanks and in small
letters (`Color.display_of_parse?`).
-/

namespace InlineMarkup

namespace Text

/-- `core` is what remains of a text without the blank characters around it. -/
structure Core (s core : String) : Prop where
  around : ∃ before after, s = before ++ core ++ after ∧ isBlankText before ∧ isBlankText after
  begins : ∀ ch, core.toList.head? = some ch → isBlank ch = false
  ends : ∀ ch, core.toList.getLast? = some ch → isBlank ch = false

theorem dropWhile_isBlank_append {before rest : List Char} (blank : ∀ ch ∈ before, isBlank ch)
    (begins : ∀ ch, rest.head? = some ch → isBlank ch = false) :
    (before ++ rest).dropWhile isBlank = rest := by
  rw [List.dropWhile_append_of_pos blank]
  cases rest with
  | nil => rfl
  | cons ch rest => exact List.dropWhile_cons_of_neg (by simp [begins ch rfl])

theorem exists_eq_append_dropWhile_isBlank (l : List Char) :
    ∃ before, l = before ++ l.dropWhile isBlank ∧ (∀ ch ∈ before, isBlank ch) ∧
      ∀ ch, (l.dropWhile isBlank).head? = some ch → isBlank ch = false := by
  refine ⟨l.takeWhile isBlank, List.takeWhile_append_dropWhile.symm,
    fun ch mem => List.mem_takeWhile_imp mem, ?_⟩
  intro ch begins
  have first := List.head?_dropWhile_not isBlank l
  rw [begins] at first
  exact first

theorem isBlankText_ofList {l : List Char} (blank : ∀ ch ∈ l, isBlank ch) :
    isBlankText (String.ofList l) := by
  rw [isBlankText, String.toList_ofList]
  exact List.all_eq_true.2 blank

/-- What trimming leaves has no blank character at its ends. -/
theorem core_trim (s : String) : Core s (trim s) := by
  obtain ⟨before, eq, blank, begins⟩ := exists_eq_append_dropWhile_isBlank s.toList
  obtain ⟨after, eqAfter, blankAfter, ends⟩ :=
    exists_eq_append_dropWhile_isBlank (s.toList.dropWhile isBlank).reverse
  have whole : s.toList.dropWhile isBlank = (trim s).toList ++ after.reverse := by
    rw [trim, String.toList_ofList, ← List.reverse_append, ← eqAfter, List.reverse_reverse]
  refine ⟨⟨.ofList before, .ofList after.reverse, ?_, isBlankText_ofList blank,
    isBlankText_ofList fun ch mem => blankAfter ch (List.mem_reverse.1 mem)⟩, ?_, ?_⟩
  · rw [← String.toList_inj, String.toList_append, String.toList_append, String.toList_ofList,
      String.toList_ofList, List.append_assoc, ← whole, ← eq]
  · intro ch first
    apply begins
    rw [whole, List.head?_append, first, Option.some_or]
  · intro ch last
    apply ends
    rwa [trim, String.toList_ofList, List.getLast?_reverse] at last

/-- Nothing else remains of a text without the blank characters around it. -/
theorem Core.eq_trim {s core : String} (h : Core s core) : core = trim s := by
  obtain ⟨⟨before, after, rfl, blank, blankAfter⟩, begins, ends⟩ := h
  rw [isBlankText, List.all_eq_true] at blank blankAfter
  have blankReverse : ∀ ch ∈ after.toList.reverse, isBlank ch :=
    fun ch mem => blankAfter ch (List.mem_reverse.1 mem)
  apply String.toList_inj.1
  rw [trim, String.toList_ofList, String.toList_append, String.toList_append, List.append_assoc]
  rcases eq : core.toList with _ | ⟨ch, rest⟩
  · have none : (before.toList ++ ([] ++ after.toList)).dropWhile isBlank = [] := by
      rw [List.nil_append, List.dropWhile_eq_nil_iff]
      intro ch mem
      rcases List.mem_append.1 mem with mem | mem
      · exact blank ch mem
      · exact blankAfter ch mem
    rw [none]
    rfl
  · rw [eq] at begins ends
    rw [← List.head?_reverse] at ends
    have filled : ∀ first, (ch :: rest ++ after.toList).head? = some first →
        isBlank first = false := begins
    rw [dropWhile_isBlank_append blank filled, List.reverse_append,
      dropWhile_isBlank_append blankReverse ends, List.reverse_reverse]

end Text

namespace Ascii

/-- The text is the word, in letters of either case. -/
def InAnyCase (text word : List Char) : Prop :=
  List.Forall₂ (fun ch letter => ch = letter ∨ ch = letter.toUpper) text word

theorem toLower_eq_iff {ch letter : Char} (small : letter.toUpper.toLower = letter) :
    ch.toLower = letter ↔ ch = letter ∨ ch = letter.toUpper := by
  constructor
  · rintro rfl
    by_cases capital : 65 ≤ ch.toNat ∧ ch.toNat ≤ 90
    · have all : ∀ n < 91, 65 ≤ n → (Char.ofNat n).toLower.toUpper = Char.ofNat n := by decide
      have here := all ch.toNat (Nat.lt_succ_of_le capital.2) capital.1
      rw [Char.ofNat_toNat] at here
      exact .inr here.symm
    · left
      unfold Char.toLower
      split
      · rename_i other
        exact absurd other capital
      · rfl
  · rintro (rfl | rfl)
    · rw [← small, toLower_toLower]
    · exact small

theorem map_toLower_eq_iff {text word : List Char}
    (small : ∀ letter ∈ word, letter.toUpper.toLower = letter) :
    text.map Char.toLower = word ↔ InAnyCase text word := by
  induction word generalizing text with
  | nil => rw [List.map_eq_nil_iff, InAnyCase, List.forall₂_nil_right_iff]
  | cons letter word ih =>
    obtain ⟨here, later⟩ := List.forall_mem_cons.1 small
    cases text with
    | nil => simp [InAnyCase]
    | cons ch text =>
      rw [List.map_cons, List.cons.injEq, toLower_eq_iff here, ih later, InAnyCase, InAnyCase,
        List.forall₂_cons]

/-- A word in small letters is met up to the case of the letters. -/
theorem eqIgnoringCase_iff {text word : String}
    (small : word.toList.all fun letter => letter.toUpper.toLower == letter) :
    eqIgnoringCase text word ↔ InAnyCase text.toList word.toList := by
  have each (letter : Char) (mem : letter ∈ word.toList) : letter.toUpper.toLower = letter :=
    beq_iff_eq.1 (List.all_eq_true.1 small letter mem)
  have itself : InAnyCase word.toList word.toList := List.forall₂_same.2 fun _ _ => .inl rfl
  rw [eqIgnoringCase, beq_iff_eq, lower, lower, (map_toLower_eq_iff each).2 itself,
    String.ofList_inj, map_toLower_eq_iff each]

theorem mem_hexDigits_iff {ch : Char} : ch ∈ hexDigits ↔ isHexDigit ch := by
  have all : hexDigits.all isHexDigit := by decide
  exact ⟨List.all_eq_true.1 all ch, mem_hexDigits_of_isHexDigit⟩

end Ascii

namespace Color

/-- A color as it may be spelled: one of two words in any case, or three or six digits. -/
inductive Spelling : List Char → Prop where
  | inherit {text : List Char} (word : Ascii.InAnyCase text "inherit".toList) : Spelling text
  | keyword {text : List Char} (word : Ascii.InAnyCase text "keyword".toList) : Spelling text
  | literal {digits : List Char} (size : digits.length = 3 ∨ digits.length = 6)
      (all : ∀ ch ∈ digits, ch ∈ Ascii.hexDigits) : Spelling ('#' :: digits)

/-- A color as it may be stored, with blanks around it. -/
def Spelled (s : String) : Prop :=
  ∃ core, Text.Core s core ∧ Spelling core.toList

theorem spelled_iff {s : String} : Spelled s ↔ Spelling (Text.trim s).toList := by
  constructor
  · rintro ⟨core, isCore, spelling⟩
    rwa [← isCore.eq_trim]
  · intro spelling
    exact ⟨_, Text.core_trim s, spelling⟩

theorem spelling_iff {s : String} :
    Spelling s.toList ↔
      Ascii.eqIgnoringCase s "inherit" ∨ Ascii.eqIgnoringCase s "keyword" ∨ isHex s := by
  have inherit := @Ascii.eqIgnoringCase_iff s "inherit" (by decide)
  have keyword := @Ascii.eqIgnoringCase_iff s "keyword" (by decide)
  rw [inherit, keyword, isHex_iff]
  constructor
  · generalize s.toList = text
    rintro (word | word | ⟨size, all⟩)
    · exact .inl word
    · exact .inr (.inl word)
    · exact .inr (.inr ⟨_, rfl, size, fun ch mem => Ascii.mem_hexDigits_iff.1 (all ch mem)⟩)
  · rintro (word | word | ⟨digits, eq, size, all⟩)
    · exact .inherit word
    · exact .keyword word
    · rw [eq]
      exact .literal size fun ch mem => Ascii.mem_hexDigits_iff.2 (all ch mem)

/-- The texts that are read as colors are those that the grammar allows. -/
theorem exists_parse?_eq_some_iff {s : String} : (∃ c, parse? s = some c) ↔ Spelled s := by
  rw [spelled_iff, spelling_iff]
  unfold parse?
  dsimp only
  split_ifs with inherit keyword hex <;> simp [*]

/-- What was read is shown without the blanks and in small letters. -/
theorem display_of_parse? {s : String} {c : Color} (h : parse? s = some c) :
    c.display = Ascii.lower (Text.trim s) := by
  unfold parse? at h
  dsimp only at h
  split_ifs at h with inherit keyword hex
  · cases h
    exact (beq_iff_eq.1 inherit).symm
  · cases h
    exact (beq_iff_eq.1 keyword).symm
  · cases h
    rfl

end Color

end InlineMarkup
