import Mathlib.Data.List.TakeDrop
import InlineMarkup.Proofs.Json.Tokens

/-!
# Skipped values

The grammar of values (`WellFormed`), of which only texts are looked into any further when they
are wanted. A well-formed value is skipped as a whole, whatever follows it, except that nothing may
go on with a number (`skipValue_of_wellFormed`).
-/

namespace InlineMarkup.Json

/-! ## The grammar -/

/-- One or more digits. -/
structure Digits (digits : List Char) : Prop where
  filled : digits ≠ []
  all : ∀ c ∈ digits, c.isDigit

/-- The whole part of a number, without leading zeros. -/
inductive Whole : List Char → Prop where
  | zero : Whole ['0']
  | digits {c : Char} {digits : List Char} (noZero : c ≠ '0') (all : Digits (c :: digits)) :
      Whole (c :: digits)

/-- The fraction of a number, if it has one. -/
inductive Fraction : List Char → Prop where
  | none : Fraction []
  | some {digits : List Char} (all : Digits digits) : Fraction ('.' :: digits)

/-- The exponent of a number, if it has one. -/
inductive Exponent : List Char → Prop where
  | none : Exponent []
  | some {letter : Char} {sign digits : List Char} (isLetter : letter = 'e' ∨ letter = 'E')
      (isSign : sign ∈ [[], ['+'], ['-']]) (all : Digits digits) :
      Exponent (letter :: (sign ++ digits))

/-- A number. -/
inductive Number : List Char → Prop where
  | mk {sign whole fraction exponent : List Char} (isSign : sign ∈ [[], ['-']])
      (isWhole : Whole whole) (isFraction : Fraction fraction) (isExponent : Exponent exponent) :
      Number (sign ++ (whole ++ (fraction ++ exponent)))

/-- What may follow the opening quote of a text. The code units in it need not make characters. -/
inductive TextBody : List Char → Prop where
  | close : TextBody ['"']
  | itself {c : Char} {body : List Char} (quote : c ≠ '"') (backslash : c ≠ '\\')
      (printed : 0x20 ≤ c.toNat) (rest : TextBody body) : TextBody (c :: body)
  | letter {l c : Char} {body : List Char} (stands : (l, c) ∈ escapeLetters)
      (rest : TextBody body) : TextBody ('\\' :: l :: body)
  | unit {digits body : List Char} {n : Nat} (unit : CodeUnit digits n) (rest : TextBody body) :
      TextBody ('\\' :: 'u' :: (digits ++ body))

/-- The parts of a text that the grammar of values is about. -/
inductive Part where
  | value
  /-- What follows an item of an array, up to the end of the array. -/
  | items
  /-- A member of an object. -/
  | member
  /-- What follows a member of an object, up to the end of the object. -/
  | members
deriving DecidableEq, Repr

/-- The grammar of values, with blanks between the tokens. -/
inductive WellFormed : Part → List Char → Prop where
  | word {word : String} (known : word ∈ ["null", "true", "false"]) :
      WellFormed .value word.toList
  | number {v : List Char} (isNumber : Number v) : WellFormed .value v
  | text {body : List Char} (isText : TextBody body) : WellFormed .value ('"' :: body)
  | emptyArray {w : List Char} (blank : Blank w) : WellFormed .value ('[' :: (w ++ [']']))
  | array {w v rest : List Char} (blank : Blank w) (first : WellFormed .value v)
      (others : WellFormed .items rest) : WellFormed .value ('[' :: (w ++ (v ++ rest)))
  | emptyObject {w : List Char} (blank : Blank w) :
      WellFormed .value ('\x7b' :: (w ++ ['\x7d']))
  | object {w m rest : List Char} (blank : Blank w) (first : WellFormed .member m)
      (others : WellFormed .members rest) : WellFormed .value ('\x7b' :: (w ++ (m ++ rest)))
  | lastItem {w : List Char} (blank : Blank w) : WellFormed .items (w ++ [']'])
  | item {w w' v rest : List Char} (blank : Blank w) (blank' : Blank w')
      (here : WellFormed .value v) (others : WellFormed .items rest) :
      WellFormed .items (w ++ ',' :: (w' ++ (v ++ rest)))
  | member {name w w' v : List Char} (isText : TextBody name) (blank : Blank w)
      (blank' : Blank w') (value : WellFormed .value v) :
      WellFormed .member ('"' :: (name ++ (w ++ ':' :: (w' ++ v))))
  | lastMember {w : List Char} (blank : Blank w) : WellFormed .members (w ++ ['\x7d'])
  | nextMember {w w' m rest : List Char} (blank : Blank w) (blank' : Blank w')
      (here : WellFormed .member m) (others : WellFormed .members rest) :
      WellFormed .members (w ++ ',' :: (w' ++ (m ++ rest)))

/-- What may follow a value: nothing goes on with a number. -/
def Stops (s : List Char) : Prop :=
  ∀ c, s.head? = some c → isSpace c ∨ c = ',' ∨ c = ']' ∨ c = '\x7d'

/-! ## Texts and numbers -/

theorem skipTextFrom_escape (escape s : List Char) :
    skipTextFrom escape.length (escape ++ s) = skipTextFrom 0 s := by
  induction escape with
  | nil => rfl
  | cons d escape ih => exact ih

theorem skipText_of_textBody {body : List Char} (h : TextBody body) (s : List Char) :
    skipText (body ++ s) = .ok s := by
  rw [skipText]
  induction h with
  | close => rfl
  | itself quote backslash printed rest ih =>
    rw [List.cons_append, skipTextFrom, if_neg quote, if_neg backslash,
      if_neg (not_lt_space_iff.2 printed), ih]
  | letter stands rest ih =>
    rename_i l c body
    have skip : skipEscape ([l] ++ (body ++ s)) = .ok 1 := by
      simp [skipEscape, simpleEscape?_of_mem stands]
    rw [List.cons_append, List.cons_append, skipTextFrom, if_neg (by decide), if_pos rfl,
      ← List.singleton_append, skip]
    exact (skipTextFrom_escape [l] _).trans ih
  | unit unit rest ih =>
    rename_i digits body n
    have noLetter : simpleEscape? 'u' = none := rfl
    have skip : skipEscape ('u' :: digits ++ (body ++ s)) = .ok ('u' :: digits).length := by
      simp [skipEscape, noLetter, unit.codeUnit_append, unit.four, Except.map]
    have split : '\\' :: 'u' :: (digits ++ body) ++ s =
        '\\' :: ('u' :: digits ++ (body ++ s)) := by simp
    rw [split, skipTextFrom, if_neg (by decide), if_pos rfl, skip]
    exact (skipTextFrom_escape ('u' :: digits) _).trans ih

section Numbers

variable (missing : Fault) {digits fraction exponent whole s : List Char}

/-- The text does not go on with a digit. -/
def NoDigit (s : List Char) : Prop :=
  ∀ c, s.head? = some c → c.isDigit = false

theorem readDigits_append (h : Digits digits) (ends : NoDigit s) :
    readDigits missing (digits ++ s) = .ok (digits, s) := by
  have span : (digits ++ s).span Char.isDigit = (digits, s) := by
    rw [List.span_eq_takeWhile_dropWhile, List.takeWhile_append_of_pos h.all,
      List.dropWhile_append_of_pos h.all]
    cases s with
    | nil => simp
    | cons c s => simp [ends c rfl]
  rw [readDigits, span]
  cases digits with
  | nil => exact absurd rfl h.filled
  | cons c digits => rfl

theorem Stops.head?_ne (ends : Stops s) {c : Char}
    (other : ¬ (isSpace c ∨ c = ',' ∨ c = ']' ∨ c = '\x7d')) : s.head? ≠ some c :=
  fun first => other (ends c first)

theorem Stops.noDigit (ends : Stops s) : NoDigit s := by
  intro c first
  rcases ends c first with space | rfl | rfl | rfl
  · simp only [isSpace, Bool.or_eq_true, beq_iff_eq, or_assoc] at space
    rcases space with rfl | rfl | rfl | rfl <;> rfl
  all_goals rfl

/-- Neither a fraction nor an exponent begins with a digit, and only a fraction with a point. -/
theorem noDigit_exponent (isExponent : Exponent exponent) (ends : Stops s) :
    NoDigit (exponent ++ s) ∧ (exponent ++ s).head? ≠ some '.' := by
  cases isExponent with
  | none => exact ⟨ends.noDigit, ends.head?_ne (by decide)⟩
  | some isLetter isSign all =>
    constructor
    · rintro c ⟨⟩
      rcases isLetter with rfl | rfl <;> rfl
    · rcases isLetter with rfl | rfl <;> simp

theorem readFraction_append (isFraction : Fraction fraction) (ends : NoDigit s)
    (noPoint : s.head? ≠ some '.') :
    ∃ digits, readFraction missing (fraction ++ s) = .ok (digits, s) := by
  cases isFraction with
  | none =>
    refine ⟨[], ?_⟩
    rw [List.nil_append]
    unfold readFraction
    split
    · exact absurd rfl noPoint
    · rfl
  | some all => exact ⟨_, readDigits_append missing all ends⟩

theorem readExponent_append (isExponent : Exponent exponent) (ends : Stops s) :
    ∃ found, readExponent missing (exponent ++ s) = .ok (found, s) := by
  cases isExponent with
  | none =>
    cases s with
    | nil => exact ⟨_, rfl⟩
    | cons c s =>
      have small : c ≠ 'e' := by
        rintro rfl
        exact ends.head?_ne (by decide) rfl
      have capital : c ≠ 'E' := by
        rintro rfl
        exact ends.head?_ne (by decide) rfl
      simp [readExponent, small, capital]
  | some isLetter isSign all =>
    rename_i letter sign digits
    have read := readDigits_append missing all ends.noDigit
    simp only [List.mem_cons, List.not_mem_nil, or_false] at isSign
    rw [List.cons_append, readExponent.eq_def]
    dsimp only
    rw [if_pos isLetter]
    rcases isSign with rfl | rfl | rfl
    · have noSign {sign : Char} (noDigit : sign.isDigit = false) (rest : List Char) :
          digits ++ s ≠ sign :: rest := by
        intro eq
        obtain ⟨d, others, rfl⟩ := List.exists_cons_of_ne_nil all.filled
        cases eq
        exact absurd (all.all sign List.mem_cons_self) (by simp [noDigit])
      rw [List.nil_append]
      split
      · rename_i rest eq
        exact absurd eq (noSign rfl rest)
      · rename_i rest eq
        exact absurd eq (noSign rfl rest)
      · rw [read]
        exact ⟨_, rfl⟩
    · simp [read, Except.map]
    · simp [read, Except.map]

theorem readNumeral_append (isWhole : Whole whole) (isFraction : Fraction fraction)
    (isExponent : Exponent exponent) (ends : Stops s) :
    ∃ n, readNumeral missing (whole ++ (fraction ++ (exponent ++ s))) = .ok (n, s) := by
  obtain ⟨noDigit, noPoint⟩ := noDigit_exponent isExponent ends
  obtain ⟨fractionDigits, readF⟩ := readFraction_append missing isFraction noDigit noPoint
  obtain ⟨found, readE⟩ := readExponent_append missing isExponent ends
  have behind : NoDigit (fraction ++ (exponent ++ s)) := by
    cases isFraction with
    | none => exact noDigit
    | some all =>
      rintro c ⟨⟩
      rfl
  have digits : Digits whole := by
    cases isWhole with
    | zero => exact ⟨List.cons_ne_nil _ _, by simp⟩
    | digits noZero all => exact all
  have noLeadingZero : ¬ (whole.head? = some '0' ∧ whole.length ≠ 1) := by
    cases isWhole with
    | zero => simp
    | digits noZero all => simp [noZero]
  have readW := readDigits_append missing digits behind
  refine ⟨⟨whole, fractionDigits, found.1, found.2⟩, ?_⟩
  simp only [readNumeral, readW, readF, readE, if_neg noLeadingZero, bind, Except.bind, pure,
    Except.pure]

end Numbers

/-! ## What a part begins with -/

section Begins

variable {w v s : List Char}

theorem stops_append (blank : Blank w) {c : Char} (token : c = ',' ∨ c = ']' ∨ c = '\x7d')
    (rest s : List Char) : Stops ((w ++ c :: rest) ++ s) := by
  intro first eq
  cases w with
  | nil =>
    cases eq
    exact .inr token
  | cons d w =>
    cases eq
    exact .inl (blank first List.mem_cons_self)

theorem stops_of_items (h : WellFormed .items v) (s : List Char) : Stops (v ++ s) := by
  cases h with
  | lastItem blank => exact stops_append blank (.inr (.inl rfl)) [] s
  | item blank blank' here others => exact stops_append blank (.inl rfl) _ s

theorem stops_of_members (h : WellFormed .members v) (s : List Char) : Stops (v ++ s) := by
  cases h with
  | lastMember blank => exact stops_append blank (.inr (.inr rfl)) [] s
  | nextMember blank blank' here others => exact stops_append blank (.inl rfl) _ s

theorem ne_of_isDigit {c d : Char} (digit : c.isDigit) (other : d.isDigit = false) : c ≠ d := by
  rintro rfl
  rw [digit] at other
  cases other

theorem isSpace_of_isDigit {c : Char} (digit : c.isDigit) : isSpace c = false := by
  have noSpace := ne_of_isDigit (d := ' ') digit rfl
  have noLineFeed := ne_of_isDigit (d := '\n') digit rfl
  have noTab := ne_of_isDigit (d := '\t') digit rfl
  have noReturn := ne_of_isDigit (d := '\r') digit rfl
  simp [isSpace, noSpace, noLineFeed, noTab, noReturn]

theorem Whole.begins (h : Whole v) : ∃ c rest, v = c :: rest ∧ c.isDigit := by
  cases h with
  | zero => exact ⟨_, _, rfl, rfl⟩
  | digits noZero all => exact ⟨_, _, rfl, all.all _ List.mem_cons_self⟩

/-- A number begins with a sign or a digit. -/
theorem Number.begins (h : Number v) : ∃ c rest, v = c :: rest ∧ (c = '-' ∨ c.isDigit) := by
  cases h with
  | mk isSign isWhole isFraction isExponent =>
    simp only [List.mem_cons, List.not_mem_nil, or_false] at isSign
    rcases isSign with rfl | rfl
    · obtain ⟨c, rest, rfl, digit⟩ := isWhole.begins
      exact ⟨_, _, rfl, .inr digit⟩
    · exact ⟨_, _, rfl, .inl rfl⟩

/-- A value begins with no blank and with no end of an array. -/
theorem begins_of_wellFormed (h : WellFormed .value v) :
    ∃ c rest, v = c :: rest ∧ isSpace c = false ∧ c ≠ ']' := by
  cases h with
  | word known =>
    simp only [List.mem_cons, List.not_mem_nil, or_false] at known
    rcases known with rfl | rfl | rfl <;> exact ⟨_, _, rfl, rfl, by decide⟩
  | number isNumber =>
    obtain ⟨c, rest, rfl, sign | digit⟩ := isNumber.begins
    · subst sign
      exact ⟨_, _, rfl, rfl, by decide⟩
    · exact ⟨c, rest, rfl, isSpace_of_isDigit digit, ne_of_isDigit digit rfl⟩
  | text isText => exact ⟨_, _, rfl, rfl, by decide⟩
  | emptyArray blank => exact ⟨_, _, rfl, rfl, by decide⟩
  | array blank first others => exact ⟨_, _, rfl, rfl, by decide⟩
  | emptyObject blank => exact ⟨_, _, rfl, rfl, by decide⟩
  | object blank first others => exact ⟨_, _, rfl, rfl, by decide⟩

end Begins

/-! ## Values -/

variable {w v s : List Char}

theorem skipValueWithin_word {word : String} (known : word ∈ ["null", "true", "false"])
    (blank : Blank w) (fuel : Nat) :
    skipValueWithin (fuel + 1) (w ++ (word.toList ++ s)) = .ok s := by
  simp only [List.mem_cons, List.not_mem_nil, or_false] at known
  rcases known with rfl | rfl | rfl
  · have begun : "null".toList ++ s = 'n' :: ("ull".toList ++ s) := rfl
    rw [begun, skipValueWithin, skipSpace_append_cons blank rfl]
    exact readWord_append "ull".toList s
  · have begun : "true".toList ++ s = 't' :: ("rue".toList ++ s) := rfl
    rw [begun, skipValueWithin, skipSpace_append_cons blank rfl]
    exact readWord_append "rue".toList s
  · have begun : "false".toList ++ s = 'f' :: ("alse".toList ++ s) := rfl
    rw [begun, skipValueWithin, skipSpace_append_cons blank rfl]
    exact readWord_append "alse".toList s

theorem skipValueWithin_number (isNumber : Number v) (blank : Blank w) (ends : Stops s)
    (fuel : Nat) : skipValueWithin (fuel + 1) (w ++ (v ++ s)) = .ok s := by
  cases isNumber with
  | mk isSign isWhole isFraction isExponent =>
    obtain ⟨n, read⟩ := readNumeral_append .malformed isWhole isFraction isExponent ends
    simp only [List.mem_cons, List.not_mem_nil, or_false] at isSign
    simp only [List.append_assoc]
    rcases isSign with rfl | rfl
    · obtain ⟨c, rest, rfl, digit⟩ := isWhole.begins
      rw [List.cons_append] at read
      rw [List.nil_append, List.cons_append, skipValueWithin,
        skipSpace_append_cons blank (isSpace_of_isDigit digit)]
      dsimp only
      rw [if_neg (ne_of_isDigit digit rfl), if_neg (ne_of_isDigit digit rfl),
        if_neg (ne_of_isDigit digit rfl), if_neg (ne_of_isDigit digit rfl),
        if_neg (ne_of_isDigit digit rfl), if_neg (ne_of_isDigit digit rfl),
        if_neg (ne_of_isDigit digit rfl), if_pos digit, read]
      rfl
    · rw [List.singleton_append, skipValueWithin, skipSpace_append_cons blank rfl]
      simp [read, Except.map]

/-- How a part is skipped, with fuel enough for its length. -/
def Skips (v : List Char) : Part → Prop
  | .value => ∀ fuel w s, 2 * v.length ≤ fuel → Blank w → Stops s →
      skipValueWithin fuel (w ++ (v ++ s)) = .ok s
  | .items => ∀ fuel s, 2 * v.length ≤ fuel → skipItems fuel false (v ++ s) = .ok s
  | .member => ∀ fuel w s, 2 * v.length ≤ fuel → Blank w → Stops s →
      ∃ colon value, skipName (w ++ (v ++ s)) = .ok colon ∧ skipColon colon = .ok value ∧
        skipValueWithin fuel value = .ok s
  | .members => ∀ fuel s, 2 * v.length ≤ fuel → skipMembers fuel false (v ++ s) = .ok s

theorem skipItems_close (blank : Blank w) (fuel : Nat) (first : Bool) :
    skipItems (fuel + 1) first (w ++ ']' :: s) = .ok s := by
  rw [skipItems, skipSpace_append_cons blank rfl]
  rfl

theorem skipMembers_close (blank : Blank w) (fuel : Nat) (first : Bool) :
    skipMembers (fuel + 1) first (w ++ '\x7d' :: s) = .ok s := by
  rw [skipMembers, skipSpace_append_cons blank rfl]
  rfl

theorem skipValueWithin_array (blank : Blank w) (fuel : Nat) :
    skipValueWithin (fuel + 1) (w ++ '[' :: s) = skipItems fuel true s := by
  rw [skipValueWithin, skipSpace_append_cons blank rfl]
  rfl

theorem skipValueWithin_object (blank : Blank w) (fuel : Nat) :
    skipValueWithin (fuel + 1) (w ++ '\x7b' :: s) = skipMembers fuel true s := by
  rw [skipValueWithin, skipSpace_append_cons blank rfl]
  rfl

/-- Two steps of fuel for a character are enough: a bracket takes both, any other step reads a
character of its own. -/
theorem skips_of_wellFormed {part : Part} (h : WellFormed part v) : Skips v part := by
  induction h with
  | word known =>
    intro fuel w s enough blank ends
    obtain ⟨c, rest, begun, -⟩ := begins_of_wellFormed (.word known)
    obtain ⟨fuel, rfl⟩ := Nat.exists_eq_add_of_le' (show 1 ≤ fuel by grind)
    exact skipValueWithin_word known blank fuel
  | number isNumber =>
    intro fuel w s enough blank ends
    obtain ⟨c, rest, rfl, -⟩ := isNumber.begins
    obtain ⟨fuel, rfl⟩ := Nat.exists_eq_add_of_le' (show 1 ≤ fuel by grind)
    exact skipValueWithin_number isNumber blank ends fuel
  | text isText =>
    intro fuel w s enough blank ends
    obtain ⟨fuel, rfl⟩ := Nat.exists_eq_add_of_le' (show 1 ≤ fuel by grind)
    rw [skipValueWithin, List.cons_append, skipSpace_append_cons blank rfl]
    exact skipText_of_textBody isText s
  | emptyArray blank' =>
    intro fuel w s enough blank ends
    obtain ⟨fuel, rfl⟩ := Nat.exists_eq_add_of_le' (show 2 ≤ fuel by grind)
    rw [List.cons_append, List.append_assoc, skipValueWithin_array blank]
    exact skipItems_close blank' fuel true
  | array blank' first others ihFirst ihOthers =>
    rename_i w' v rest
    intro fuel w s enough blank ends
    obtain ⟨fuel, rfl⟩ := Nat.exists_eq_add_of_le' (show 2 ≤ fuel by grind)
    have here := ihFirst fuel [] (rest ++ s) (by grind) blank_nil (stops_of_items others s)
    have later := ihOthers fuel s (by grind)
    -- the first item is looked at once before it is skipped, in case it is the end
    obtain ⟨c, tail, rfl, noSpace, notClose⟩ := begins_of_wellFormed first
    simp only [List.cons_append, List.append_assoc, List.nil_append] at here ⊢
    rw [skipValueWithin_array blank, skipItems, skipSpace_append_cons blank' noSpace]
    simp [notClose, here, later, bind, Except.bind]
  | emptyObject blank' =>
    intro fuel w s enough blank ends
    obtain ⟨fuel, rfl⟩ := Nat.exists_eq_add_of_le' (show 2 ≤ fuel by grind)
    rw [List.cons_append, List.append_assoc, skipValueWithin_object blank]
    exact skipMembers_close blank' fuel true
  | object blank' first others ihFirst ihOthers =>
    rename_i w' m rest
    intro fuel w s enough blank ends
    obtain ⟨fuel, rfl⟩ := Nat.exists_eq_add_of_le' (show 2 ≤ fuel by grind)
    obtain ⟨colon, value, name, colonRead, here⟩ :=
      ihFirst fuel [] (rest ++ s) (by grind) blank_nil (stops_of_members others s)
    have later := ihOthers fuel s (by grind)
    cases first with
    | member isText =>
      simp only [List.cons_append, List.append_assoc, List.nil_append] at name ⊢
      rw [skipValueWithin_object blank, skipMembers, skipSpace_append_cons blank' rfl]
      simp [name, colonRead, here, later, bind, Except.bind]
  | lastItem blank =>
    intro fuel s enough
    obtain ⟨fuel, rfl⟩ := Nat.exists_eq_add_of_le' (show 1 ≤ fuel by grind)
    rw [List.append_assoc]
    exact skipItems_close blank fuel false
  | item blank blank' here others ihHere ihOthers =>
    rename_i w w' v rest
    intro fuel s enough
    obtain ⟨fuel, rfl⟩ := Nat.exists_eq_add_of_le' (show 1 ≤ fuel by grind)
    have item := ihHere fuel w' (rest ++ s) (by grind) blank' (stops_of_items others s)
    have later := ihOthers fuel s (by grind)
    simp only [List.cons_append, List.append_assoc]
    rw [skipItems, skipSpace_append_cons blank rfl]
    simp [item, later, bind, Except.bind]
  | member isText blank blank' value ih =>
    rename_i name w w' v
    intro fuel before s enough blankBefore ends
    refine ⟨w ++ ':' :: (w' ++ (v ++ s)), w' ++ (v ++ s), ?_, skipColon_append blank _,
      ih fuel w' s (by grind) blank' ends⟩
    simp only [List.cons_append, List.append_assoc]
    rw [skipName, skipSpace_append_cons blankBefore rfl]
    exact skipText_of_textBody isText _
  | lastMember blank =>
    intro fuel s enough
    obtain ⟨fuel, rfl⟩ := Nat.exists_eq_add_of_le' (show 1 ≤ fuel by grind)
    rw [List.append_assoc]
    exact skipMembers_close blank fuel false
  | nextMember blank blank' here others ihHere ihOthers =>
    rename_i w w' m rest
    intro fuel s enough
    obtain ⟨fuel, rfl⟩ := Nat.exists_eq_add_of_le' (show 1 ≤ fuel by grind)
    obtain ⟨colon, value, name, colonRead, here⟩ :=
      ihHere fuel w' (rest ++ s) (by grind) blank' (stops_of_members others s)
    have later := ihOthers fuel s (by grind)
    simp only [List.cons_append, List.append_assoc]
    rw [skipMembers, skipSpace_append_cons blank rfl]
    simp [name, colonRead, here, later, bind, Except.bind]

/-- A well-formed value is skipped, and nothing else. -/
theorem skipValue_of_wellFormed (h : WellFormed .value v) (blank : Blank w) (ends : Stops s) :
    skipValue (w ++ (v ++ s)) = .ok s := by
  refine skips_of_wellFormed h _ w s ?_ blank ends
  simp only [List.length_append]
  omega

end InlineMarkup.Json
