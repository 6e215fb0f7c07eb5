import Mathlib.Data.List.TakeWhile
import Mathlib.Tactic.SplitIfs
import InlineMarkup.Toml.Text

/-!
# Strings read back

A string is read back from each of its four forms, if the form suits it, as the one that is chosen
does (`Toml.readString?_writeString`). In a string on several lines no more than two quotes stand
in a row, so that the three at its end are found.
-/

namespace InlineMarkup.Toml

variable {c quote : Char} {chars s w rest : List Char} {escapes : Bool}

/-! ## Escapes -/

theorem toNat_lt_of_isControl (control : isControl c) : c.toNat < 128 := by
  rw [isControl, Bool.or_eq_true, Bool.and_eq_true, decide_eq_true_eq, beq_iff_eq] at control
  rcases control with ⟨below, -⟩ | rfl
  · have small : c.toNat < 32 := UInt32.lt_iff_toNat_lt.1 below
    omega
  · decide

theorem readEscape?_of_escapeLetter? {letter : Char} (h : escapeLetter? c = some letter)
    (rest : List Char) :
    readEscape? (letter :: rest) = some (c, 1) ∧ isLineEnd (letter :: rest) = false := by
  unfold escapeLetter? at h
  split_ifs at h <;> (cases h; subst c; exact ⟨rfl, rfl⟩)

theorem readEscape?_unit (control : isControl c) (rest : List Char) :
    readEscape? ('u' :: ((Ascii.hex4 c.toNat).map Char.toUpper ++ rest)) = some (c, 5) := by
  have small := toNat_lt_of_isControl control
  have value := Ascii.hexValue?_map_toUpper_hex4 (show c.toNat < 65536 by omega)
  have four : ((Ascii.hex4 c.toNat).map Char.toUpper).length = 4 := rfl
  generalize (Ascii.hex4 c.toNat).map Char.toUpper = digits at value four
  have taken : (digits ++ rest).take 4 = digits := List.take_left' four
  have valid : c.toNat.isValidChar := c.valid
  simp [readEscape?, readCode?, taken, four, value, charOfCode?, valid, Char.ofNat_toNat]

/-- How a character of a basic string is written: by an escape that does not stand at the end of a
line, or as it is. -/
inductive Written (c : Char) : List Char → Prop where
  | escape (chars : List Char)
      (read : ∀ rest, readEscape? (chars ++ rest) = some (c, chars.length))
      (inLine : ∀ rest, isLineEnd (chars ++ rest) = false) : Written c ('\\' :: chars)
  | itself (noQuote : c ≠ '"') (noBackslash : c ≠ '\\') (shown : isControl c = false) :
      Written c [c]

/-- What is written for a character of a basic string, and how many quotes stand in a row then. -/
inductive Piece (multiline : Bool) (free quotes : Nat) : Char → List Char → Nat → Prop where
  | quote (few : quotes < free) : Piece multiline free quotes '"' ['"'] (quotes + 1)
  | newline (several : multiline) : Piece multiline free quotes '\n' ['\n'] 0
  | written (c : Char) (chars : List Char) (written : Written c chars) :
      Piece multiline free quotes c chars 0

theorem writeBasic_cons (multiline : Bool) (free quotes : Nat) (c : Char) (s : List Char) :
    ∃ chars quotes', Piece multiline free quotes c chars quotes' ∧
      writeBasic multiline free quotes (c :: s) =
        chars ++ writeBasic multiline free quotes' s := by
  rw [writeBasic]
  split
  · rename_i same
    subst same
    split
    · rename_i few
      exact ⟨_, _, .quote few, rfl⟩
    · exact ⟨_, _, .written _ _ (.escape ['"'] (fun _ => rfl) (fun _ => rfl)), rfl⟩
  rename_i noQuote
  split
  · rename_i newline
    obtain ⟨rfl, several⟩ := newline
    exact ⟨_, _, .newline several, rfl⟩
  split
  · rename_i letter stands
    have read := readEscape?_of_escapeLetter? stands
    exact ⟨_, _, .written _ _ (.escape [letter] (fun rest => (read rest).1)
      (fun rest => (read rest).2)), rfl⟩
  rename_i noLetter
  split
  · rename_i control
    exact ⟨_, _, .written _ _ (.escape _ (readEscape?_unit control) (fun _ => rfl)), rfl⟩
  · rename_i shown
    have noBackslash : c ≠ '\\' := by
      rintro rfl
      cases noLetter
    exact ⟨_, _, .written _ _ (.itself noQuote noBackslash (eq_false_of_ne_true shown)), rfl⟩

/-! ## Strings on one line -/

theorem readBasicFrom_length (chars rest : List Char) :
    readBasicFrom chars.length (chars ++ rest) = readBasicFrom 0 rest := by
  induction chars with
  | nil => rfl
  | cons c chars ih => exact ih

theorem readBasicFrom_of_written (written : Written c chars) (rest : List Char) :
    readBasicFrom 0 (chars ++ rest) =
      (readBasicFrom 0 rest).map fun (s, rest) => (c :: s, rest) := by
  cases written with
  | escape chars read inLine =>
    rw [List.cons_append, readBasicFrom, if_neg (by decide), if_pos rfl, read, Option.bind_eq_bind,
      Option.bind_some]
    dsimp only
    rw [readBasicFrom_length]
    cases readBasicFrom 0 rest <;> rfl
  | itself noQuote noBackslash shown =>
    rw [List.singleton_append, readBasicFrom, if_neg noQuote, if_neg noBackslash, shown,
      if_neg Bool.false_ne_true]
    cases readBasicFrom 0 rest <;> rfl

theorem readBasicFrom_writeBasic (quotes : Nat) (s rest : List Char) :
    readBasicFrom 0 (writeBasic false 0 quotes s ++ '"' :: rest) = some (s, rest) := by
  induction s generalizing quotes with
  | nil => rfl
  | cons c s ih =>
    obtain ⟨chars, quotes', piece, eq⟩ := writeBasic_cons false 0 quotes c s
    rw [eq, List.append_assoc]
    cases piece with
    | quote few => cases few
    | newline several => cases several
    | written _ _ written =>
      rw [readBasicFrom_of_written written, ih]
      rfl

theorem readLiteral_append (plain : ∀ c ∈ s, c ≠ '\'' ∧ isControl c = false) (rest : List Char) :
    readLiteral (s ++ '\'' :: rest) = some (s, rest) := by
  induction s with
  | nil => rfl
  | cons c s ih =>
    obtain ⟨⟨noQuote, shown⟩, plain⟩ := List.forall_mem_cons.1 plain
    rw [List.cons_append, readLiteral, if_neg noQuote, shown, if_neg Bool.false_ne_true, ih plain]
    rfl

/-! ## Strings on several lines -/

/-- The number of quotes at the start of a text. -/
def lead (quote : Char) (s : List Char) : Nat :=
  (s.takeWhile (· == quote)).length

/-- A text `s` is written as `w` inside three quotes. -/
inductive Body (quote : Char) (escapes : Bool) : (s w : List Char) → Prop where
  | nil : Body quote escapes [] []
  | quote {s w : List Char} (few : lead quote (quote :: w) ≤ 2) (body : Body quote escapes s w) :
      Body quote escapes (quote :: s) (quote :: w)
  | itself {c : Char} {s w : List Char} (noQuote : c ≠ quote) (noEscape : ¬ (c = '\\' ∧ escapes))
      (shown : isControl c = false ∨ c = '\n') (body : Body quote escapes s w) :
      Body quote escapes (c :: s) (c :: w)
  | escape {c : Char} {s w : List Char} (chars : List Char) (noQuote : '\\' ≠ quote)
      (escaped : escapes) (read : ∀ rest, readEscape? (chars ++ rest) = some (c, chars.length))
      (inLine : ∀ rest, isLineEnd (chars ++ rest) = false) (body : Body quote escapes s w) :
      Body quote escapes (c :: s) ('\\' :: chars ++ w)

theorem readMultilineFrom_length (chars rest : List Char) :
    readMultilineFrom quote escapes chars.length (chars ++ rest) =
      readMultilineFrom quote escapes 0 rest := by
  induction chars with
  | nil => rfl
  | cons c chars ih => exact ih

theorem lead_eq_length (quotes : ∀ c ∈ w, c = quote) : lead quote w = w.length := by
  rw [lead, List.takeWhile_eq_self_iff.2 (by simpa using quotes)]

/-- At most two quotes before the end of a string are part of it. -/
theorem readEnd?_of_quotes (quotes : ∀ c ∈ w, c = quote) (few : lead quote w ≤ 2)
    (after : rest.head? ≠ some quote) :
    readEnd? quote (w ++ quote :: quote :: quote :: rest) = some (some (w, rest)) := by
  rw [lead_eq_length quotes] at few
  have ends : (quote :: quote :: quote :: rest).takeWhile (· == quote) = [quote, quote, quote] := by
    cases rest with
    | nil => simp
    | cons d rest => simp_all
  have run : (w ++ quote :: quote :: quote :: rest).takeWhile (· == quote) =
      w ++ [quote, quote, quote] := by
    rw [List.takeWhile_append_of_pos (by simpa using quotes), ends]
  have size : (w ++ [quote, quote, quote]).length = w.length + 3 := List.length_append
  have first : (w ++ [quote, quote, quote]).drop 3 = w := by
    obtain ⟨n, rfl⟩ : ∃ n, w = List.replicate n quote := ⟨_, List.eq_replicate_of_mem quotes⟩
    have three : [quote, quote, quote] = List.replicate 3 quote := rfl
    rw [three, List.replicate_append_replicate, List.drop_replicate, Nat.add_sub_cancel]
  have behind : (w ++ quote :: quote :: quote :: rest).drop (w.length + 3) = rest := by
    simp [List.drop_append]
  simp only [readEnd?]
  rw [run, size, if_neg (by omega), if_pos (by omega), first, behind]

/-- Where something else follows before the end, two quotes are no end. -/
theorem readEnd?_eq_none (other : ¬ ∀ c ∈ w, c = quote) (few : lead quote w ≤ 2)
    (rest : List Char) : readEnd? quote (w ++ rest) = none := by
  have run : (w ++ rest).takeWhile (· == quote) = w.takeWhile (· == quote) := by
    rw [List.takeWhile_append, if_neg]
    intro whole
    apply other
    have all := (List.takeWhile_prefix _).eq_of_length whole
    simpa using List.takeWhile_eq_self_iff.1 all
  simp only [readEnd?]
  rw [run]
  exact if_pos (by rw [lead] at few; omega)

/-- A text that is written with nothing but quotes is those quotes. -/
theorem Body.eq_of_quotes (body : Body quote escapes s w) (quotes : ∀ c ∈ w, c = quote) :
    s = w := by
  induction body with
  | nil => rfl
  | quote few body ih => rw [ih (List.forall_mem_cons.1 quotes).2]
  | itself noQuote noEscape shown body ih => exact absurd (List.forall_mem_cons.1 quotes).1 noQuote
  | escape chars noQuote escaped read inLine body ih =>
    exact absurd (quotes '\\' (by simp)) noQuote

theorem Body.read (body : Body quote escapes s w) (plain : isControl quote = false)
    (noBackslash : quote ≠ '\\') (after : rest.head? ≠ some quote) :
    readMultilineFrom quote escapes 0 (w ++ quote :: quote :: quote :: rest) = some (s, rest) := by
  induction body with
  | nil =>
    have ends := @readEnd?_of_quotes quote [] rest (by simp) (Nat.zero_le 2) after
    rw [List.nil_append] at ends ⊢
    rw [readMultilineFrom, ends, if_pos ⟨rfl, rfl⟩]
    rfl
  | @quote s w few body ih =>
    by_cases quotes : ∀ c ∈ quote :: w, c = quote
    · have ends := readEnd?_of_quotes quotes few after
      rw [List.cons_append] at ends ⊢
      rw [readMultilineFrom, ends, if_pos ⟨rfl, rfl⟩, (Body.quote few body).eq_of_quotes quotes]
      rfl
    · have noEnd := readEnd?_eq_none quotes few (quote :: quote :: quote :: rest)
      rw [List.cons_append] at noEnd ⊢
      rw [readMultilineFrom, noEnd, if_neg (by simp), if_neg (by simp [noBackslash]),
        if_neg (by simp [plain]), ih]
      rfl
  | itself noQuote noEscape shown body ih =>
    rw [List.cons_append, readMultilineFrom, if_neg (by simp [noQuote]), if_neg noEscape,
      if_neg (by rcases shown with shown | shown <;> simp [shown]), ih]
    rfl
  | escape chars noQuote escaped read inLine body ih =>
    rw [List.cons_append, List.cons_append, List.append_assoc, readMultilineFrom,
      if_neg (by simp [noQuote]), if_pos ⟨rfl, escaped⟩, inLine, if_neg Bool.false_ne_true, read,
      Option.bind_eq_bind, Option.bind_some]
    dsimp only
    rw [readMultilineFrom_length, ih]
    rfl

theorem lead_cons_of_ne {d : Char} (other : d ≠ quote) (w : List Char) :
    lead quote (d :: w) = 0 := by
  simp [lead, other]

theorem lead_cons_self (quote : Char) (w : List Char) :
    lead quote (quote :: w) = lead quote w + 1 := by
  simp [lead]

/-- Of quotes in a row only the free ones stand as they are. -/
theorem lead_writeBasic_le (multiline : Bool) (free quotes : Nat) (s : List Char) :
    lead '"' (writeBasic multiline free quotes s) ≤ free - quotes := by
  induction s generalizing quotes with
  | nil => exact Nat.zero_le _
  | cons c s ih =>
    obtain ⟨chars, quotes', piece, eq⟩ := writeBasic_cons multiline free quotes c s
    rw [eq]
    cases piece with
    | quote few =>
      have rest := ih (quotes + 1)
      rw [List.singleton_append, lead_cons_self]
      omega
    | newline several =>
      rw [List.singleton_append, lead_cons_of_ne (by decide)]
      exact Nat.zero_le _
    | written _ _ written =>
      cases written with
      | escape chars read inLine =>
        rw [List.cons_append, lead_cons_of_ne (by decide)]
        exact Nat.zero_le _
      | itself noQuote noBackslash shown =>
        rw [List.singleton_append, lead_cons_of_ne noQuote]
        exact Nat.zero_le _

theorem body_writeBasic (quotes : Nat) (s : List Char) :
    Body '"' true s (writeBasic true 2 quotes s) := by
  induction s generalizing quotes with
  | nil => exact .nil
  | cons c s ih =>
    have few := lead_writeBasic_le true 2 quotes (c :: s)
    obtain ⟨chars, quotes', piece, eq⟩ := writeBasic_cons true 2 quotes c s
    rw [eq] at few ⊢
    cases piece with
    | quote _ => exact .quote (few.trans (Nat.sub_le 2 quotes)) (ih _)
    | newline several => exact .itself (by decide) (by decide) (.inr rfl) (ih _)
    | written _ _ written =>
      cases written with
      | escape chars read inLine => exact .escape chars (by decide) rfl read inLine (ih _)
      | itself noQuote noBackslash shown =>
        exact .itself noQuote (by simp [noBackslash]) (.inl shown) (ih _)

theorem lead_lt_of_hasRun {n : Nat} (none : hasRun quote n s = false) : lead quote s < n := by
  cases s with
  | nil => simpa [hasRun, lead] using Nat.pos_of_ne_zero (by simpa [hasRun] using none)
  | cons c s =>
    rw [hasRun, Bool.or_eq_false_iff, beq_eq_false_iff_ne] at none
    by_contra many
    apply none.1
    obtain ⟨more, eq⟩ := List.takeWhile_prefix (l := c :: s) (· == quote)
    have front : (c :: s).take n = ((c :: s).takeWhile (· == quote)).take n :=
      (congrArg (List.take n) eq.symm).trans
        (List.take_append_of_le_length (Nat.le_of_not_lt many))
    rw [front]
    apply List.eq_replicate_iff.2
    constructor
    · exact List.length_take_of_le (Nat.le_of_not_lt many)
    · intro d mem
      have inRun := List.mem_of_mem_take mem
      have same := List.mem_takeWhile_imp inRun
      exact eq_of_beq same

theorem body_self (shown : ∀ c ∈ s, isControl c = false ∨ c = '\n')
    (few : hasRun quote 3 s = false) : Body quote false s s := by
  induction s with
  | nil => exact .nil
  | cons c s ih =>
    obtain ⟨here, shown⟩ := List.forall_mem_cons.1 shown
    have lead := lead_lt_of_hasRun few
    rw [hasRun, Bool.or_eq_false_iff] at few
    have body := ih shown few.2
    by_cases same : c = quote
    · subst same
      exact .quote (Nat.le_of_lt_succ lead) body
    · exact .itself same (by simp) here body

/-! ## Strings of any form -/

theorem skipNewline_cons (shown : isControl c = false) (rest : List Char) :
    skipNewline (c :: rest) = c :: rest := by
  unfold skipNewline
  split
  · rename_i eq
    cases eq
    cases shown
  · rename_i eq
    cases eq
    cases shown
  · rfl

/-- A newline at the start of a string on several lines is passed over, and one is written there if
the string has any. -/
theorem Body.skipNewline (body : Body quote escapes s w) (plain : isControl quote = false)
    (rest : List Char) :
    skipNewline ((if s.contains '\n' then ['\n'] else []) ++ w ++ quote :: rest) =
      w ++ quote :: rest := by
  cases newline : s.contains '\n' with
  | true => rfl
  | false =>
    rw [if_neg Bool.false_ne_true, List.nil_append]
    cases body with
    | nil => exact skipNewline_cons plain rest
    | quote few body => exact skipNewline_cons plain _
    | itself noQuote noEscape shown body =>
      rename_i c s w
      have other : c ≠ '\n' := by
        rintro rfl
        simp at newline
      exact skipNewline_cons (shown.resolve_right other) _
    | escape chars noQuote escaped read inLine body => exact skipNewline_cons (by decide) _

/-- What a form asks of a text that is written in it. -/
def Form.Suits (s : List Char) : Form → Prop
  | basic => True
  | literal => ∀ c ∈ s, c ≠ '\'' ∧ isControl c = false
  | multilineBasic => True
  | multilineLiteral => (∀ c ∈ s, isControl c = false ∨ c = '\n') ∧ hasRun '\'' 3 s = false

theorem Form.suits_choose (s : List Char) : (choose s).Suits s := by
  have shown (none : (s.any fun c => isControl c && c != '\n') = false) :
      ∀ c ∈ s, isControl c = false ∨ c = '\n' := by
    intro c mem
    have here := List.any_eq_false.1 none c mem
    simpa [imp_iff_not_or] using here
  simp only [choose]
  split_ifs with plain literal several multiline newline
  · exact trivial
  · simp only [Bool.and_eq_true, Bool.not_eq_true'] at literal
    obtain ⟨⟨noControl, noQuote⟩, noNewline⟩ := literal
    intro c mem
    have other {d : Char} (absent : s.contains d = false) : c ≠ d := by
      rintro rfl
      simp [mem] at absent
    exact ⟨other noQuote, (shown noControl c mem).resolve_right (other noNewline)⟩
  · exact trivial
  · simp only [Bool.and_eq_true, Bool.not_eq_true'] at multiline
    exact ⟨shown multiline.1, multiline.2⟩
  · exact trivial
  · exact trivial

/-- A quote that is not followed by two more begins a string on one line. -/
theorem readString?_eq_readLine? (isQuote : quote = '"' ∨ quote = '\'')
    (other : w.head? ≠ some quote) (rest : List Char) :
    readString? (quote :: (w ++ quote :: '\n' :: rest)) =
      readLine? (quote :: (w ++ quote :: '\n' :: rest)) := by
  have two {more : List Char} : w ++ quote :: '\n' :: rest ≠ quote :: quote :: more := by
    intro eq
    cases w with
    | nil =>
      rw [List.nil_append, List.cons.injEq, List.cons.injEq] at eq
      rcases isQuote with rfl | rfl
      · cases eq.2.1
      · cases eq.2.1
    | cons c w =>
      rw [List.cons_append, List.cons.injEq] at eq
      exact other (congrArg some eq.1)
  unfold readString?
  split
  · rename_i eq
    obtain ⟨rfl, eq⟩ := List.cons.inj eq
    exact absurd eq two
  · rename_i eq
    obtain ⟨rfl, eq⟩ := List.cons.inj eq
    exact absurd eq two
  · rfl

/-- A string is read back, if a line ends behind it. -/
theorem readString?_write {form : Form} (suits : form.Suits s) (rest : List Char) :
    readString? (form.write s ++ '\n' :: rest) = some (s, '\n' :: rest) := by
  cases form with
  | basic =>
    have noQuote : (writeBasic false 0 0 s).head? ≠ some '"' := by
      have few := lead_writeBasic_le false 0 0 s
      intro first
      obtain ⟨w, eq⟩ := List.head?_eq_some_iff.1 first
      rw [eq, lead_cons_self] at few
      omega
    simp only [Form.write, List.append_assoc, List.cons_append, List.nil_append]
    rw [readString?_eq_readLine? (.inl rfl) noQuote]
    exact readBasicFrom_writeBasic 0 s _
  | literal =>
    have noQuote : s.head? ≠ some '\'' := by
      intro first
      exact (suits _ (List.mem_of_mem_head? first)).1 rfl
    simp only [Form.write, List.append_assoc, List.cons_append, List.nil_append]
    rw [readString?_eq_readLine? (.inr rfl) noQuote]
    exact readLiteral_append suits _
  | multilineBasic =>
    have body := body_writeBasic 0 s
    have start := body.skipNewline (by decide) ('"' :: '"' :: '\n' :: rest)
    simp only [Form.write, List.append_assoc, List.cons_append, List.nil_append] at start ⊢
    rw [readString?, start]
    exact body.read (by decide) (by decide) (by simp)
  | multilineLiteral =>
    have body := body_self suits.1 suits.2
    have start := body.skipNewline (by decide) ('\'' :: '\'' :: '\n' :: rest)
    simp only [Form.write, List.append_assoc, List.cons_append, List.nil_append] at start ⊢
    rw [readString?, start]
    exact body.read (by decide) (by decide) (by simp)

theorem readString?_writeString (s : String) (rest : List Char) :
    readString? ((writeString s).toList ++ '\n' :: rest) = some (s.toList, '\n' :: rest) := by
  rw [writeString, String.toList_ofList]
  exact readString?_write (Form.suits_choose s.toList) rest

end InlineMarkup.Toml
