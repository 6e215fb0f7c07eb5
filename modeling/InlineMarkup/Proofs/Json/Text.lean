import Mathlib.Tactic.SplitIfs
import InlineMarkup.Json.Text
import InlineMarkup.Json.Value
import InlineMarkup.Proofs.Color.Digits

/-!
# Texts read back

A text in quotes may be written in many ways: a character stands for itself, or a backslash and a
letter, one code unit or two of them stand for it (`Spelled`). However it is written, the text is
read, whatever follows it (`readText_of_quotation`). What is written for a text is one of the ways
(`quotation_quote`).
-/

namespace InlineMarkup

namespace Json

/-! ## Ways to write a text -/

/-- The letters that may follow a backslash, with the characters that they stand for. -/
def escapeLetters : List (Char × Char) :=
  [('"', '"'), ('\\', '\\'), ('/', '/'), ('b', '\x08'), ('f', '\x0c'), ('n', '\n'), ('r', '\r'),
    ('t', '\t')]

/-- Four digits of base sixteen, in letters of either case, that stand for `n`. -/
structure CodeUnit (digits : List Char) (n : Nat) : Prop where
  four : digits.length = 4
  stands : Ascii.Stands digits n

/-- How a character may be written in quotes. -/
inductive Spelled (c : Char) : List Char → Prop where
  | itself (quote : c ≠ '"') (backslash : c ≠ '\\') (printed : 0x20 ≤ c.toNat) : Spelled c [c]
  | letter {l : Char} (stands : (l, c) ∈ escapeLetters) : Spelled c ['\\', l]
  | unit {digits : List Char} (unit : CodeUnit digits c.toNat) : Spelled c ('\\' :: 'u' :: digits)
  | pair {high low : List Char} {m n : Nat} (first : CodeUnit high (0xD800 + m))
      (second : CodeUnit low (0xDC00 + n)) (small : m < 0x400) (small' : n < 0x400)
      (sum : c.toNat = 0x10000 + m * 0x400 + n) :
      Spelled c ('\\' :: 'u' :: (high ++ '\\' :: 'u' :: low))

/-- How characters may be written one after the other. -/
inductive Spelling : List Char → List Char → Prop where
  | nil : Spelling [] []
  | cons {c : Char} {chars text body : List Char} (first : Spelled c chars)
      (rest : Spelling text body) : Spelling (c :: text) (chars ++ body)

/-- How a text may be written in quotes. -/
def Quotation (t : String) (chars : List Char) : Prop :=
  ∃ body, Spelling t.toList body ∧ chars = '"' :: (body ++ ['"'])

/-! ## Code units -/

theorem four_le_byteSize (a b c d : Char) : 4 ≤ byteSize [a, b, c, d] := by
  have := a.utf8Size_pos
  have := b.utf8Size_pos
  have := c.utf8Size_pos
  have := d.utf8Size_pos
  simp only [byteSize, List.foldl_cons, List.foldl_nil]
  omega

theorem CodeUnit.codeUnit_append {digits : List Char} {n : Nat} (unit : CodeUnit digits n)
    (s : List Char) : codeUnit (digits ++ s) = .ok n := by
  have value := unit.stands.hexValue?
  match digits, unit.four with
  | [a, b, c, d], _ =>
    have size := four_le_byteSize a b c d
    have first : ([a, b, c, d] ++ s).take 4 = [a, b, c, d] := rfl
    unfold codeUnit
    rw [first, if_neg (by omega)]
    simp only [List.cons_append, value]

theorem codeUnit_hex4 {n : Nat} (small : n < 65536) : CodeUnit (Ascii.hex4 n) n := by
  have digit (k : Nat) : Ascii.Digit (Ascii.hexDigit (k % 16)) (k % 16) :=
    Ascii.hexDigit?_eq_some_iff.1 (Ascii.hexDigit?_hexDigit (Nat.mod_lt k (by decide)))
  have stands := Ascii.Stands.nil.snoc (digit (n / 4096)) |>.snoc (digit (n / 256))
    |>.snoc (digit (n / 16)) |>.snoc (digit n)
  have sum : 16 * (16 * (16 * (16 * 0 + n / 4096 % 16) + n / 256 % 16) + n / 16 % 16) + n % 16 =
      n := by omega
  rw [sum] at stands
  exact ⟨rfl, stands⟩

/-! ## Reading -/

theorem not_lt_space_iff {c : Char} : ¬ c < ' ' ↔ 0x20 ≤ c.toNat := by
  have below : c < ' ' ↔ c.toNat < 0x20 := UInt32.lt_iff_toNat_lt
  rw [below, Nat.not_lt]

theorem simpleEscape?_of_mem {l c : Char} (stands : (l, c) ∈ escapeLetters) :
    simpleEscape? l = some c := by
  have all : escapeLetters.all fun (l, c) => simpleEscape? l == some c := by decide
  exact beq_iff_eq.1 (List.all_eq_true.1 all (l, c) stands)

/-- No character is a code unit of a pair. -/
theorem not_surrogate (c : Char) : isTrailing c.toNat = false ∧ isLeading c.toNat = false := by
  have valid : c.toNat < 0xD800 ∨ 0xDFFF < c.toNat ∧ c.toNat < 0x110000 := c.valid
  simp only [isTrailing, isLeading, Bool.and_eq_false_iff, decide_eq_false_iff_not]
  omega

theorem readEscape_unit {c : Char} {digits : List Char} (unit : CodeUnit digits c.toNat)
    (s : List Char) : readEscape ('u' :: (digits ++ s)) = .ok (c, 5) := by
  obtain ⟨notTrailing, notLeading⟩ := not_surrogate c
  have noLetter : simpleEscape? 'u' = none := rfl
  simp [readEscape, readUnits, unit.codeUnit_append, notTrailing, notLeading, noLetter, bind,
    Except.bind, Except.map, Char.ofNat_toNat]

theorem readEscape_pair {c : Char} {high low : List Char} {m n : Nat}
    (first : CodeUnit high (0xD800 + m)) (second : CodeUnit low (0xDC00 + n)) (small : m < 0x400)
    (small' : n < 0x400) (sum : c.toNat = 0x10000 + m * 0x400 + n) (s : List Char) :
    readEscape ('u' :: (high ++ '\\' :: 'u' :: (low ++ s))) = .ok (c, 11) := by
  have leading : isTrailing (0xD800 + m) = false ∧ isLeading (0xD800 + m) = true := by
    simp only [isTrailing, isLeading, Bool.and_eq_false_iff, Bool.and_eq_true,
      decide_eq_false_iff_not, decide_eq_true_eq]
    omega
  have trailing : isTrailing (0xDC00 + n) = true := by
    simp only [isTrailing, Bool.and_eq_true, decide_eq_true_eq]
    omega
  have char : pairChar (0xD800 + m) (0xDC00 + n) = c := by
    rw [pairChar, Nat.add_sub_cancel_left, Nat.add_sub_cancel_left, ← sum, Char.ofNat_toNat]
  have behind : (high ++ '\\' :: 'u' :: (low ++ s)).drop 4 = '\\' :: 'u' :: (low ++ s) := by
    rw [← first.four, List.drop_left]
  have noLetter : simpleEscape? 'u' = none := rfl
  simp [readEscape, readUnits, first.codeUnit_append, second.codeUnit_append, leading, trailing,
    behind, char, noLetter, bind, Except.bind, Except.map]

/-- What was read of an escape is passed over, and reading goes on behind it. -/
theorem readTextFrom_of_readEscape {c : Char} (escape : List Char) {s : List Char}
    (read : readEscape (escape ++ s) = .ok (c, escape.length)) :
    readTextFrom 0 ('\\' :: (escape ++ s)) =
      (readTextFrom 0 s).map fun (t, rest) => (c :: t, rest) := by
  have passed (escape : List Char) :
      readTextFrom escape.length (escape ++ s) = readTextFrom 0 s := by
    induction escape with
    | nil => rfl
    | cons d escape ih => exact ih
  rw [readTextFrom, if_neg (by decide), if_pos rfl, read]
  show (do let (t, rest) ← readTextFrom escape.length (escape ++ s); return (c :: t, rest)) = _
  rw [passed]
  cases readTextFrom 0 s <;> rfl

/-- However a character is written, it is read. -/
theorem readTextFrom_of_spelled {c : Char} {chars : List Char} (spelled : Spelled c chars)
    (s : List Char) :
    readTextFrom 0 (chars ++ s) = (readTextFrom 0 s).map fun (t, rest) => (c :: t, rest) := by
  cases spelled with
  | itself quote backslash printed =>
    rw [List.singleton_append, readTextFrom, if_neg quote, if_neg backslash,
      if_neg (not_lt_space_iff.2 printed)]
    cases readTextFrom 0 s <;> rfl
  | letter stands =>
    rename_i l
    have read : readEscape ([l] ++ s) = .ok (c, 1) := by
      simp [readEscape, simpleEscape?_of_mem stands]
    exact readTextFrom_of_readEscape [l] read
  | unit unit =>
    rename_i digits
    have length : ('u' :: digits).length = 5 := by rw [List.length_cons, unit.four]
    refine readTextFrom_of_readEscape ('u' :: digits) ?_
    rw [length]
    exact readEscape_unit unit s
  | pair first second small small' sum =>
    rename_i high low m n
    have length : ('u' :: (high ++ '\\' :: 'u' :: low)).length = 11 := by
      simp [first.four, second.four]
    refine readTextFrom_of_readEscape ('u' :: (high ++ '\\' :: 'u' :: low)) ?_
    rw [length, List.cons_append, List.append_assoc]
    exact readEscape_pair first second small small' sum s

theorem readTextFrom_of_spelling {text body : List Char} (spelling : Spelling text body)
    (s : List Char) : readTextFrom 0 (body ++ '"' :: s) = .ok (text, s) := by
  induction spelling with
  | nil => rfl
  | cons first rest ih =>
    rw [List.append_assoc, readTextFrom_of_spelled first, ih]
    rfl

/-- A text in quotes is read, whatever follows it. -/
theorem readText_of_quotation {t : String} {chars : List Char} (quotation : Quotation t chars) :
    ∃ body, chars = '"' :: body ∧ ∀ s, readText (body ++ s) = .ok (t, s) := by
  obtain ⟨body, spelling, rfl⟩ := quotation
  refine ⟨body ++ ['"'], rfl, ?_⟩
  intro s
  rw [List.append_assoc, List.singleton_append, readText, readTextFrom_of_spelling spelling]
  simp [Except.map]

/-! ## Writing -/

theorem spelled_escapeChar (c : Char) : Spelled c (escapeChar c) := by
  unfold escapeChar
  split_ifs with quote backslash backspace formFeed lineFeed carriageReturn tab control
  · exact .letter (by rw [quote]; decide)
  · exact .letter (by rw [backslash]; decide)
  · exact .letter (by rw [backspace]; decide)
  · exact .letter (by rw [formFeed]; decide)
  · exact .letter (by rw [lineFeed]; decide)
  · exact .letter (by rw [carriageReturn]; decide)
  · exact .letter (by rw [tab]; decide)
  · have below : ¬ 0x20 ≤ c.toNat := fun printed => not_lt_space_iff.2 printed control
    exact .unit (codeUnit_hex4 (by omega))
  · exact .itself quote backslash (not_lt_space_iff.1 control)

/-- What is written for a text is a quotation of it. -/
theorem quotation_quote (t : String) : Quotation t (quote t) := by
  have spelling (text : List Char) : Spelling text (text.flatMap escapeChar) := by
    induction text with
    | nil => exact .nil
    | cons c text ih => exact .cons (spelled_escapeChar c) ih
  exact ⟨_, spelling t.toList, rfl⟩

end Json

end InlineMarkup
