import InlineMarkup.Preview

/-!
# A terminal

A terminal takes one character after the other. It shows each in the look that was selected last,
except for control sequences, which select a look and show nothing. It starts in the default look,
and stops at a sequence it does not know. It knows nothing of how previews are written.
-/

namespace InlineMarkup

/-- The character that begins a control sequence. -/
def escapeCharacter : Char := '\x1b'

namespace Look

/-- A channel of a color from its decimal digits. -/
def channel? (digits : List Char) : Option Nat :=
  let n := Nat.ofDigitChars 10 digits 0
  if !digits.isEmpty && digits.all Char.isDigit && decide (n ≤ 255) then some n else none

/-- The look that a control sequence with the given parameters selects from `look`. -/
def select? (look : Look) (parameters : List Char) : Option Look :=
  match parameters.splitOn ';' with
  | [['0']] => some {}
  | [['1']] => some { look with bold := true }
  | [['4']] => some { look with underline := true }
  | [['5']] => some { look with blink := true }
  | [['3', '9']] => some { look with color := none }
  | [['3', '8'], ['2'], red, green, blue] => do
    let color : Rgb := ⟨← channel? red, ← channel? green, ← channel? blue⟩
    return { look with color := some color }
  | _ => none

end Look

/-- What a terminal is reading. -/
inductive Terminal.Reading where
  | text
  /-- A control sequence of which one character was read. -/
  | escape
  /-- A control sequence of which these parameters were read. -/
  | sequence (parameters : List Char)
deriving DecidableEq, Repr

/-- A terminal with the characters it has shown. -/
structure Terminal where
  look : Look := {}
  reading : Terminal.Reading := .text
  shown : List (Char × Look) := []
deriving DecidableEq, Repr

namespace Terminal

/-- The characters that parameters are made of. -/
def isParameter (c : Char) : Bool :=
  c.isDigit || c == ';'

/-- The terminal after one character more. -/
def feed? (t : Terminal) (c : Char) : Option Terminal :=
  match t.reading with
  | .text =>
    if c = escapeCharacter then some { t with reading := .escape }
    else some { t with shown := t.shown ++ [(c, t.look)] }
  | .escape => if c = '[' then some { t with reading := .sequence [] } else none
  | .sequence parameters =>
    if c = 'm' then
      (t.look.select? parameters).map fun look => { t with look, reading := .text }
    else if isParameter c then some { t with reading := .sequence (parameters ++ [c]) }
    else none

/-- The terminal after a text. -/
def run? (t : Terminal) (text : List Char) : Option Terminal :=
  text.foldlM feed? t

theorem run?_append (t : Terminal) (s s' : List Char) :
    t.run? (s ++ s') = (t.run? s).bind (·.run? s') :=
  List.foldlM_append

variable (look : Look) (shown : List (Char × Look))

/-- Text that begins no control sequence is shown as it is. -/
theorem run?_text {text : List Char} (printable : escapeCharacter ∉ text) :
    run? ⟨look, .text, shown⟩ text =
      some ⟨look, .text, shown ++ text.map fun c => (c, look)⟩ := by
  induction text generalizing shown with
  | nil => simp [run?]
  | cons c text ih =>
    simp only [List.mem_cons, not_or] at printable
    have here : feed? ⟨look, .text, shown⟩ c = some ⟨look, .text, shown ++ [(c, look)]⟩ :=
      if_neg (Ne.symm printable.1)
    have later := ih (shown ++ [(c, look)]) printable.2
    rw [run?, List.foldlM_cons, here, Option.bind_eq_bind, Option.bind_some]
    rw [run?] at later
    rw [later, List.map_cons, List.append_assoc, List.singleton_append]

theorem run?_parameters (read : List Char) {parameters : List Char}
    (known : parameters.all isParameter) (rest : List Char) :
    run? ⟨look, .sequence read, shown⟩ (parameters ++ rest) =
      run? ⟨look, .sequence (read ++ parameters), shown⟩ rest := by
  induction parameters generalizing read with
  | nil => rw [List.nil_append, List.append_nil]
  | cons c parameters ih =>
    rw [List.all_cons, Bool.and_eq_true] at known
    obtain ⟨here, later⟩ := known
    have other : c ≠ 'm' := by
      rintro rfl
      revert here
      decide
    have fed : feed? ⟨look, .sequence read, shown⟩ c =
        some ⟨look, .sequence (read ++ [c]), shown⟩ := by
      simp only [feed?, if_neg other, if_pos here]
    rw [List.cons_append, run?, List.foldlM_cons, fed, Option.bind_eq_bind, Option.bind_some]
    have rest := ih (read ++ [c]) later
    rw [run?] at rest
    rw [rest, List.append_assoc, List.singleton_append]

/-- A control sequence selects a look and shows nothing. -/
theorem run?_sequence {parameters : List Char} (known : parameters.all isParameter) :
    run? ⟨look, .text, shown⟩ (escapeCharacter :: '[' :: (parameters ++ ['m'])) =
      (look.select? parameters).map fun look => ⟨look, .text, shown⟩ := by
  have begun : run? ⟨look, .text, shown⟩ (escapeCharacter :: '[' :: (parameters ++ ['m'])) =
      run? ⟨look, .sequence [], shown⟩ (parameters ++ ['m']) := rfl
  rw [begun, run?_parameters look shown [] known, List.nil_append, run?, List.foldlM_cons]
  cases selected : look.select? parameters with
  | none => simp [feed?, selected]
  | some look => simp [feed?, selected]

end Terminal

end InlineMarkup
