import Mathlib.Data.List.TakeDrop
import InlineMarkup.Proofs.Toml.Text
import InlineMarkup.Toml.Reader

/-!
# Assignments read back

A line that assigns a string to a key without quotes is read as that assignment
(`Toml.readStatements_assignment`).
-/

namespace InlineMarkup.Toml

variable {key : List Char} {c : Char}

/-- A key that may stand without quotes. -/
structure Bare (key : List Char) : Prop where
  filled : key ≠ []
  chars : ∀ c ∈ key, isKeyChar c

instance : DecidablePred Bare := fun key =>
  decidable_of_iff (key ≠ [] ∧ key.all isKeyChar)
    ⟨fun h => ⟨h.1, List.all_eq_true.1 h.2⟩, fun h => ⟨h.1, List.all_eq_true.2 h.2⟩⟩

/-- An assignment of a string to a key. -/
def assignment (key : List Char) (s : String) : List Char :=
  key ++ ' ' :: '=' :: ' ' :: (writeString s).toList

theorem exists_writeString_eq_cons (s : String) :
    ∃ quote w, (writeString s).toList = quote :: w ∧ (quote = '"' ∨ quote = '\'') := by
  rw [writeString, String.toList_ofList]
  cases Form.choose s.toList with
  | basic => exact ⟨_, _, rfl, .inl rfl⟩
  | literal => exact ⟨_, _, rfl, .inr rfl⟩
  | multilineBasic => exact ⟨_, _, rfl, .inl rfl⟩
  | multilineLiteral => exact ⟨_, _, rfl, .inr rfl⟩

/-- A character of a key means nothing else. -/
theorem ne_of_isKeyChar (isKey : isKeyChar c) {mark : Char} (other : isKeyChar mark = false) :
    c ≠ mark := by
  rintro rfl
  rw [isKey] at other
  cases other

theorem skipBlanks_cons (isKey : isKeyChar c) (rest : List Char) :
    skipBlanks (c :: rest) = c :: rest := by
  have noSpace : c ≠ ' ' := ne_of_isKeyChar isKey rfl
  have noTab : c ≠ '\t' := ne_of_isKeyChar isKey rfl
  simp [skipBlanks, noSpace, noTab]

theorem skipTrivia_cons (isKey : isKeyChar c) (rest : List Char) :
    skipTrivia false (c :: rest) = some (c :: rest) := by
  have noNewline : c ≠ '\n' := ne_of_isKeyChar isKey rfl
  have noReturn : c ≠ '\r' := ne_of_isKeyChar isKey rfl
  have noSpace : c ≠ ' ' := ne_of_isKeyChar isKey rfl
  have noTab : c ≠ '\t' := ne_of_isKeyChar isKey rfl
  have noComment : c ≠ '#' := ne_of_isKeyChar isKey rfl
  unfold skipTrivia
  split <;> simp_all

theorem readValue_writeString (fuel depth : Nat) (s : String) (rest : List Char) :
    readValue (fuel + 1) depth ((writeString s).toList ++ '\n' :: rest) =
      some (.text s, '\n' :: rest) := by
  have read := readString?_writeString s rest
  obtain ⟨quote, w, written, isQuote⟩ := exists_writeString_eq_cons s
  rw [written, List.cons_append] at read ⊢
  rcases isQuote with rfl | rfl
  · simp [readValue, read]
  · simp [readValue, read]

namespace Bare

variable (bare : Bare key)
include bare

theorem readSimpleKey?_append (rest : List Char) :
    readSimpleKey? (key ++ ' ' :: rest) = some (String.ofList key, ' ' :: rest) := by
  have split : (key ++ ' ' :: rest).span isKeyChar = (key, ' ' :: rest) := by
    rw [List.span_eq_takeWhile_dropWhile, List.takeWhile_append_of_pos bare.chars,
      List.dropWhile_append_of_pos bare.chars]
    simp [isKeyChar]
  rw [readSimpleKey?, split]
  cases key with
  | nil => exact absurd rfl bare.filled
  | cons c key => rfl

/-- An assignment begins with its key. -/
theorem exists_assignment_eq_cons (s : String) :
    ∃ c line, assignment key s = c :: line ∧ isKeyChar c := by
  obtain ⟨c, key', rfl⟩ := List.exists_cons_of_ne_nil bare.filled
  exact ⟨c, _, rfl, bare.chars c List.mem_cons_self⟩

theorem readTarget?_assignment (s : String) (rest : List Char) :
    readTarget? (assignment key s ++ rest) =
      some (([], String.ofList key), (writeString s).toList ++ rest) := by
  obtain ⟨c, key', eq⟩ := List.exists_cons_of_ne_nil bare.filled
  have start (more : List Char) : skipBlanks (key ++ more) = key ++ more := by
    rw [eq]
    exact skipBlanks_cons (bare.chars c (by simp [eq])) (key' ++ more)
  have keys (more : List Char) :
      readKeys (key ++ ' ' :: '=' :: more) = some (([], String.ofList key), '=' :: more) := by
    rw [readKeys, maxDepth, readKeysUpTo, start, bare.readSimpleKey?_append]
    rfl
  obtain ⟨quote, w, written, isQuote⟩ := exists_writeString_eq_cons s
  have behind : skipBlanks (' ' :: (quote :: w ++ rest)) = quote :: w ++ rest := by
    rcases isQuote with rfl | rfl <;> rfl
  rw [readTarget?, assignment, List.append_assoc, List.cons_append, List.cons_append, keys,
    written]
  exact congrArg (fun more => some (([], String.ofList key), more)) behind

theorem readStatement?_assignment (s : String) (rest : List Char) :
    readStatement? (assignment key s ++ '\n' :: rest) =
      some (.assign [] (String.ofList key) (.text s), '\n' :: rest) := by
  have target := bare.readTarget?_assignment s ('\n' :: rest)
  obtain ⟨c, line, eq, isKey⟩ := bare.exists_assignment_eq_cons s
  rw [eq, List.cons_append] at target ⊢
  have noBracket : c ≠ '[' := ne_of_isKeyChar isKey rfl
  unfold readStatement?
  split
  · rename_i same
    exact absurd (List.cons.inj same).1 noBracket
  · rename_i same
    exact absurd (List.cons.inj same).1 noBracket
  rw [target, Option.bind_eq_bind, Option.bind_some]
  dsimp only
  rw [readValue_writeString]
  rfl

/-- An assignment on a line is added to the document, and reading goes on at the end of the
line. -/
theorem readStatements_assignment (fuel : Nat) (d : Document) (s : String) (rest : List Char) :
    readStatements (fuel + 1) d (assignment key s ++ '\n' :: rest) =
      (d.add (.assign [] (String.ofList key) (.text s))).bind
        (readStatements fuel · ('\n' :: rest)) := by
  have statement := bare.readStatement?_assignment s rest
  obtain ⟨c, line, eq, isKey⟩ := bare.exists_assignment_eq_cons s
  rw [eq, List.cons_append] at statement ⊢
  rw [readStatements, skipTrivia_cons isKey]
  dsimp only
  rw [statement, Option.bind_eq_bind, Option.bind_some]
  rfl

end Bare

theorem readStatements_newline (fuel : Nat) (d : Document) (rest : List Char) :
    readStatements fuel d ('\n' :: rest) = readStatements fuel d rest := by
  cases fuel with
  | zero => rfl
  | succ fuel =>
    have passed : skipTrivia false ('\n' :: rest) = skipTrivia false rest := rfl
    rw [readStatements, readStatements, passed]

/-- A new key is added to a document without headers. -/
theorem Document.add_assign {root : Table} {key : String} (new : root.lookup key = none)
    (v : Item) : add ⟨root, []⟩ (.assign [] key v) = some ⟨root ++ [(key, v)], []⟩ := by
  simp [add, modifyAt, Toml.assign, new]

theorem read?_of_toList {s : String} {line : List Char} (eq : s.toList = c :: line)
    (noMark : c ≠ '\uFEFF') :
    read? s = (readStatements (s.toList.length + 1) {} (c :: line)).map (·.root) := by
  simp only [read?]
  split
  · rename_i same
    rw [eq] at same
    exact absurd (List.cons.inj same).1 noMark
  · rw [eq]

end InlineMarkup.Toml
