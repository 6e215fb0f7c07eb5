import Mathlib.Data.List.TakeWhile
import InlineMarkup.Json.Shape
import InlineMarkup.Proofs.Json.Text

/-!
# Tokens with blanks between them

A token is read whatever blanks it comes with: the names of members, colons, texts and flags.
-/

namespace InlineMarkup.Json

/-- Blanks that may stand between tokens. -/
def Blank (w : List Char) : Prop :=
  ∀ c ∈ w, isSpace c

theorem blank_nil : Blank [] := by
  simp [Blank]

theorem blank_space : Blank [' '] := by
  simp [Blank, isSpace]

theorem blank_newline (depth : Nat) : Blank (Value.newline depth) := by
  simp [Blank, Value.newline, isSpace]

variable {w w' : List Char}

theorem skipSpace_append (blank : Blank w) (s : List Char) : skipSpace (w ++ s) = skipSpace s :=
  List.dropWhile_append_of_pos blank

theorem skipSpace_append_cons (blank : Blank w) {c : Char} (h : isSpace c = false)
    (s : List Char) : skipSpace (w ++ c :: s) = c :: s := by
  rw [skipSpace_append blank, skipSpace_of_not_isSpace h]

theorem skipColon_append (blank : Blank w) (s : List Char) : skipColon (w ++ ':' :: s) = .ok s := by
  rw [skipColon, skipSpace_append_cons blank rfl]
  rfl

theorem readFlag_ofFlag (blank : Blank w) (b : Bool) (s : List Char) :
    readFlag (w ++ (Value.ofFlag b ++ s)) = .ok (b, s) := by
  cases b with
  | true =>
    have begun : Value.ofFlag true ++ s = 't' :: ("rue".toList ++ s) := rfl
    rw [readFlag, begun, skipSpace_append_cons blank rfl]
    exact congrArg (Except.map fun rest => (true, rest)) (readWord_append "rue".toList s)
  | false =>
    have begun : Value.ofFlag false ++ s = 'f' :: ("alse".toList ++ s) := rfl
    rw [readFlag, begun, skipSpace_append_cons blank rfl]
    exact congrArg (Except.map fun rest => (false, rest)) (readWord_append "alse".toList s)

theorem readName?_close (blank : Blank w) (first : Bool) (s : List Char) :
    readName? first (w ++ '\x7d' :: s) = .ok (none, s) := by
  rw [readName?, skipSpace_append_cons blank rfl]
  rfl

section Quotation

variable {t : String} {chars : List Char} (quotation : Quotation t chars)
include quotation

theorem readString_of_quotation (blank : Blank w) (s : List Char) :
    readString (w ++ (chars ++ s)) = .ok (t, s) := by
  obtain ⟨body, rfl, read⟩ := readText_of_quotation quotation
  rw [readString, List.cons_append, skipSpace_append_cons blank rfl]
  exact read s

theorem readName?_first (blank : Blank w) (s : List Char) :
    readName? true (w ++ (chars ++ s)) = .ok (some t, s) := by
  obtain ⟨body, rfl, read⟩ := readText_of_quotation quotation
  rw [readName?, List.cons_append, skipSpace_append_cons blank rfl]
  simp [skipSpace_of_not_isSpace (show isSpace '"' = false from rfl), read, Except.map]

theorem readName?_later (blank : Blank w) (blank' : Blank w') (s : List Char) :
    readName? false ((w ++ ',' :: w') ++ (chars ++ s)) = .ok (some t, s) := by
  obtain ⟨body, rfl, read⟩ := readText_of_quotation quotation
  rw [readName?, List.append_assoc, List.cons_append, skipSpace_append_cons blank rfl]
  simp [skipSpace_append_cons blank' (show isSpace '"' = false from rfl), read, Except.map]

end Quotation

end InlineMarkup.Json
