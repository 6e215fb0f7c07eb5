import InlineMarkup.Proofs.Toml.Document
import InlineMarkup.Settings

/-!
# Settings read back

The text of settings is read as these settings, whatever characters the path and the color are
made of (`Settings.decode?_encode`).
-/

namespace InlineMarkup.Settings

open Toml (Bare assignment)

/-- The key of the path of the store. -/
def storeKey : List Char := "store_path".toList

/-- The key of the color of keywords. -/
def colorKey : List Char := "keyword_color".toList

theorem toList_encode (s : Settings) :
    s.encode.toList = assignment storeKey s.storePath ++ '\n' ::
      match s.keywordColor with
      | some color => assignment colorKey color ++ ['\n']
      | none => [] := by
  have store : "store_path = ".toList = storeKey ++ [' ', '=', ' '] := by decide
  have color : "keyword_color = ".toList = colorKey ++ [' ', '=', ' '] := by decide
  have newline : "\n".toList = ['\n'] := by decide
  obtain ⟨storePath, keywordColor⟩ := s
  cases keywordColor with
  | none =>
    simp only [encode, assignment, String.toList_append, store, newline, String.toList_empty,
      List.append_assoc, List.cons_append, List.nil_append]
  | some chosen =>
    simp only [encode, assignment, String.toList_append, store, color, newline,
      List.append_assoc, List.cons_append, List.nil_append]

theorem read?_encode (s : Settings) :
    Toml.read? s.encode = some (("store_path", .text s.storePath) ::
      match s.keywordColor with
      | some color => [("keyword_color", .text color)]
      | none => []) := by
  have storeBare : Bare storeKey := by decide
  have colorBare : Bare colorKey := by decide
  have storeName : String.ofList storeKey = "store_path" := String.ofList_toList
  have colorName : String.ofList colorKey = "keyword_color" := String.ofList_toList
  have text := toList_encode s
  obtain ⟨c, line, eq, isKey⟩ := storeBare.exists_assignment_eq_cons s.storePath
  rw [eq, List.cons_append] at text
  rw [Toml.read?_of_toList text (Toml.ne_of_isKeyChar isKey (by decide)), ← List.cons_append, ← eq]
  have enough : ∃ fuel, s.encode.toList.length + 1 = fuel + 3 := by
    have size : 2 ≤ s.encode.toList.length := by
      rw [text, List.length_cons, List.length_append, List.length_cons]
      omega
    exact ⟨s.encode.toList.length - 2, by omega⟩
  obtain ⟨fuel, enough⟩ := enough
  have first := Toml.Document.add_assign (List.lookup_nil (a := "store_path")) (.text s.storePath)
  rw [enough, storeBare.readStatements_assignment, storeName, first, Option.bind_some,
    Toml.readStatements_newline]
  cases s.keywordColor with
  | none => rfl
  | some color =>
    have new : [("store_path", Toml.Item.text s.storePath)].lookup "keyword_color" = none := rfl
    rw [colorBare.readStatements_assignment, colorName, List.nil_append,
      Toml.Document.add_assign new, Option.bind_some, Toml.readStatements_newline]
    rfl

theorem decode?_encode (env : Environment) (s : Settings) : decode? env s.encode = some s := by
  obtain ⟨storePath, keywordColor⟩ := s
  rw [decode?, read?_encode]
  cases keywordColor <;> rfl

end InlineMarkup.Settings
