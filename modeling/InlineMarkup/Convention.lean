import InlineMarkup.Color
import InlineMarkup.Delimiters
import InlineMarkup.Effect
import InlineMarkup.Text.Utf8

/-!
# Conventions

A convention is a pair of delimiters together with the style of the text between them. Three
conventions are built in; their keys are reserved.
-/

namespace InlineMarkup

/-- Delimiters and the style of the text between them. The last three fields are shown to authors
and never read when text is parsed. -/
structure Convention where
  key : String
  delimiters : Delimiters
  color : Color
  effects : Effects
  usage : String
  description : String
  sample : String
deriving DecidableEq, Repr

namespace Convention

/-- The token that opens a span. -/
def opening (c : Convention) : String := c.delimiters.opening

/-- The token that closes a span. -/
def closing (c : Convention) : String := c.delimiters.closing

/-- The length of the opening in bytes. -/
def openingSize (c : Convention) : Nat := (Utf8.encode c.opening).length

/-- The class that every span of the convention carries. -/
def className (c : Convention) : String := "markup-" ++ c.key

/-- `<text>`, glowing in the keyword color. -/
def angleBrackets : Convention where
  key := "angleBrackets"
  delimiters := ⟨"<", ">"⟩
  color := .keyword
  effects := Effects.none.insert .glow
  usage := "<text>"
  description := "Keywords, glowing in the keyword color"
  sample := "The <ancient artifact> hums."

/-- `[text]`, glowing in the color in scope. -/
def squareBrackets : Convention where
  key := "squareBrackets"
  delimiters := ⟨"[", "]"⟩
  color := .inherit
  effects := Effects.none.insert .glow
  usage := "[text]"
  description := "Glow in the surrounding color"
  sample := "A [mysterious] figure waits."

/-- `!text!`, glowing red. -/
def exclamation : Convention where
  key := "exclamation"
  delimiters := ⟨"!", "!"⟩
  color := .literal "#ff0000"
  effects := Effects.none.insert .glow
  usage := "!text!"
  description := "Warnings, glowing red"
  sample := "!Danger! The floor gives way."

/-- The conventions that are always active. -/
def builtins : List Convention := [angleBrackets, squareBrackets, exclamation]

/-- The keys of the built-in conventions. -/
def builtinKeys : List String := builtins.map key

/-- Whether a key is reserved for a built-in convention. -/
def isBuiltinKey (key : String) : Bool :=
  builtinKeys.contains key

/-- Whether the convention has a reserved key. -/
def isBuiltin (c : Convention) : Bool :=
  isBuiltinKey c.key

theorem isBuiltin_of_mem_builtins {c : Convention} (h : c ∈ builtins) : c.isBuiltin := by
  simp only [builtins, List.mem_cons, List.not_mem_nil, or_false] at h
  rcases h with rfl | rfl | rfl <;> decide

theorem isValid_of_mem_builtins {c : Convention} (h : c ∈ builtins) : c.delimiters.isValid := by
  simp only [builtins, List.mem_cons, List.not_mem_nil, or_false] at h
  rcases h with rfl | rfl | rfl <;> decide

theorem nodup_builtinKeys : builtinKeys.Nodup := by decide

end Convention

end InlineMarkup
