import InlineMarkup.Registry
import InlineMarkup.Store

/-!
# Warnings

What a rendering or an edit mentions without failing.
-/

namespace InlineMarkup

/-- Something that was passed over. -/
inductive Warning where
  /-- The record stored under `key` is left out. -/
  | excluded (key : String) (reason : Exclusion)
  /-- The store cannot be loaded, and the built-in conventions are used alone. -/
  | builtinsOnly (fault : StoreFault)
  /-- The chosen keyword color is no color. -/
  | keywordColor (chosen : String)
deriving DecidableEq, Repr

namespace Warning

/-- The text of a warning. -/
def message : Warning → String
  | excluded key reason =>
    "Skipping custom convention " ++ Text.quoted key ++ ": " ++ reason.message
  | builtinsOnly fault =>
    "Rendering with built-in conventions only: " ++ fault.message
  | keywordColor chosen =>
    "Ignoring invalid keyword color " ++ Text.quoted chosen ++ ", using " ++
      Color.resolveKeyword chosen

/-- A warning for each record that is left out of a registry, in the order of the keys. -/
def ofCollection (c : Collection) : List Warning :=
  c.excluded.map fun (key, reason) => excluded key reason

/-- The warning for a keyword color that is replaced. -/
def ofKeyword (chosen : String) : List Warning :=
  if Color.isHex chosen then [] else [keywordColor chosen]

end Warning

end InlineMarkup
