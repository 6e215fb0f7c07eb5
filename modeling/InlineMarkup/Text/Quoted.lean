import InlineMarkup.Text.Ascii
import InlineMarkup.Text.Unprintable

/-!
# Quoted texts

How a text is shown inside a message: in double quotes, with escapes for quotes, backslashes,
control characters and every other character that would not be seen.
-/

namespace InlineMarkup.Text

/-- One character of a quoted text. -/
def quoteChar (c : Char) : List Char :=
  if c = '\x00' then ['\\', '0']
  else if c = '\t' then ['\\', 't']
  else if c = '\n' then ['\\', 'n']
  else if c = '\r' then ['\\', 'r']
  else if c = '\\' then ['\\', '\\']
  else if c = '"' then ['\\', '"']
  else if isPrintable c then [c]
  else ['\\', 'u', '\x7b'] ++ Ascii.hex c.toNat ++ ['\x7d']

/-- A text in double quotes. -/
def quoted (s : String) : String :=
  String.ofList ('"' :: s.toList.flatMap quoteChar ++ ['"'])

example : quoted "say \"hi\"\t\\" = "\"say \\\"hi\\\"\\t\\\\\"" := by decide

end InlineMarkup.Text
