import ShaderInterface.Text.Visible

/-!
# Quoted text

A text as a message shows it: between double quotes, with the quote and the backslash escaped,
the usual controls by letter, and every other character that does not show by its code point.
-/

namespace ShaderInterface.Text

/-- How one character is shown inside double quotes. -/
def showChar (c : Char) : List Char :=
  if c == '"' || c == '\\' then ['\\', c]
  else if c == '\x00' then ['\\', '0']
  else if c == '\t' then ['\\', 't']
  else if c == '\r' then ['\\', 'r']
  else if c == '\n' then ['\\', 'n']
  else if isVisible c then [c]
  else ['\\', 'u', '\x7b'] ++ Nat.toDigits 16 c.toNat ++ ['\x7d']

/-- The text between double quotes. -/
def quote (s : String) : String :=
  String.ofList ('"' :: s.toList.flatMap showChar ++ ['"'])

example : quote "a\"\\\t\x7f" = "\"a\\\"\\\\\\t\\u\x7b7f\x7d\"" := by decide +kernel

end ShaderInterface.Text
