import Cascade.Text.Unshown

/-!
# Writing text with escapes

Two written forms of text. `quote` puts a text between double quotes so that a reader sees every
character of it; `escapeAscii` writes one stray character of a source in plain ASCII. Both write a
character that has no form of its own by its code, in lower-case hexadecimal between braces.
-/
namespace Cascade.Text

/-- A character by its code: a backslash, a `u` and the hexadecimal code between braces. -/
def codeEscape (c : Char) : String :=
  "\\u\x7b" ++ String.ofList (Nat.toDigits 16 c.toNat) ++ "\x7d"

/-- One character of a quoted text. -/
def quotedChar (c : Char) : String :=
  if c = '\x00' then "\\0"
  else if c = '\t' then "\\t"
  else if c = '\r' then "\\r"
  else if c = '\n' then "\\n"
  else if c = '"' then "\\\""
  else if c = '\\' then "\\\\"
  else if isUnshown c then codeEscape c
  else c.toString

/-- A text between double quotes, every character of it visible. -/
def quote (text : String) : String :=
  "\"" ++ String.join (text.toList.map quotedChar) ++ "\""

/-- One character in plain ASCII, quotes and backslash escaped. -/
def escapeAscii (c : Char) : String :=
  if c = '\t' then "\\t"
  else if c = '\r' then "\\r"
  else if c = '\n' then "\\n"
  else if c = '\'' then "\\'"
  else if c = '"' then "\\\""
  else if c = '\\' then "\\\\"
  else if ' ' ≤ c ∧ c ≤ '~' then c.toString
  else codeEscape c

end Cascade.Text
