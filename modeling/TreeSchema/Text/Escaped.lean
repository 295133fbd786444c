/-
# TreeSchema.Text.Escaped — text in double quotes, for diagnostics.

Characters without a visible form are shown by their code point, so that a name in a message can be
told apart from every other name.
-/
import TreeSchema.Text.Coded

namespace TreeSchema.Text

/-- The lower-case hexadecimal digits of a number, without padding. -/
def hex (n : Nat) : String :=
  String.ofList (Nat.toDigits 16 n)

/-- One character inside double quotes. -/
def escapeChar (c : Char) : String :=
  if c = '\t' then "\\t"
  else if c = '\r' then "\\r"
  else if c = '\n' then "\\n"
  else if c = '\x22' then "\\\""
  else if c = '\\' then "\\\\"
  else if c = '\x00' then "\\0"
  else if isCoded c then "\\u\x7b" ++ hex c.toNat ++ "\x7d"
  else c.toString

/-- Text in double quotes with every invisible character shown. -/
def escaped (text : String) : String :=
  "\"" ++ String.join (text.toList.map escapeChar) ++ "\""

end TreeSchema.Text
