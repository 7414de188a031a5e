import MiniC.Text.Visible

/-!
# Quoted texts

A quoted text stands in double quotes. Double quotes and backslashes in it are escaped, and so are
hidden characters, which have a short form or are given by their code point.
-/

namespace MiniC

/-- The hexadecimal code point of a character, in braces. -/
private def codePoint (c : Char) : String :=
  "\\u\x7b" ++ String.ofList (Nat.toDigits 16 c.toNat) ++ "\x7d"

/-- How a character is written in a quoted text. -/
def quotedChar (c : Char) : String :=
  match c with
  | '\x00' => "\\0"
  | '\t' => "\\t"
  | '\r' => "\\r"
  | '\n' => "\\n"
  | '\\' => "\\\\"
  | '\x22' => "\\\""
  | c => if isVisible c then c.toString else codePoint c

/-- A text in double quotes. -/
def quoted (text : String) : String :=
  "\"" ++ String.join (text.toList.map quotedChar) ++ "\""

end MiniC
