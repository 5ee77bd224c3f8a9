import Inlay.Text.Unseen

/-!
# Quoted text

A text in double quotes, written so that it stays on one line and every character can be told: the
quote, the backslash and the common controls have short escapes, and a character that does not show
on its own is written as its code point.
-/

namespace Inlay.Text

/-- A character as its code point, in lower-case hexadecimal digits between braces. -/
def codePoint (c : Char) : String :=
  "\\u\x7b" ++ String.ofList (Nat.toDigits 16 c.toNat) ++ "\x7d"

/-- A character inside quotes. -/
def quotedChar (c : Char) : String :=
  match c with
  | '\x00' => "\\0"
  | '\t' => "\\t"
  | '\r' => "\\r"
  | '\n' => "\\n"
  | '\\' => "\\\\"
  | '"' => "\\\""
  | c => if isUnseen c then codePoint c else String.singleton c

/-- A text in quotes. -/
def quoted (text : String) : String :=
  "\"" ++ String.join (text.toList.map quotedChar) ++ "\""

end Inlay.Text
