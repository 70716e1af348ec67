import WatMachine.Text.Escaped

/-!
# Quoted text in messages

Messages show a character between apostrophes and a text between quotation
marks.  The closing mark, the backslash and four control characters have a
short escape; every other character that cannot be shown as itself is
written by number, in lowercase hexadecimal without leading zeros.
-/

namespace WatMachine

namespace Text

/-- The hexadecimal digits of a number, lowercase, without leading zeros. -/
def hexDigits (number : Nat) : String :=
  String.ofList (Nat.toDigits 16 number)

/-- The code point of a character between braces. -/
def byNumber (c : Char) : String :=
  "\\u\x7b" ++ hexDigits c.toNat ++ "\x7d"

/-- How one character is shown inside a quotation that ends with `mark`. -/
def quoteChar (mark c : Char) : String :=
  if c = '\x00' then "\\0"
  else if c = '\t' then "\\t"
  else if c = '\n' then "\\n"
  else if c = '\r' then "\\r"
  else if c = '\\' then "\\\\"
  else if c = mark then "\\" ++ mark.toString
  else if isEscaped c then byNumber c
  else c.toString

/-- A character between apostrophes. -/
def quotedChar (c : Char) : String :=
  "'" ++ quoteChar '\x27' c ++ "'"

/-- A text between quotation marks. -/
def quoted (text : String) : String :=
  "\"" ++ String.join (text.toList.map (quoteChar '"')) ++ "\""

end Text

end WatMachine
