import InfoFlow.Text.Printable

/-!
# Quoted text in messages

A text that a message mentions stands in double quotes.  Quotes, backslashes and the common controls are
escaped by a letter, and whatever has no glyph of its own by its code point, as in `\u{301}`.
-/

namespace InfoFlow

namespace Text

def quotedChar (c : Char) : String :=
  if c = '"' then "\\\""
  else if c = '\\' then "\\\\"
  else if c = '\n' then "\\n"
  else if c = '\r' then "\\r"
  else if c = '\t' then "\\t"
  else if c = '\x00' then "\\0"
  else if isPrintable c then c.toString
  else "\\u\x7b" ++ String.ofList (Nat.toDigits 16 c.toNat) ++ "\x7d"

def quoted (s : String) : String := "\"" ++ String.join (s.toList.map quotedChar) ++ "\""

end Text

end InfoFlow
