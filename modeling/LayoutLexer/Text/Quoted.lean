import LayoutLexer.Text.GraphemeExtend
import LayoutLexer.Text.Unprintable

namespace LayoutLexer.Text

/-!
# Quoted characters and texts

Listings and messages show source text between quotation marks, on one line and
in visible characters only. A backslash starts an escape, so it is escaped
itself; of the two quotation marks only the enclosing one is; a character that
has no shape of its own is written by its code point in hexadecimal.
-/

/-- The code point in lower-case hexadecimal, without leading zeros. -/
def codePointEscape (c : Char) : List Char :=
  ['\\', 'u', '\x7b'] ++ Nat.toDigits 16 c.toNat ++ ['\x7d']

/-- One character as it stands between two `quotation` marks. -/
def escaped (quotation c : Char) : List Char :=
  if c = '\x00' then
    ['\\', '0']
  else if c = '\t' then
    ['\\', 't']
  else if c = '\n' then
    ['\\', 'n']
  else if c = '\r' then
    ['\\', 'r']
  else if c = '\\' || c = quotation then
    ['\\', c]
  else if extendsGrapheme c || isUnprintable c then
    codePointEscape c
  else
    [c]

/-- The mark around a quoted text. -/
def doubleQuote : Char := '"'

/-- The mark around a single quoted character. -/
def singleQuote : Char := Char.ofNat 39

/-- A text between double quotation marks. -/
def quoted (text : String) : String :=
  String.ofList
    (doubleQuote :: text.toList.flatMap (escaped doubleQuote) ++ [doubleQuote])

/-- A character between single quotation marks. -/
def quotedChar (c : Char) : String :=
  String.ofList (singleQuote :: escaped singleQuote c ++ [singleQuote])

end LayoutLexer.Text
