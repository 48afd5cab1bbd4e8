import LayoutLexer.Field

namespace LayoutLexer.Text.Json

/-!
# Records in JSON

Records are written as an array of objects, one member on a line, each level
indented by two more spaces. In a string, only the quotation mark, the backslash
and the control characters below the space are escaped.
-/

/-- A control character by its code, in four lower-case hexadecimal digits. -/
def codeEscape (c : Char) : List Char :=
  ['\\', 'u', '0', '0', Nat.digitChar (c.toNat / 16),
    Nat.digitChar (c.toNat % 16)]

/-- One character as it stands in a string. -/
def escaped (c : Char) : List Char :=
  if c = '"' then
    ['\\', '"']
  else if c = '\\' then
    ['\\', '\\']
  else if c = '\x08' then
    ['\\', 'b']
  else if c = '\t' then
    ['\\', 't']
  else if c = '\n' then
    ['\\', 'n']
  else if c = '\x0c' then
    ['\\', 'f']
  else if c = '\r' then
    ['\\', 'r']
  else if c.toNat < 0x20 then
    codeEscape c
  else
    [c]

/-- A text as a string. -/
def string (text : String) : String :=
  String.ofList ('"' :: text.toList.flatMap escaped ++ ['"'])

/-- A value. -/
def value : FieldValue → String
  | .number value => toString value
  | .text text => string text

/-- A member of an object, on its line. -/
def member (field : String × FieldValue) : String :=
  "    " ++ string field.1 ++ ": " ++ value field.2

/-- An object in an array. -/
def object : Fields → String
  | [] =>
      "  \x7b\x7d"
  | field :: fields =>
      "  \x7b\n" ++ ",\n".intercalate ((field :: fields).map member) ++
        "\n  \x7d"

/-- An array of objects. -/
def array : List Fields → String
  | [] =>
      "[]"
  | record :: records =>
      "[\n" ++ ",\n".intercalate ((record :: records).map object) ++ "\n]"

end LayoutLexer.Text.Json
