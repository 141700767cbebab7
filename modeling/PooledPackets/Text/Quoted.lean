import PooledPackets.Text.Shapeless

/-!
# Quoted text

A text is quoted between double quotes. Quotes and backslashes in it get a
backslash; the usual control characters are written by letter and all other
characters without a shape by number.
-/

namespace PooledPackets.Text

def hexadecimal (number : Nat) : String :=
  String.ofList (Nat.toDigits 16 number)

/-- A character as it is written between quotes. -/
def quotedChar (char : Char) : String :=
  if char == '"' then "\\\""
  else if char == '\\' then "\\\\"
  else if char == '\n' then "\\n"
  else if char == '\r' then "\\r"
  else if char == '\t' then "\\t"
  else if char.toNat == 0 then "\\0"
  else if isShapeless char then
    "\\u\x7b" ++ hexadecimal char.toNat ++ "\x7d"
  else char.toString

def quoted (text : String) : String :=
  "\"" ++ String.join (text.toList.map quotedChar) ++ "\""

end PooledPackets.Text
