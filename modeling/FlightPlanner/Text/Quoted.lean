import FlightPlanner.Text.Hexadecimal
import FlightPlanner.Text.Shapeless

/-!
# Quoted text

How a message shows a text it complains about: between double quotes, with quotes and backslashes marked,
the common controls as letters and every other character without a shape of its own as its number.
-/

namespace FlightPlanner.Text

/-- One character of a quoted text. -/
def quoteChar (c : Char) : String :=
  if c = '"' then "\\\""
  else if c = '\\' then "\\\\"
  else if c = '\n' then "\\n"
  else if c = '\r' then "\\r"
  else if c = '\t' then "\\t"
  else if c = '\x00' then "\\0"
  else if isShapeless c then "\\u\x7b" ++ hexadecimal c.toNat ++ "\x7d"
  else c.toString

/-- A text between double quotes. -/
def quoted (text : String) : String :=
  "\"" ++ String.join (text.toList.map quoteChar) ++ "\""

end FlightPlanner.Text
