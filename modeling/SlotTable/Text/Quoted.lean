import SlotTable.Text.CodePoints
import SlotTable.Text.Hex

/-!
# Quoted characters and strings

A quoted text stands between two equal marks. The usual control characters have short escapes, a
backslash and the mark itself get a backslash, and a character that cannot stand alone in print is
shown as its hexadecimal number in braces.
-/
namespace SlotTable.Quoted

def escape (mark c : Char) : String :=
  if c = '\x00' then "\\0"
  else if c = '\t' then "\\t"
  else if c = '\r' then "\\r"
  else if c = '\n' then "\\n"
  else if c = '\\' then "\\\\"
  else if c = mark then "\\" ++ mark.toString
  else if CodePoints.inRanges CodePoints.extending c.toNat
      || CodePoints.inRanges CodePoints.shapeless c.toNat then
    "\\u\x7b" ++ hexDigits 1 c.toNat ++ "\x7d"
  else c.toString

def quoted (mark : Char) (text : List Char) : String :=
  mark.toString ++ String.join (text.map (escape mark)) ++ mark.toString

def string (s : String) : String := quoted '"' s.toList

def character (c : Char) : String := quoted '\x27' [c]

end SlotTable.Quoted
