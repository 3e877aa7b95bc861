import ConstraintSearch.Text.Unseen

/-!
# Quoted texts

A quoted text stands between two marks.  Inside, a backslash and the mark itself are written
after a backslash, the five common controls have a letter, and any other character without a
shape of its own is written as its code point in hexadecimal.  Everything else stands for itself.

The mark is a parameter: a whole text stands between double marks and a single character
between single ones, and each leaves the other's mark alone.
-/

namespace ConstraintSearch

/-- The code point of a character in hexadecimal, without leading zeros. -/
def codePointText (c : Char) : String :=
  "\\u\x7b" ++ String.ofList (Nat.toDigits 16 c.toNat) ++ "\x7d"

/-- How a character is written between two marks. -/
def escapeWithin (mark c : Char) : String :=
  if c = '\x00' then "\\0"
  else if c = '\t' then "\\t"
  else if c = '\r' then "\\r"
  else if c = '\n' then "\\n"
  else if c = '\\' ∨ c = mark then String.ofList ['\\', c]
  else if isUnseen c then codePointText c
  else c.toString

/-- A text between double marks. -/
def quoted (text : String) : String :=
  "\"" ++ String.join (text.toList.map (escapeWithin '"')) ++ "\""

/-- A character between single marks. -/
def quotedChar (c : Char) : String :=
  "'" ++ escapeWithin '\'' c ++ "'"

end ConstraintSearch
