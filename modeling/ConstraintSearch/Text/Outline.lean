/-!
# Outlines of values

A value is shown for diagnosis as its *outline*: the name of its type with the values of its
members, nested as deep as the value is.  An outline has two layouts.  The compact one stands on
a single line; the tall one gives every member a line of its own, indented by four columns for
each level, and ends every member with a comma.

Both layouts are structural recursions, so what they print can be read off the outline.
-/

namespace ConstraintSearch

/-- The outline of a value. -/
inductive Outline where
  /-- A value without members: a number, a plain name or a quoted text. -/
  | atom (text : String)
  /-- One unnamed member behind a name. -/
  | tagged (name : String) (member : Outline)
  /-- Members in order, without names. -/
  | list (items : List Outline)
  /-- Named members; a record that is not `complete` has members that are not shown. -/
  | record (name : String) (members : List (String × Outline)) (complete : Bool)

namespace Outline

/-- A number is shown in decimal. -/
def number (n : Nat) : Outline := .atom (toString n)

/-- Numbers in order. -/
def numbers (ns : List Nat) : Outline := .list (ns.map number)

/-- An optional value is shown with the name of the case it is in. -/
def optional {α : Type} (shown : α → Outline) : Option α → Outline
  | none => .atom "None"
  | some value => .tagged "Some" (shown value)

/-- Braces are written as character codes, because a brace in a string opens an interpolation. -/
private def openBrace : String := " \x7b"

private def closeBrace : String := "\x7d"

mutual

/-- The outline on one line. -/
def compact : Outline → String
  | .atom text => text
  | .tagged name member => name ++ "(" ++ member.compact ++ ")"
  | .list items => "[" ++ ", ".intercalate (compactItems items) ++ "]"
  | .record name members complete =>
      let hidden := if complete then [] else [".."]
      name ++ openBrace ++ " " ++ ", ".intercalate (compactMembers members ++ hidden) ++ " "
        ++ closeBrace

private def compactItems : List Outline → List String
  | [] => []
  | item :: rest => item.compact :: compactItems rest

private def compactMembers : List (String × Outline) → List String
  | [] => []
  | (label, member) :: rest => (label ++ ": " ++ member.compact) :: compactMembers rest

end

/-- Puts a text in front of the first line. -/
private def withLabel (label : String) : List String → List String
  | [] => [label]
  | first :: rest => (label ++ first) :: rest

/-- Ends the last line with a comma. -/
private def withComma : List String → List String
  | [] => [","]
  | [last] => [last ++ ","]
  | line :: rest => line :: withComma rest

/-- A member takes lines of its own, one level further in. -/
private def nested (lines : List String) : List String :=
  (withComma lines).map ("    " ++ ·)

mutual

/-- The lines of the tall layout. -/
def tallLines : Outline → List String
  | .atom text => [text]
  | .tagged name member => (name ++ "(") :: nested member.tallLines ++ [")"]
  | .list [] => ["[]"]
  | .list items => "[" :: tallItems items ++ ["]"]
  | .record name members complete =>
      let hidden := if complete then [] else ["    .."]
      (name ++ openBrace) :: tallMembers members ++ hidden ++ [closeBrace]

private def tallItems : List Outline → List String
  | [] => []
  | item :: rest => nested item.tallLines ++ tallItems rest

private def tallMembers : List (String × Outline) → List String
  | [] => []
  | (label, member) :: rest =>
      nested (withLabel (label ++ ": ") member.tallLines) ++ tallMembers rest

end

/-- The outline with a line for every member. -/
def tall (outline : Outline) : String := "\n".intercalate outline.tallLines

end Outline

end ConstraintSearch
