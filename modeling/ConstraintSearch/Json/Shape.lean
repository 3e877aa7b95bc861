import ConstraintSearch.Json.Value

/-!
# Shapes of data

What is kept as JSON is described by its *shape*: a word, a value that may be absent, a choice among
names, or a record of named fields in order.  A datum of a shape says which value of it there is, and
a `Format` says which datum stands for which value of a type.

How a datum is written and how it is read is not settled here.  That is up to a `JsonLibrary`: the text
of a format is what the library writes for a datum (`JsonLibrary.write`), and the value of a text is
what the library reads it as (`JsonLibrary.readText?`).
-/

namespace ConstraintSearch

/-- What there is to write of a type. -/
inductive Shape where
  | word
  /-- A value that may be absent. -/
  | optional (shape : Shape)
  /-- One of some names. -/
  | choice (names : List String)
  /-- Fields in order. -/
  | record (fields : List (String × Shape))

/-- A value of a shape. -/
inductive Datum where
  | word (n : Nat)
  | absent
  | present (datum : Datum)
  | chosen (name : String)
  /-- The fields in the order of the shape. -/
  | record (data : List Datum)
  deriving Repr

namespace Datum

/-- A word that may be absent. -/
def ofOption : Option Nat → Datum
  | none => .absent
  | some n => .present (.word n)

/-- The word that may be absent, if the datum is one. -/
def optionalWord? : Datum → Option (Option Nat)
  | .absent => some none
  | .present (.word n) => some (some n)
  | _ => none

end Datum

/-- How the values of a type are described. -/
structure Format (α : Type) where
  shape : Shape
  /-- The datum of a value. -/
  toDatum : α → Datum
  /-- The value of a datum, if it has one. -/
  ofDatum? : Datum → Option α

/-- A library that reads and writes JSON. -/
structure JsonLibrary where
  /-- The value that a text is, if it is one. -/
  parse? : String → Option JsonValue
  /-- The text of a value. -/
  print : JsonValue → String
  /-- The text that the body of a string stands for, if it stands for one. -/
  decode? : List Char → Option String
  /-- The word that a number stands for, if it stands for one. -/
  word? : List Char → Option Nat
  /-- The value that is written for a datum. -/
  written : Shape → Datum → JsonValue
  /-- The datum that a value is read as, if it is read. -/
  read? : Shape → JsonValue → Option Datum

namespace JsonLibrary

variable {α : Type}

/-- The text that is written for a value of a format. -/
def write (library : JsonLibrary) (format : Format α) (a : α) : String :=
  library.print (library.written format.shape (format.toDatum a))

/-- The value of a format that a text is read as, if it is read. -/
def readText? (library : JsonLibrary) (format : Format α) (text : String) : Option α :=
  (library.parse? text).bind fun value => (library.read? format.shape value).bind format.ofDatum?

end JsonLibrary

end ConstraintSearch
