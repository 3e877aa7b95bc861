import ConstraintSearch.Build
import ConstraintSearch.Json.Shape

/-!
# A library for compact texts

Values are written without blanks and read from any text.  This library is the one that texts are
written and read with when they are needed; what is proved of texts rests on `JsonLibrary.Rules` only.
-/

namespace ConstraintSearch.Json

/-- The word that a number in decimal stands for. -/
def wordOf? (literal : List Char) : Option Nat := (natural? literal).filter (· < wordCount)

/-! ## Writing -/

mutual

/-- The value that is written for a datum; a datum of another shape is written as null. -/
def written : Shape → Datum → JsonValue
  | .word, .word n => .ofNat n
  | .optional _, .absent => .null
  | .optional shape, .present datum => written shape datum
  | .choice _, .chosen name => .ofName name
  | .record fields, .record data => .object (writtenFields fields data)
  | _, _ => .null

/-- The members of an object, in the order of the fields. -/
def writtenFields : List (String × Shape) → List Datum → List (List Char × JsonValue)
  | (name, shape) :: fields, datum :: data =>
      (name.toList, written shape datum) :: writtenFields fields data
  | _, _ => []

end

/-! ## Reading -/

/-- The name that a value chooses: a string, or the name of the only member of an object, whose value is
null. -/
def choice? : JsonValue → Option String
  | .string body => decode? body
  | .object [(body, .null)] => decode? body
  | _ => none

/-- The values of the members whose names stand for the given one. -/
def valuesOf (name : String) (members : List (List Char × JsonValue)) : List JsonValue :=
  (members.filter fun member => decode? member.1 == some name).map Prod.snd

/-- What a field without a member is read as. -/
def missing? : Shape → Option Datum
  | .optional _ => some .absent
  | _ => none

mutual

/-- The datum that a value is read as, if it is read. -/
def read? : Shape → JsonValue → Option Datum
  | .word, .number literal => (wordOf? literal).map .word
  | .word, _ => none
  | .optional _, .null => some .absent
  | .optional shape, value => (read? shape value).map .present
  | .choice names, value =>
      (choice? value).bind fun name => if name ∈ names then some (.chosen name) else none
  | .record fields, .object members =>
      if members.all fun member => (decode? member.1).isSome then
        (readFields? fields members).map .record
      else none
  | .record fields, .array items =>
      if items.length = fields.length then (readItems? fields items).map .record else none
  | .record _, _ => none

/-- The fields, by the names of the members. -/
def readFields? : List (String × Shape) → List (List Char × JsonValue) → Option (List Datum)
  | [], _ => some []
  | (name, shape) :: fields, members =>
      let field := match valuesOf name members with
        | [] => missing? shape
        | [value] => read? shape value
        | _ => none
      field.bind fun datum => (readFields? fields members).map (datum :: ·)

/-- The fields, by their places. -/
def readItems? : List (String × Shape) → List JsonValue → Option (List Datum)
  | (_, shape) :: fields, item :: items =>
      (read? shape item).bind fun datum => (readItems? fields items).map (datum :: ·)
  | _, _ => some []

end

/-- The library. -/
def compact : JsonLibrary where
  parse? := JsonValue.parse?
  print := JsonValue.write
  decode? := decode?
  word? := wordOf?
  written := written
  read? := read?

end ConstraintSearch.Json
