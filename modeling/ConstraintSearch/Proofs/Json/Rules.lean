import ConstraintSearch.Build
import ConstraintSearch.Json.Shape
import Mathlib.Data.List.Forall2

/-!
# Rules for reading and writing JSON

A `JsonLibrary` may do as it likes, so nothing can be said of the texts of an arbitrary one.  The rules
say what is relied on.  They come in three groups.

* **Texts.**  A text that is read stands for a well-formed value, and a well-formed value is read back
  from its own text.  Characters that need no escape stand for themselves, and a natural number in
  decimal stands for a word if it is below the number of words.
* **Writing.**  Words are written in decimal, what is absent as null, a choice as its name, and a
  record as an object with its fields in order.
* **Reading.**  A record is read from an object by the names of its members, or from an array by
  their places.  A field may be missing if it may be absent.  No name of the record may occur twice,
  and members of other names are passed over.

The rules of writing and those of reading do not mention each other.  That they fit together, for every
shape and at every depth, is shown in `Proofs.Json.Shape`.
-/

namespace ConstraintSearch

/-- Characters that are written as they are. -/
def PlainName (name : String) : Prop :=
  ∀ c ∈ name.toList, c ≠ '"' ∧ c ≠ '\\' ∧ 0x20 ≤ c.toNat

namespace JsonLibrary

/-- The values of the members whose names stand for the given one. -/
def valuesOf (library : JsonLibrary) (name : String) (members : List (List Char × JsonValue)) :
    List JsonValue :=
  (members.filter fun member => library.decode? member.1 == some name).map Prod.snd

/-- What a field is read as among the members of an object. -/
inductive ReadsField (library : JsonLibrary) (members : List (List Char × JsonValue)) :
    String × Shape → Datum → Prop where
  /-- Exactly one member has its name. -/
  | found {name : String} {shape : Shape} {value : JsonValue} {datum : Datum}
      (hvalues : library.valuesOf name members = [value])
      (hread : library.read? shape value = some datum) : ReadsField library members (name, shape) datum
  /-- No member has its name, and it may be absent. -/
  | missing {name : String} {shape : Shape} (hvalues : library.valuesOf name members = []) :
      ReadsField library members (name, .optional shape) .absent

/-- What is relied on of the texts of a library, and of its strings and numbers. -/
structure TextRules (library : JsonLibrary) : Prop where
  wellFormed_of_parse? : ∀ {text value}, library.parse? text = some value → value.WellFormed
  parse?_print : ∀ {value : JsonValue}, value.WellFormed →
    library.parse? (library.print value) = some value
  decode?_plain : ∀ {name : String}, PlainName name → library.decode? name.toList = some name
  word?_iff : ∀ {literal n}, library.word? literal = some n ↔
    Json.natural? literal = some n ∧ n < wordCount

/-- What is relied on of the way a library writes data. -/
structure WritingRules (library : JsonLibrary) : Prop where
  written_word : ∀ {n}, n < wordCount → library.written .word (.word n) = .ofNat n
  written_absent : ∀ shape, library.written (.optional shape) .absent = .null
  written_present : ∀ shape datum,
    library.written (.optional shape) (.present datum) = library.written shape datum
  written_chosen : ∀ names {name}, PlainName name →
    library.written (.choice names) (.chosen name) = .ofName name
  written_record : ∀ {fields : List (String × Shape)} {data : List Datum},
    (∀ field ∈ fields, PlainName field.1) → fields.length = data.length →
      library.written (.record fields) (.record data) =
        .object ((fields.zip data).map fun entry =>
          (entry.1.1.toList, library.written entry.1.2 entry.2))

/-- What is relied on of the way a library reads data. -/
structure ReadingRules (library : JsonLibrary) : Prop where
  read?_word_iff : ∀ {value datum}, library.read? .word value = some datum ↔
    ∃ literal n, value = .number literal ∧ library.word? literal = some n ∧ datum = .word n
  read?_null : ∀ shape, library.read? (.optional shape) .null = some .absent
  read?_optional : ∀ shape {value}, value ≠ .null →
    library.read? (.optional shape) value = (library.read? shape value).map .present
  read?_choice_iff : ∀ {names value datum}, library.read? (.choice names) value = some datum ↔
    ∃ body, ∃ name ∈ names, library.decode? body = some name ∧
      (value = .string body ∨ value = .object [(body, .null)]) ∧ datum = .chosen name
  /-- The names of all members must be readable, also of those that are passed over. -/
  read?_object_iff : ∀ {fields : List (String × Shape)} {members : List (List Char × JsonValue)}
    {datum}, library.read? (.record fields) (.object members) = some datum ↔
      (∀ member ∈ members, (library.decode? member.1).isSome = true) ∧
        ∃ data, datum = .record data ∧ List.Forall₂ (library.ReadsField members) fields data
  read?_array_iff : ∀ {fields : List (String × Shape)} {items : List JsonValue} {datum},
    library.read? (.record fields) (.array items) = some datum ↔
      items.length = fields.length ∧ ∃ data, datum = .record data ∧
        List.Forall₂ (fun entry datum => library.read? entry.1.2 entry.2 = some datum)
          (fields.zip items) data
  object_or_array : ∀ {fields : List (String × Shape)} {value datum},
    library.read? (.record fields) value = some datum →
      (∃ members, value = .object members) ∨ ∃ items, value = .array items

/-- What is relied on of a library. -/
structure Rules (library : JsonLibrary) : Prop extends TextRules library, WritingRules library,
  ReadingRules library

end JsonLibrary

end ConstraintSearch
