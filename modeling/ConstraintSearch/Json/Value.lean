import ConstraintSearch.Json.Token

/-!
# JSON values

A value of JSON, as it is written: numbers and strings keep their spelling.  A value is read from
its tokens by a machine with a stack, one entry for every array or object that is still open, so
values may be nested to any depth.
-/

namespace ConstraintSearch

open Json (Token)

/-- A JSON value.  The members of an object keep their order, and a name may occur again. -/
inductive JsonValue where
  | null
  | bool (value : Bool)
  | number (literal : List Char)
  | string (body : List Char)
  | array (items : List JsonValue)
  | object (members : List (List Char × JsonValue))
  deriving Repr, Inhabited

namespace JsonValue

/-- Numbers, strings and names are spelled as JSON allows. -/
inductive WellFormed : JsonValue → Prop where
  | null : WellFormed .null
  | bool (value : Bool) : WellFormed (.bool value)
  | number (literal : List Char) (hliteral : Json.isNumber literal = true) :
      WellFormed (.number literal)
  | string (body : List Char) (hbody : (Json.parts? body).isSome = true) : WellFormed (.string body)
  | array (items : List JsonValue) (hitems : ∀ item ∈ items, WellFormed item) :
      WellFormed (.array items)
  | object (members : List (List Char × JsonValue))
      (hnames : ∀ member ∈ members, (Json.parts? member.1).isSome = true)
      (hvalues : ∀ member ∈ members, WellFormed member.2) : WellFormed (.object members)

/-- The members of an object are well formed. -/
def SoundMembers (members : List (List Char × JsonValue)) : Prop :=
  ∀ member ∈ members, (Json.parts? member.1).isSome = true ∧ member.2.WellFormed

theorem wellFormed_string_iff {body : List Char} :
    (string body).WellFormed ↔ (Json.parts? body).isSome = true := by
  constructor
  · rintro (_ | _ | _ | ⟨_, hbody⟩ | _ | _)
    exact hbody
  · exact .string body

theorem wellFormed_array_iff {items : List JsonValue} :
    (array items).WellFormed ↔ ∀ item ∈ items, item.WellFormed := by
  constructor
  · rintro (_ | _ | _ | _ | ⟨_, hitems⟩ | _)
    exact hitems
  · exact .array items

theorem wellFormed_object_iff {members : List (List Char × JsonValue)} :
    (object members).WellFormed ↔ SoundMembers members := by
  constructor
  · rintro (_ | _ | _ | _ | _ | ⟨_, hnames, hvalues⟩)
    exact fun member hmember => ⟨hnames member hmember, hvalues member hmember⟩
  · exact fun h => .object members (fun member hmember => (h member hmember).1)
      fun member hmember => (h member hmember).2

theorem soundMembers_middle_iff {front behind : List (List Char × JsonValue)} {name : List Char}
    {value : JsonValue} : SoundMembers (front ++ (name, value) :: behind) ↔
      ((Json.parts? name).isSome = true ∧ value.WellFormed) ∧ SoundMembers (front ++ behind) := by
  simp only [SoundMembers, List.perm_middle.mem_iff, List.forall_mem_cons]

/-! ## Writing -/

/-- A natural number. -/
def ofNat (n : Nat) : JsonValue := .number (toString n).toList

/-- A name, which has no character that must be escaped. -/
def ofName (name : String) : JsonValue := .string name.toList

/-- The body of a string between its marks. -/
def marked (body : List Char) : String := "\"" ++ String.ofList body ++ "\""

mutual

/-- The value without blanks. -/
def write : JsonValue → String
  | .null => "null"
  | .bool true => "true"
  | .bool false => "false"
  | .number literal => String.ofList literal
  | .string body => marked body
  | .array items => "[" ++ ",".intercalate (writeItems items) ++ "]"
  | .object members => "\x7b" ++ ",".intercalate (writeMembers members) ++ "\x7d"

/-- The items of an array, each without blanks. -/
def writeItems : List JsonValue → List String
  | [] => []
  | item :: rest => item.write :: writeItems rest

/-- The members of an object, each without blanks. -/
def writeMembers : List (List Char × JsonValue) → List String
  | [] => []
  | (name, value) :: rest => (marked name ++ ":" ++ value.write) :: writeMembers rest

end

/-! ## Reading -/

/-- An array or an object that is still open; what it has so far stands in reverse order. -/
inductive Opened where
  | array (items : List JsonValue)
  /-- An object that waits for the value of the named member. -/
  | object (members : List (List Char × JsonValue)) (name : List Char)

/-- What may come next. -/
inductive Expected where
  | value
  /-- The first item of an array, or its end. -/
  | firstItem
  /-- The first member of an object, or its end. -/
  | firstName
  /-- A member of an object that has the given members. -/
  | name (members : List (List Char × JsonValue))
  /-- The colon behind a name. -/
  | colon (members : List (List Char × JsonValue)) (name : List Char)
  /-- A value is complete, and what it belongs to goes on or ends. -/
  | continuation (complete : JsonValue)

/-- The reading machine: what is open, the innermost first, and what may come next. -/
structure Reading where
  opened : List Opened := []
  expected : Expected := .value

namespace Reading

/-- The start of a value. -/
def beginValue (opened : List Opened) : Token → Option Reading
  | .null => some { opened, expected := .continuation .null }
  | .bool value => some { opened, expected := .continuation (.bool value) }
  | .number literal => some { opened, expected := .continuation (.number literal) }
  | .string body => some { opened, expected := .continuation (.string body) }
  | .openBracket => some { opened := .array [] :: opened, expected := .firstItem }
  | .openBrace => some { opened, expected := .firstName }
  | _ => none

/-- The token behind a complete value. -/
def continueWith (opened : List Opened) (complete : JsonValue) (token : Token) : Option Reading :=
  match opened, token with
  | .array items :: rest, .comma =>
      some { opened := .array (complete :: items) :: rest, expected := .value }
  | .array items :: rest, .closeBracket =>
      some { opened := rest, expected := .continuation (.array (complete :: items).reverse) }
  | .object members name :: rest, .comma =>
      some { opened := rest, expected := .name ((name, complete) :: members) }
  | .object members name :: rest, .closeBrace =>
      some
        { opened := rest
          expected := .continuation (.object ((name, complete) :: members).reverse) }
  | _, _ => none

/-- Reads a token. -/
def read (reading : Reading) (token : Token) : Option Reading :=
  let { opened, expected } := reading
  match expected, token with
  | .value, token => beginValue opened token
  | .firstItem, .closeBracket =>
      some { opened := opened.drop 1, expected := .continuation (.array []) }
  | .firstItem, token => beginValue opened token
  | .firstName, .closeBrace => some { opened, expected := .continuation (.object []) }
  | .firstName, .string name => some { opened, expected := .colon [] name }
  | .name members, .string name => some { opened, expected := .colon members name }
  | .colon members name, .colon =>
      some { opened := .object members name :: opened, expected := .value }
  | .continuation complete, token => continueWith opened complete token
  | _, _ => none

/-- The value, if one is complete and nothing is open. -/
def finish (reading : Reading) : Option JsonValue :=
  match reading.opened, reading.expected with
  | [], .continuation complete => some complete
  | _, _ => none

end Reading

/-- The value that the tokens are, if they are one. -/
def ofTokens? (tokens : List Token) : Option JsonValue :=
  (tokens.foldlM Reading.read {}).bind Reading.finish

/-- The value that a text is, if it is one. -/
def parse? (text : String) : Option JsonValue :=
  (Json.tokens? text.toList).bind ofTokens?

end JsonValue

end ConstraintSearch
