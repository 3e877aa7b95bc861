/-!
# Tokens of JSON

A JSON text is cut into marks, strings and words, and blanks between them are left out.  A string
is kept as it is written between its marks, and so is a number: what they stand for is a question
of its own, which only the reader of a value asks.

Words and strings are recognised character by character, so that the cutting is a fold over the
text.
-/

namespace ConstraintSearch.Json

/-- A token. -/
inductive Token where
  | openBrace
  | closeBrace
  | openBracket
  | closeBracket
  | comma
  | colon
  | null
  | bool (value : Bool)
  /-- A number, as it is written. -/
  | number (literal : List Char)
  /-- A string, as it is written between its marks. -/
  | string (body : List Char)
  deriving DecidableEq, Repr

/-! ## Numbers -/

/-- Whether the text is one digit or more. -/
def isDigits (text : List Char) : Bool := !text.isEmpty && text.all Char.isDigit

/-- Whether the text is a natural number without a leading zero. -/
def isNatural (text : List Char) : Bool :=
  isDigits text && (text.head? != some '0' || text.length == 1)

/-- Whether the text is the rest of a number behind its fraction. -/
def isExponent : List Char → Bool
  | [] => true
  | e :: text =>
      (e = 'e' || e = 'E') &&
        match text with
        | '+' :: digits | '-' :: digits => isDigits digits
        | digits => isDigits digits

/-- Whether the text is the rest of a number behind its whole part. -/
def isFraction : List Char → Bool
  | '.' :: text =>
      isDigits (text.takeWhile Char.isDigit) && isExponent (text.dropWhile Char.isDigit)
  | text => isExponent text

/-- Whether the text is a number. -/
def isNumber (text : List Char) : Bool :=
  let unsigned := if text.head? = some '-' then text.drop 1 else text
  isNatural (unsigned.takeWhile Char.isDigit) && isFraction (unsigned.dropWhile Char.isDigit)

/-- The natural number that a literal stands for, if it is one. -/
def natural? (literal : List Char) : Option Nat :=
  if isNatural literal then
    some (literal.foldl (fun n digit => 10 * n + (digit.toNat - '0'.toNat)) 0)
  else none

/-! ## Strings -/

def hexDigit? (c : Char) : Option Nat :=
  if '0' ≤ c ∧ c ≤ '9' then some (c.toNat - '0'.toNat)
  else if 'a' ≤ c ∧ c ≤ 'f' then some (c.toNat - 'a'.toNat + 10)
  else if 'A' ≤ c ∧ c ≤ 'F' then some (c.toNat - 'A'.toNat + 10)
  else none

/-- The code unit that four hexadecimal digits stand for. -/
def hexUnit? (a b c d : Char) : Option Nat := do
  return (((← hexDigit? a) * 16 + (← hexDigit? b)) * 16 + (← hexDigit? c)) * 16 + (← hexDigit? d)

/-- The character that a letter behind a backslash stands for. -/
def shortEscape? : Char → Option Char
  | '"' => some '"'
  | '\\' => some '\\'
  | '/' => some '/'
  | 'b' => some '\x08'
  | 'f' => some '\x0c'
  | 'n' => some '\n'
  | 'r' => some '\r'
  | 't' => some '\t'
  | _ => none

/-- The parts of a string: characters and code units.  There are none if the body breaks the rules
for strings. -/
def parts? : List Char → Option (List (Char ⊕ Nat))
  | [] => some []
  | '\\' :: 'u' :: a :: b :: c :: d :: rest => do
      return .inr (← hexUnit? a b c d) :: (← parts? rest)
  | '\\' :: c :: rest => do return .inl (← shortEscape? c) :: (← parts? rest)
  | c :: rest =>
      if c = '\\' ∨ c = '"' ∨ c.toNat < 0x20 then none else (parts? rest).map (.inl c :: ·)

/-- The characters of a string.  Code units from 0xd800 to 0xdfff stand for a character only in
pairs, the high half first. -/
def joinParts? : List (Char ⊕ Nat) → Option (List Char)
  | [] => some []
  | .inl c :: rest => (joinParts? rest).map (c :: ·)
  | .inr unit :: rest =>
      if unit < 0xd800 ∨ 0xdfff < unit then (joinParts? rest).map (Char.ofNat unit :: ·)
      else
        match rest with
        | .inr low :: rest =>
            if unit < 0xdc00 ∧ 0xdc00 ≤ low ∧ low ≤ 0xdfff then
              (joinParts? rest).map
                (Char.ofNat (0x10000 + (unit - 0xd800) * 0x400 + (low - 0xdc00)) :: ·)
            else none
        | _ => none

/-- The text that the body of a string stands for, if it stands for one. -/
def decode? (body : List Char) : Option String :=
  ((parts? body).bind joinParts?).map String.ofList

/-! ## Cutting -/

def word? (text : List Char) : Option Token :=
  if text = "null".toList then some .null
  else if text = "true".toList then some (.bool true)
  else if text = "false".toList then some (.bool false)
  else if isNumber text then some (.number text)
  else none

/-- A character that is a token of its own. -/
def mark? : Char → Option Token
  | '\x7b' => some .openBrace
  | '\x7d' => some .closeBrace
  | '[' => some .openBracket
  | ']' => some .closeBracket
  | ',' => some .comma
  | ':' => some .colon
  | _ => none

/-- What has been read of a token that may still go on; its characters stand in reverse order. -/
inductive Unfinished where
  | nothing
  | word (characters : List Char)
  /-- Within a string; `escaped` is set behind a backslash. -/
  | string (characters : List Char) (escaped : Bool)

/-- The tokens read so far, the last one first, and the one under way. -/
structure Cutting where
  tokens : List Token := []
  unfinished : Unfinished := .nothing

namespace Cutting

/-- A word ends where a character comes that cannot belong to it. -/
def endWord (cutting : Cutting) : Option Cutting :=
  match cutting.unfinished with
  | .word characters =>
      (word? characters.reverse).map fun token => { tokens := token :: cutting.tokens }
  | _ => some cutting

/-- Reads a character between tokens or within a word. -/
def readOutside (cutting : Cutting) (c : Char) : Option Cutting :=
  if c = ' ' ∨ c = '\t' ∨ c = '\n' ∨ c = '\r' then cutting.endWord
  else if c = '"' then cutting.endWord.map ({ · with unfinished := .string [] false })
  else
    match mark? c with
    | some token => cutting.endWord.map fun ended => { tokens := token :: ended.tokens }
    | none =>
        match cutting.unfinished with
        | .word characters => some { cutting with unfinished := .word (c :: characters) }
        | _ => some { cutting with unfinished := .word [c] }

def read (cutting : Cutting) (c : Char) : Option Cutting :=
  match cutting.unfinished with
  | .string characters true => some { cutting with unfinished := .string (c :: characters) false }
  | .string characters false =>
      if c = '"' then
        let body := characters.reverse
        if (parts? body).isSome then some { tokens := .string body :: cutting.tokens } else none
      else some { cutting with unfinished := .string (c :: characters) (c = '\\') }
  | _ => cutting.readOutside c

/-- The tokens when the text is at its end. -/
def finish (cutting : Cutting) : Option (List Token) :=
  match cutting.unfinished with
  | .string .. => none
  | _ => cutting.endWord.map (·.tokens.reverse)

end Cutting

/-- The tokens of a text, unless it has a part that is none. -/
def tokens? (text : List Char) : Option (List Token) :=
  (text.foldlM Cutting.read {}).bind Cutting.finish

end ConstraintSearch.Json
