/-!
# Command-line arguments

A program takes at most one plain argument and some options.  An option has a letter and a name; it
is either a flag or takes a value.  The value stands in the same argument, behind the letter or
behind an equals sign, or it is the whole next argument.  Letters of flags may be joined.  Behind
the argument of two dashes everything is plain.

Arguments are read from left to right, and the first thing that ends the reading counts: a mistake,
or a request for the version or for help.
-/

namespace ConstraintSearch.CommandLine

/-- An option. -/
structure OptionRule where
  letter : Char
  name : String
  /-- Which values are good; a flag takes none. -/
  accepts : Option (String → Bool)

/-- What a program takes. -/
structure Interface where
  options : List OptionRule
  /-- Which plain arguments are good. -/
  acceptsPlain : String → Bool

/-- Why no arguments are handed to the program. -/
inductive Stop where
  /-- The arguments have a mistake. -/
  | mistake
  | version
  | help
  deriving DecidableEq, Repr

/-- The arguments read so far. -/
structure Arguments where
  plain : Option String := none
  /-- The options given, by letter; a flag has the empty value. -/
  options : List (Char × String) := []
  /-- An option that waits for its value. -/
  pending : Option OptionRule := none
  /-- Whether only plain arguments follow. -/
  plainOnly : Bool := false

namespace Arguments

/-- The value of an option, if it is given. -/
def value? (arguments : Arguments) (letter : Char) : Option String :=
  arguments.options.lookup letter

/-- Whether a flag is given. -/
def has (arguments : Arguments) (letter : Char) : Bool := (arguments.value? letter).isSome

/-- Takes an option with its value.  None may be given twice. -/
def give (arguments : Arguments) (rule : OptionRule) (value : String) : Except Stop Arguments :=
  if arguments.has rule.letter || !rule.accepts.all (· value) then .error .mistake
  else .ok
    { arguments with
      options := (rule.letter, value) :: arguments.options
      pending := none }

/-- Takes a plain argument. -/
def givePlain (interface : Interface) (arguments : Arguments) (value : String) :
    Except Stop Arguments :=
  if arguments.plain.isSome || !interface.acceptsPlain value then .error .mistake
  else .ok { arguments with plain := some value }

/-- Reads letters that stand behind one dash. -/
def readLetters (interface : Interface) (arguments : Arguments) :
    List Char → Except Stop Arguments
  | [] => .ok arguments
  | 'V' :: _ => .error .version
  | 'h' :: _ => .error .help
  | letter :: rest =>
      match interface.options.find? (·.letter == letter) with
      | none => .error .mistake
      | some rule =>
          if rule.accepts.isNone then do
            readLetters interface (← arguments.give rule "") rest
          else
            match rest with
            | [] => .ok { arguments with pending := some rule }
            | '=' :: value => arguments.give rule (String.ofList value)
            | value => arguments.give rule (String.ofList value)

/-- Reads a name that stands behind two dashes, with its value if there is an equals sign. -/
def readName (interface : Interface) (arguments : Arguments) (text : List Char) :
    Except Stop Arguments :=
  let name := String.ofList (text.takeWhile (· != '='))
  let attached := text.dropWhile (· != '=')
  if name = "version" ∧ attached.isEmpty then .error .version
  else if name = "help" ∧ attached.isEmpty then .error .help
  else
    match interface.options.find? (·.name == name) with
    | none => .error .mistake
    | some rule =>
        match rule.accepts, attached with
        | none, [] => arguments.give rule ""
        | none, _ => .error .mistake
        | some _, [] => .ok { arguments with pending := some rule }
        | some _, _ :: value => arguments.give rule (String.ofList value)

/-- Reads an argument. -/
def read (interface : Interface) (arguments : Arguments) (argument : String) :
    Except Stop Arguments :=
  if arguments.plainOnly then arguments.givePlain interface argument
  else
    match argument.toList, arguments.pending with
    | ['-'], none => arguments.givePlain interface argument
    | ['-'], some rule => arguments.give rule argument
    | '-' :: _, some _ => .error .mistake
    | ['-', '-'], none => .ok { arguments with plainOnly := true }
    | '-' :: '-' :: text, none => arguments.readName interface text
    | '-' :: letters, none => arguments.readLetters interface letters
    | _, some rule => arguments.give rule argument
    | _, none => arguments.givePlain interface argument

/-- Reads all arguments.  No option may be left without its value. -/
def parse (interface : Interface) (arguments : List String) : Except Stop Arguments := do
  let read ← arguments.foldlM (Arguments.read interface) {}
  if read.pending.isSome then throw .mistake
  return read

end Arguments

/-- The number that an argument stands for: digits, perhaps behind a plus sign, up to `largest`. -/
def number? (largest : Nat) (text : String) : Option Nat :=
  let digits := match text.toList with
    | '+' :: digits => digits
    | digits => digits
  if digits.isEmpty || !digits.all Char.isDigit then none
  else
    some (digits.foldl (fun n digit => 10 * n + (digit.toNat - '0'.toNat)) 0)
      |>.filter (· ≤ largest)

end ConstraintSearch.CommandLine
