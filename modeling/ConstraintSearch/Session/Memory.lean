import ConstraintSearch.Constraint

/-!
# The memory of a session

The checkers of a session share a memory.  It holds the cancellation flag, which checkers may set,
a record of the checker calls, and whatever the checkers keep for themselves.

The record holds the first calls only, but all are counted.
-/

namespace ConstraintSearch

/-- A call of a checker: the variables of its constraint, and the assignment it was given. -/
structure CheckerCall where
  scope : List Nat
  assignment : Array Nat
  deriving DecidableEq, Repr, Inhabited

/-- What the checkers of a session share; `τ` is what they keep for themselves. -/
structure SessionMemory (τ : Type) where
  /-- The cancellation flag. -/
  cancelled : Bool := false
  /-- The first calls. -/
  calls : Array CheckerCall := #[]
  /-- The number of all calls. -/
  callCount : Nat := 0
  own : τ

namespace SessionMemory

variable {τ κ : Type}

/-- How many calls are kept. -/
def callsKept : Nat := 60

/-- Forgets the calls. -/
def forgetCalls (memory : SessionMemory τ) : SessionMemory τ :=
  { memory with calls := #[], callCount := 0 }

/-- Notes a call. -/
def noteCall (memory : SessionMemory τ) (scope : List Nat) (assignment : Array Nat) :
    SessionMemory τ :=
  { memory with
    calls :=
      if memory.callCount < callsKept then memory.calls.push { scope, assignment }
      else memory.calls
    callCount := memory.callCount + 1 }

/-- The checker, with its calls noted as they begin. -/
def recorded (checker : Checker (SessionMemory τ) κ) : Checker (SessionMemory τ) κ where
  identity := checker.identity
  check scope assignment context := fun memory =>
    checker.check scope assignment context (memory.noteCall scope assignment)

end SessionMemory

end ConstraintSearch
