import ConstraintSearch.Build
import ConstraintSearch.Library

/-!
# Operations of the library

An operation reads the build, changes the state of the library, and ends in a value or in a
failure.  A failure does not undo anything: the state is what the operation has left by then.

Every operation on constraints and problems begins with `requireActive`.  The guards are here
too: `hold` makes an activation and `release` ends it.
-/

namespace ConstraintSearch

/-- Why an operation has no value. -/
inductive Failure where
  /-- The caller can recover from the error. -/
  | problem (error : ProblemError)
  /-- A rule was broken. -/
  | fault (fault : Fault)
  deriving DecidableEq, Repr

/-- An operation of the library. -/
abbrev Action (α : Type) := ReaderT Build (EStateM Failure Library) α

namespace Action

variable {α : Type}

/-- Ends in a fault. -/
def broken (fault : Fault) : Action α := throw (.fault fault)

/-- Ends in an error that the caller can recover from. -/
def refused (error : ProblemError) : Action α := throw (.problem error)

/-- A computation that may meet a fault. -/
def ofExcept (result : Except Fault α) : Action α :=
  match result with
  | .ok value => pure value
  | .error fault => broken fault

/-- Reports a message. -/
def record (message : Message) : Action Unit := modify (·.record message)

/-- A precondition of every build. -/
def require (condition : Bool) (fault : Fault) : Action Unit :=
  if condition then pure () else broken fault

/-- A precondition that only the checked build tests. -/
def requireChecked (condition : Bool) (fault : Fault) : Action Unit := do
  if (← read) = .checked then require condition fault

/-- The precondition that every operation on constraints and problems begins with. -/
def requireActive : Action Unit := do
  requireChecked (← get).isActive .inactive

/-- Whatever the outcome of `action`, `cleanup` follows it.  The outcome stays, unless only the
cleanup fails. -/
def followedBy (action : Action α) (cleanup : Action Unit) : Action α := fun build library =>
  match action build library with
  | .ok value library =>
      match cleanup build library with
      | .ok _ library => .ok value library
      | .error failure library => .error failure library
  | .error failure library =>
      match cleanup build library with
      | .ok _ library => .error failure library
      | .error _ library => .error failure library

/-- `cleanup` follows `action` only if that fails. -/
def onFailure (action : Action α) (cleanup : Action Unit) : Action α := fun build library =>
  match action build library with
  | .ok value library => .ok value library
  | .error failure library =>
      match cleanup build library with
      | .ok _ library => .error failure library
      | .error _ library => .error failure library

/-! ## Activation -/

/-- Adds an activation; this always succeeds. -/
def activate : Action Bool := do
  modify (·.activate)
  return true

/-- Ends an activation and says whether there was one. -/
def deactivate : Action Bool := do
  let (ended, library) := (← get).deactivate
  set library
  return ended

/-- Whether the library is active. -/
def isActive : Action Bool := return (← get).isActive

/-- Makes a guard, which stands for one activation. -/
def hold : Action Unit := do
  let _ ← activate

/-- Gives a guard up.  The checked build demands that its activation is still there. -/
def release : Action Unit := do
  requireChecked (← deactivate) .unbalancedRelease

/-- Carries out an operation while a guard is held, unless `held` is false. -/
def whileHeld (held : Bool) (action : Action α) : Action α := do
  if held then
    hold
    action.followedBy release
  else action

end Action

end ConstraintSearch
