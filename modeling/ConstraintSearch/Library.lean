import ConstraintSearch.Log
import ConstraintSearch.Text.Outline

/-!
# The state of the library

The library is active while at least one activation is outstanding.  Activations are counted, so
pairs of activating and deactivating may be nested; only the outermost pair changes whether the
library is active, and only that pair is reported.

The state also holds the messages reported so far.
-/

namespace ConstraintSearch

/-- The state of the library. -/
structure Library where
  /-- Activations that have not been ended. -/
  activations : Nat := 0
  /-- The messages reported so far, the oldest first. -/
  log : Array Message := #[]
  deriving DecidableEq, Repr, Inhabited

namespace Library

/-- Whether an activation is outstanding. -/
def isActive (library : Library) : Bool := 0 < library.activations

/-- Reports a message. -/
def record (library : Library) (message : Message) : Library :=
  { library with log := library.log.push message }

/-- Adds an activation.  The first one is reported. -/
def activate (library : Library) : Library :=
  if library.activations = 0 then
    { activations := 1, log := library.log.push .activated }
  else
    { library with activations := library.activations + 1 }

/-- Ends an activation and says whether there was one to end.  Ending the last one is reported,
and so is the attempt to end one that is not there. -/
def deactivate (library : Library) : Bool × Library :=
  if library.activations = 0 then (false, library.record .alreadyInactive)
  else if library.activations = 1 then
    (true, { activations := 0, log := library.log.push .deactivated })
  else (true, { library with activations := library.activations - 1 })

/-- The activations as a value; messages are not shown. -/
def outline (library : Library) : Outline :=
  .record "Lifecycle" [("depth", .number library.activations)] true

@[simp]
theorem record_activations (library : Library) (message : Message) :
    (library.record message).activations = library.activations := rfl

@[simp]
theorem activate_activations (library : Library) :
    library.activate.activations = library.activations + 1 := by
  unfold activate
  split <;> simp_all

/-- Ending an activation takes one away, and changes nothing when there is none. -/
@[simp]
theorem deactivate_activations (library : Library) :
    library.deactivate.2.activations = library.activations - 1 := by
  unfold deactivate
  split
  · simp_all
  · split <;> simp_all

/-- An activation is ended exactly when one is outstanding. -/
@[simp]
theorem deactivate_ended (library : Library) :
    library.deactivate.1 = library.isActive := by
  unfold deactivate isActive
  split
  · simp_all
  · split <;> simp <;> omega

end Library

end ConstraintSearch
