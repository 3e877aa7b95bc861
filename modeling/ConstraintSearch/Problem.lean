import ConstraintSearch.Constraint

/-!
# Problems

A problem has variables `0, 1, …, n - 1`.  Variable `i` takes the values below the size of its
domain.  The constraints of a problem stand in numbered slots; a slot may still be unset.

A problem is fit for a search when it has no flaw: every slot is set, and no constraint refers to
a variable that the problem does not have.
-/

namespace ConstraintSearch

/-- Sizes of domains, and constraints in slots. -/
structure Problem (σ κ : Type) where
  domains : Array Nat
  slots : Array (Option (Constraint σ κ))

namespace Problem

variable {σ κ : Type}

/-- What is wrong with a slot of a problem over so many variables. -/
def slotFlaw? (domains index : Nat) : Option (Constraint σ κ) → Option ProblemError
  | none => some (.unsetConstraint index)
  | some constraint =>
      (constraint.scope.find? (domains ≤ ·)).map (.variableOutOfRange index · domains)

/-- What is wrong with the first slot that has a flaw. -/
def flaw? (problem : Problem σ κ) : Option ProblemError :=
  problem.slots.toList.zipIdx.findSome? fun (slot, index) =>
    slotFlaw? problem.domains.size index slot

/-- The problem as a value. -/
def outline (problem : Problem σ κ) : Outline :=
  .record "Problem"
    [("domains", .numbers problem.domains.toList),
      ("constraints", .list (problem.slots.toList.map (.optional Constraint.outline)))] true

/-! ## Operations -/

/-- A problem with empty domains and unset slots. -/
def create (domains slots : Nat) : Action (Problem σ κ) := do
  Action.requireActive
  Action.require (0 < domains) .noVariables
  Action.require (0 < slots) .noConstraints
  if !hasRoom domains then Action.refused (.allocation "domains" domains)
  if !hasRoom slots then Action.refused (.allocation "constraint slots" slots)
  Action.record (.createdProblem domains slots)
  return { domains := Array.replicate domains 0, slots := Array.replicate slots none }

/-- Gives a problem up.  Its constraints stay. -/
def drop (problem : Problem σ κ) : Action Unit :=
  Action.record (.droppedProblem problem.domains.size problem.slots.size)

/-- Sets the size of a domain. -/
def setDomain (problem : Problem σ κ) (index size : Nat) : Action (Problem σ κ) := do
  Action.requireActive
  Action.require (index < problem.domains.size) (.domainIndex index problem.domains.size)
  return { problem with domains := problem.domains.setIfInBounds index size }

/-- The size of a domain. -/
def domainAt (problem : Problem σ κ) (index : Nat) : Action Nat := do
  Action.requireActive
  match problem.domains[index]? with
  | some size => return size
  | none => Action.broken (.domainIndex index problem.domains.size)

/-- Puts a constraint into a slot.  The checked build demands that the problem has all variables
of the constraint. -/
def setConstraint (problem : Problem σ κ) (index : Nat) (constraint : Constraint σ κ) :
    Action (Problem σ κ) := do
  Action.requireActive
  Action.require (index < problem.slots.size) (.constraintIndex index problem.slots.size)
  Action.requireChecked (constraint.maxVariable < problem.domains.size)
    (.foreignVariable constraint.maxVariable problem.domains.size)
  return { problem with slots := problem.slots.setIfInBounds index (some constraint) }

/-- The constraint in a slot, if it is set. -/
def constraintAt (problem : Problem σ κ) (index : Nat) : Action (Option (Constraint σ κ)) := do
  Action.requireActive
  match problem.slots[index]? with
  | some slot => return slot
  | none => Action.broken (.constraintIndex index problem.slots.size)

/-- Demands that the problem has no flaw. -/
def validate (problem : Problem σ κ) : Action Unit := do
  Action.requireActive
  match problem.flaw? with
  | some error => Action.refused error
  | none => return ()

end Problem

end ConstraintSearch
