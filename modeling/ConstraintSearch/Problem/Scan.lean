import ConstraintSearch.Problem

/-!
# The consistency scan

The scan asks, slot by slot, every constraint that is applicable at a frontier, and stops at the
first one that rejects.  An unset slot is a fault, but only if the scan reaches it.

A scan does not ask whether the library is active.  With checkers that leave the activations alone
it would find what was found when it began; with checkers that may change them, `Search.Watched` is
the search, whose scans ask again at every slot.
-/

namespace ConstraintSearch

/-- What a scan found. -/
structure Scan (σ : Type) where
  /-- Whether every applicable constraint accepts. -/
  answer : Except Fault Bool
  /-- The number of checker calls. -/
  calls : Nat
  /-- The memory that the last checker left. -/
  memory : σ

namespace Problem

variable {σ κ : Type}

/-- Scans the slots from `index` on; `calls` checkers have been asked before. -/
def scanFrom (problem : Problem σ κ) (assignment : Array Nat) (context : κ) (frontier : Nat)
    (index calls : Nat) (memory : σ) : Scan σ :=
  if h : index < problem.slots.size then
    match problem.slots[index] with
    | none => { answer := .error (.unsetSlot index), calls, memory }
    | some constraint =>
        if constraint.isApplicable frontier then
          match constraint.check assignment context memory with
          | .ok true memory =>
              problem.scanFrom assignment context frontier (index + 1) (calls + 1) memory
          | .ok false memory => { answer := .ok false, calls := calls + 1, memory }
          | .error fault memory => { answer := .error fault, calls := calls + 1, memory }
        else problem.scanFrom assignment context frontier (index + 1) calls memory
  else { answer := .ok true, calls, memory }
termination_by problem.slots.size - index

/-- Scans all slots. -/
def scan (problem : Problem σ κ) (assignment : Array Nat) (context : κ) (frontier : Nat)
    (memory : σ) : Scan σ :=
  problem.scanFrom assignment context frontier 0 0 memory

end Problem

end ConstraintSearch
