import ConstraintSearch.Search.Report
import ConstraintSearch.Session.Operation
import Std.Data.TreeMap

/-!
# The state of a session

A session owns constraints until it hands them to a problem.  From then on they are frozen: a
constraint is lent for good, also if the problem does not take it and after the problem is dropped, and
no operation changes it any more.  So whatever a problem was given, it keeps.

A frozen constraint outlives its number: when the number is given to a new constraint, the old one
stays in its slots, where it is known by no number any more.

All searches of a session work in one buffer.
-/

namespace ConstraintSearch

structure HeldConstraint (τ κ : Type) where
  constraint : Constraint (SessionMemory τ) κ
  /-- Whether it was handed to a problem. -/
  frozen : Bool := false

structure PosedProblem (τ κ : Type) where
  problem : Problem (SessionMemory τ) κ
  /-- The numbers that the constraints in its slots are known by. -/
  attached : Array (Option Nat)

/-- The problem when the constraint with the number `c` is known by it no more. -/
def PosedProblem.withoutNumber {τ κ : Type} (posed : PosedProblem τ κ) (c : Nat) :
    PosedProblem τ κ :=
  { posed with attached := posed.attached.map fun d => if d = some c then none else d }

/-- The state of a session. -/
structure Session (τ κ : Type) where
  library : Library := {}
  constraints : Std.TreeMap Nat (HeldConstraint τ κ) := {}
  problems : Std.TreeMap Nat (PosedProblem τ κ) := {}
  guards : Std.TreeMap Nat Unit := {}
  buffer : Array Nat := #[]
  memory : SessionMemory τ

/-- A step of a session: it reads the build, changes the state and ends in a value or an
objection.  An objection undoes nothing. -/
abbrev SessionStep (τ κ α : Type) := ReaderT Build (EStateM Objection (Session τ κ)) α

namespace SessionStep

variable {τ κ α : Type}

/-- Carries out an operation of the library. -/
def call (action : Action α) : SessionStep τ κ α := fun build session =>
  match action build session.library with
  | .ok value library => .ok value { session with library }
  | .error failure library => .error (.failed failure) { session with library }

/-- Lets a checker use the memory. -/
def judge (verdict : EStateM Fault (SessionMemory τ) α) : SessionStep τ κ α := fun _ session =>
  match verdict session.memory with
  | .ok value memory => .ok value { session with memory }
  | .error fault memory => .error (.failed (.fault fault)) { session with memory }

/-- Searches in the buffer. -/
def searchBuffer (search : Search (SessionMemory τ) κ) : SessionStep τ κ Result :=
  fun build session =>
    let { outcome, buffer, memory, library } :=
      search.perform session.buffer session.memory build session.library
    let session := { session with buffer, memory, library }
    match outcome with
    | .ok result => .ok result session
    | .error fault => .error (.failed (.fault fault)) session

def constraint (c : Nat) : SessionStep τ κ (HeldConstraint τ κ) := do
  match (← get).constraints[c]? with
  | some held => return held
  | none => throw .noSuchConstraint

/-- The constraint of a number, if it can be changed. -/
def ownConstraint (c : Nat) : SessionStep τ κ (Constraint (SessionMemory τ) κ) := do
  let held ← constraint c
  if held.frozen then throw .frozen
  return held.constraint

def problem (p : Nat) : SessionStep τ κ (PosedProblem τ κ) := do
  match (← get).problems[p]? with
  | some posed => return posed
  | none => throw .noSuchProblem

def keepConstraint (c : Nat) (held : HeldConstraint τ κ) : SessionStep τ κ Unit :=
  modify fun session => { session with constraints := session.constraints.insert c held }

def forgetConstraint (c : Nat) : SessionStep τ κ Unit :=
  modify fun session => { session with constraints := session.constraints.erase c }

/-- Takes its number from a frozen constraint, which stays in its slots. -/
def releaseNumber (c : Nat) : SessionStep τ κ Unit :=
  modify fun session =>
    { session with problems := session.problems.map fun _ posed => posed.withoutNumber c }

/-- Keeps a problem under a number. -/
def keepProblem (p : Nat) (posed : PosedProblem τ κ) : SessionStep τ κ Unit :=
  modify fun session => { session with problems := session.problems.insert p posed }

/-- Forgets the problem of a number. -/
def forgetProblem (p : Nat) : SessionStep τ κ Unit :=
  modify fun session => { session with problems := session.problems.erase p }

end SessionStep

end ConstraintSearch
