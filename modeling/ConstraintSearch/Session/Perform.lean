import ConstraintSearch.Session.State

/-!
# Carrying out operations

`SessionStep.perform` says what each operation does to a session; `Session.step` carries one out
with an empty log and an empty record of calls, so that both tell what this operation did.
-/

namespace ConstraintSearch

/-- The search that is made of a problem when a session is given an order. -/
def SearchOrder.search {τ κ : Type} (order : SearchOrder κ)
    (problem : Problem (SessionMemory τ) κ) : Search (SessionMemory τ) κ where
  problem := problem
  context := order.context
  config := order.config
  start := order.start
  cancelled := fun _ memory => order.cancel.isSome && memory.cancelled
  elapsed := order.elapsed

/-- The memory that a search of a session begins with. -/
def SearchOrder.memory {τ κ : Type} (order : SearchOrder κ) (memory : SessionMemory τ) :
    SessionMemory τ :=
  { memory with cancelled := order.cancel.getD false }

namespace SessionStep

variable {τ κ : Type}

/-- A value that is shown only while the library is active. -/
def shown (answer : Answer) : SessionStep τ κ Answer := do
  call Action.requireActive
  return answer

/-- Makes a guard.  One that had the number before is given up. -/
def newGuard (g : Nat) : SessionStep τ κ Answer := do
  call Action.hold
  -- The new guard is made before the old one is given up, so the library stays active throughout.
  if (← get).guards.contains g then call Action.release
  modify fun session => { session with guards := session.guards.insert g () }
  return .text (Outline.record "Activation" [("_private", .atom "()")] true).compact

/-- Gives a guard up; it is gone even if that is a fault. -/
def dropGuard (g : Nat) : SessionStep τ κ Answer := do
  if !(← get).guards.contains g then throw .noSuchGuard
  modify fun session => { session with guards := session.guards.erase g }
  call Action.release
  return .done

/-- Makes a constraint.  One that had the number before is given up if it is still owned, and loses
the number if it is frozen. -/
def newConstraint (c arity : Nat) (checker : Checker (SessionMemory τ) κ) :
    SessionStep τ κ Answer := do
  let constraint ← call (Constraint.create arity (SessionMemory.recorded checker))
  match (← get).constraints[c]? with
  | some { constraint := before, frozen := false } => call before.drop
  | some { frozen := true, .. } => releaseNumber c
  | none => pure ()
  keepConstraint c { constraint }
  return .done

/-- Sets the domain of one variable. -/
def setDomain (p index size : Nat) : SessionStep τ κ Unit := do
  let posed ← problem p
  let changed ← call (posed.problem.setDomain index size)
  keepProblem p { posed with problem := changed }

/-- Sets domains, from the first on, to the given sizes. -/
def setDomains (p : Nat) (sizes : List Nat) : SessionStep τ κ Answer := do
  sizes.zipIdx.forM fun (size, index) => setDomain p index size
  return .done

/-- Hands a constraint to a problem, which freezes it: it is lent for good.  It stays frozen if the
problem does not take it, and it is not given back when the problem is dropped, so a constraint that
was handed over once is never changed again. -/
def setConstraint (p index c : Nat) : SessionStep τ κ Answer := do
  let held ← constraint c
  let posed ← problem p
  keepConstraint c { held with frozen := true }
  let changed ← call (posed.problem.setConstraint index held.constraint)
  keepProblem p { problem := changed, attached := posed.attached.setIfInBounds index (some c) }
  return .done

/-- Searches the problem of a number in the buffer. -/
def search (p : Nat) (order : SearchOrder κ) : SessionStep τ κ Result := do
  let posed ← problem p
  modify fun session => { session with memory := order.memory session.memory }
  searchBuffer (order.search posed.problem)

/-- What an operation does. -/
def perform : Operation τ κ → SessionStep τ κ Answer
  | .activate => return .flag (← call Action.activate)
  | .deactivate => return .flag (← call Action.deactivate)
  | .isActive => return .flag (← call Action.isActive)
  | .newGuard g => newGuard g
  | .dropGuard g => dropGuard g
  | .newConstraint c arity checker => newConstraint c arity checker
  | .withVariables c scope => do
      let own ← ownConstraint c
      -- The operation consumes the constraint, so it is gone if the call fails.
      forgetConstraint c
      keepConstraint c { constraint := ← call (own.withVariables scope) }
      return .done
  | .setVariable c index v => do
      let own ← ownConstraint c
      keepConstraint c { constraint := ← call (own.setVariable index v) }
      return .done
  | .variableAt c index => do
      let held ← constraint c
      return .number (← call (held.constraint.variableAt index))
  | .scope c => do shown (.numbers (← constraint c).constraint.scope)
  | .arity c => do shown (.number (← constraint c).constraint.arity)
  | .maxVariable c => do shown (.number (← constraint c).constraint.maxVariable)
  | .isApplicable c frontier => do
      shown (.flag ((← constraint c).constraint.isApplicable frontier))
  | .describeConstraint c => return .text (← constraint c).constraint.outline.compact
  | .check c assignment context => do
      let held ← constraint c
      call Action.requireActive
      return .flag (← judge (held.constraint.check assignment context))
  | .sameChecker c d => do
      -- The argument is looked up first.
      let other ← constraint d
      let one ← constraint c
      shown (.flag (one.constraint.checker.identity == other.constraint.checker.identity))
  | .dropConstraint c => do
      let own ← ownConstraint c
      forgetConstraint c
      call own.drop
      return .done
  | .newProblem p domains slots => do
      let problem ← call (Problem.create domains slots)
      if let some before := (← get).problems[p]? then call before.problem.drop
      keepProblem p { problem, attached := Array.replicate slots none }
      return .done
  | .variableCount p => do shown (.number (← problem p).problem.domains.size)
  | .slotCount p => do shown (.number (← problem p).problem.slots.size)
  | .domains p => do shown (.numbers (← problem p).problem.domains.toList)
  | .setDomain p index size => do
      setDomain p index size
      return .done
  | .setDomains p sizes => do
      let _ ← problem p
      call Action.requireActive
      setDomains p sizes
  | .setAllDomains p size => do
      let posed ← problem p
      call Action.requireActive
      setDomains p (List.replicate posed.problem.domains.size size)
  | .domainAt p index => do
      let posed ← problem p
      return .number (← call (posed.problem.domainAt index))
  | .setConstraint p index c => setConstraint p index c
  | .constraintAt p index => do
      let posed ← problem p
      let _ ← call (posed.problem.constraintAt index)
      return .found posed.attached[index]?.join
  | .validate p => do
      let posed ← problem p
      call posed.problem.validate
      return .done
  | .describeProblem p tall => do
      let outline := (← problem p).problem.outline
      return .text (if tall then outline.tall else outline.compact)
  | .dropProblem p => do
      let posed ← problem p
      forgetProblem p
      call posed.problem.drop
      return .done
  | .isConsistent p assignment context frontier => do
      let posed ← problem p
      call Action.requireActive
      return .flag (← judge fun memory =>
        let { answer, memory, .. } := posed.problem.scan assignment context frontier memory
        match answer with
        | .ok consistent => .ok consistent memory
        | .error fault => .error fault memory)
  | .setBuffer assignment => do
      modify fun session => { session with buffer := assignment }
      return .done
  | .solve p order => return .flag (← search p order).isSolved
  | .search p order => return .outcome (← search p order)

end SessionStep

namespace Session

variable {τ κ : Type}

/-- A session before its first operation; `active` says whether it begins with an activation. -/
def start (active : Bool) (own : τ) : Session τ κ :=
  { library := { activations := if active then 1 else 0 }, memory := { own } }

/-- Carries out an operation. -/
def step (build : Build) (session : Session τ κ) (operation : Operation τ κ) :
    Except Objection Answer × Session τ κ :=
  let session :=
    { session with
      library := { session.library with log := #[] }
      memory := session.memory.forgetCalls }
  match SessionStep.perform operation build session with
  | .ok answer session => (.ok answer, session)
  | .error objection session => (.error objection, session)

end Session

end ConstraintSearch
