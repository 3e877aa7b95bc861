import ConstraintSearch.Log
import ConstraintSearch.Problem.Scan

/-!
# The search machine

The machine binds variables in order, tries the values of each in ascending order, and after every
tentative assignment makes a test.  It keeps its candidates on a stack of its own, with one entry
for every variable from the start on that is bound, and one for the variable in turn: the value to
try next.

`Machine.step` is one turn.  A turn either tries a value, or steps back from a variable that has
run out of candidates, or ends the search.  Nothing is known here about the test: it may answer
as it likes, change the memory that it shares with its later calls, or meet a fault.
-/

namespace ConstraintSearch

/-- A machine for searching. -/
structure Machine (σ : Type) where
  /-- The sizes of the domains. -/
  domains : Array Nat
  /-- The first variable to bind; the ones below keep their values. -/
  start : Nat
  /-- The test of an assignment whose variables below a frontier are bound. -/
  test : (assignment : Array Nat) → (frontier : Nat) → σ → Scan σ
  /-- Why to stop after so many tried values, if there is a reason. -/
  interruption? : (nodes : Nat) → σ → Option Status

/-- A search under way. -/
structure SearchState (σ : Type) where
  /-- The assignment; from the frontier on it holds whatever was left there. -/
  buffer : Array Nat
  /-- The variable in turn: all below it are bound. -/
  frontier : Nat
  /-- The next value to try, for each variable from the start up to the one in turn. -/
  candidates : Array Nat
  nodes : Nat
  checks : Nat
  backtracks : Nat
  maxDepth : Nat
  /-- The memory of the test. -/
  memory : σ
  /-- The messages reported so far. -/
  log : Array Message

/-- What a turn leads to. -/
inductive Turn (σ : Type) where
  /-- The search goes on. -/
  | onward (state : SearchState σ)
  /-- The search is over. -/
  | ended (status : Status) (state : SearchState σ)
  /-- The search is broken off. -/
  | broken (fault : Fault) (state : SearchState σ)

namespace Machine

variable {σ : Type}

/-- The variable in turn has run out of candidates. -/
def stepBack (machine : Machine σ) (state : SearchState σ) : Turn σ :=
  let state := { state with candidates := state.candidates.pop }
  if state.frontier = machine.start then .ended .exhausted state
  else
    let frontier := state.frontier - 1
    .onward
      { state with
        frontier
        backtracks := state.backtracks + 1
        log := state.log.push (.steppedBack frontier) }

/-- The variable in turn takes a value. -/
def assign (machine : Machine σ) (state : SearchState σ) (value : Nat) : SearchState σ :=
  { state with
    buffer := state.buffer.setIfInBounds state.frontier value
    candidates := state.candidates.setIfInBounds (state.frontier - machine.start) (value + 1)
    nodes := state.nodes + 1 }

/-- The variable in turn takes a value, and the test decides whether the next variable's turn
comes. -/
def tryValue (machine : Machine σ) (state : SearchState σ) (value : Nat) : Turn σ :=
  let state := machine.assign state value
  let { answer, calls, memory } := machine.test state.buffer (state.frontier + 1) state.memory
  let state := { state with checks := state.checks + calls, memory }
  match answer with
  | .error fault => .broken fault state
  | .ok false => .onward state
  | .ok true =>
      let frontier := state.frontier + 1
      .onward
        { state with
          frontier
          candidates := state.candidates.push 0
          maxDepth := max state.maxDepth frontier }

/-- One turn of the machine.  Each read is tested, so that a machine in a state it cannot reach
breaks off instead of going on with a value made up. -/
def step (machine : Machine σ) (state : SearchState σ) : Turn σ :=
  if state.frontier = machine.domains.size then .ended .solved state
  else if state.frontier < machine.start then .broken (.overflow .subtract) state
  else
    match state.candidates[state.frontier - machine.start]? with
    | none =>
        .broken (.indexOutOfBounds state.candidates.size (state.frontier - machine.start)) state
    | some value =>
        match machine.domains[state.frontier]? with
        | none =>
            .broken (.indexOutOfBounds machine.domains.size state.frontier) state
        | some size =>
            -- A value is tried only after the reasons to stop have been looked at, so a limit is
            -- met between two attempts; to step back is never stopped.
            if size ≤ value then machine.stepBack state
            else
              match machine.interruption? state.nodes state.memory with
              | some status => .ended status state
              | none =>
                  if state.frontier < state.buffer.size then machine.tryValue state value
                  else .broken (.indexOutOfBounds state.buffer.size state.frontier) state

end Machine

end ConstraintSearch
