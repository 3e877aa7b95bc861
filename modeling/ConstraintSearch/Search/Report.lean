import ConstraintSearch.Search.Basic
import ConstraintSearch.Search.Run

/-!
# Searching with a buffer

The caller lends a search a buffer for the assignment.  Before anything is tried, the search makes
sure that the library is active, that its limits and its problem have no flaw, and that buffer and
start fit the problem, in this order.  Then the machine runs to its end.

Whatever happens, the caller gets the buffer back as the search left it.
-/

namespace ConstraintSearch

/-- What a search leaves behind. -/
structure Report (σ : Type) where
  outcome : Except Fault Result
  buffer : Array Nat
  memory : σ
  library : Library

/-- The counters of a search. -/
def SearchState.stats {σ : Type} (state : SearchState σ) (elapsed : Nat) : Stats where
  nodes := state.nodes
  checks := state.checks
  backtracks := state.backtracks
  maxDepth := state.maxDepth
  elapsed := elapsed

namespace Search

variable {σ κ : Type}

/-- Why a search in a buffer of the given length is not begun, if it is not. -/
def objection? (search : Search σ κ) (build : Build) (active : Bool) (length : Nat) :
    Option Fault :=
  let count := search.problem.domains.size
  if build = .checked ∧ ¬active then some .inactive
  else
    match search.config.flaw? with
    | some flaw => some (.invalidConfig flaw)
    | none =>
        match search.problem.flaw? with
        | some error => some (.invalidProblem error)
        | none =>
            if length ≠ count then some (.wrongLength .assignment length count)
            else if count < search.start then some (.startExceeds search.start count)
            else none

/-- The machine before its first turn. -/
def initial (search : Search σ κ) (buffer : Array Nat) (memory : σ) (log : Array Message) :
    SearchState σ where
  buffer := buffer
  frontier := search.start
  candidates := #[0]
  nodes := 0
  checks := 0
  backtracks := 0
  maxDepth := search.start
  memory := memory
  log := log.push
    (.searchStarted search.problem.domains.size search.problem.slots.size search.start)

/-- What is left when the machine has stopped. -/
def report (search : Search σ κ) (activations : Nat) (ended : Machine.Ended σ) : Report σ :=
  let { ending, state } := ended
  match ending with
  | .ok status =>
      let stats := state.stats (search.elapsed state.nodes)
      { outcome := .ok { status, stats }
        buffer := state.buffer
        memory := state.memory
        library := { activations, log := state.log.push (.searchFinished status stats) } }
  | .error fault =>
      { outcome := .error fault
        buffer := state.buffer
        memory := state.memory
        library := { activations, log := state.log } }

/-- Searches in the buffer. -/
def perform (search : Search σ κ) (buffer : Array Nat) (memory : σ) (build : Build)
    (library : Library) : Report σ :=
  match search.objection? build library.isActive buffer.size with
  | some fault => { outcome := .error fault, buffer, memory, library }
  | none =>
      let { activations, log } := library
      search.report activations (search.machine.run (search.initial buffer memory log))

/-- A search whose checkers have no memory, as an operation of the library. -/
def within (search : Search Unit κ) (buffer : Array Nat) : Action (Result × Array Nat) :=
  fun build library =>
    let { outcome, buffer, library, .. } := search.perform buffer () build library
    match outcome with
    | .ok result => .ok (result, buffer) library
    | .error fault => .error (.fault fault) library

end Search

end ConstraintSearch
