import ConstraintSearch.Proofs.Search.Leftovers
import ConstraintSearch.Proofs.Session.Step

/-!
# When a search ends in a fault

A search looks at five things before it begins, and the first of them that is not in order is the
fault that it ends in (`objections`).  It has done nothing by then: no checker was called, and the
buffer, the memory and the library are as they were.

If nothing can be objected and no checker gives up, there is no fault at all, and the search has a
result (`outcome_eq_error_iff`).  A session answers accordingly, and when it answers with a fault, its
problems and constraints and its buffer are as before (`Session.step_search_faults`).

All this is about checkers that do not reach the library.  Those that do are the subject of
`ConstraintSearch.Proofs.Search.Watched`.
-/

namespace ConstraintSearch

variable {σ κ α : Type}

/-- The error that an operation refuses with, if it does. -/
def Action.refusal? (action : Action α) (build : Build) (library : Library) :
    Option ProblemError :=
  match action build library with
  | .error (.problem error) _ => some error
  | _ => none

namespace Search

variable {search : Search σ κ} {buffer : Array Nat} {memory : σ} {build : Build}
  {library : Library} {fault : Fault}

/-- What can be objected to a search in a buffer of the given length, in the order in which it
counts. -/
def objections (search : Search σ κ) (build : Build) (library : Library) (length : Nat) :
    List (Option Fault) :=
  let count := search.problem.domains.size
  [if build = .checked ∧ library.activations = 0 then some .inactive else none,
    search.config.flaw?.map .invalidConfig,
    (search.problem.validate.refusal? build library).map .invalidProblem,
    if length ≠ count then some (.wrongLength .assignment length count) else none,
    if count < search.start then some (.startExceeds search.start count) else none]

/-- The first objection, if there is one. -/
def firstObjection? (search : Search σ κ) (build : Build) (library : Library) (length : Nat) :
    Option Fault :=
  (search.objections build library length).findSome? id

/-- A search looks at the objections in order. -/
theorem objection?_eq_first (search : Search σ κ) (build : Build) (library : Library)
    (length : Nat) :
    search.objection? build library.isActive length =
      search.firstObjection? build library length := by
  unfold firstObjection? objections objection?
  -- In the checked build with no activation the first objection is at hand.  Otherwise the entry
  -- test passes, and so do those of the calls that the search makes before it begins.
  by_cases hinactive : build = .checked ∧ library.activations = 0
  · simp [hinactive, Library.isActive]
  · have hactive : ¬(build = .checked ∧ ¬library.isActive = true) := by
      simpa [Library.isActive] using hinactive
    simp only [if_neg hinactive, if_neg hactive, Action.refusal?,
      Problem.validate_apply _ hinactive, List.findSome?_cons, List.findSome?_nil, id]
    cases search.config.flaw? with
    | some flaw => rfl
    | none =>
        cases search.problem.flaw? with
        | some error => rfl
        | none =>
            simp only [Option.map_none]
            split
            · rfl
            · split <;> rfl

/-! ## Searches that are not begun -/

/-- A search to which something is objected leaves everything as it is. -/
theorem perform_of_objection
    (hfirst : search.firstObjection? build library buffer.size = some fault) (memory : σ) :
    search.perform buffer memory build library =
      { outcome := .error fault, buffer, memory, library } := by
  rw [perform, objection?_eq_first, hfirst]

/-- The objections do not depend on what the checkers note. -/
theorem firstObjection?_recording (search : Search σ κ) (build : Build) (library : Library)
    (length : Nat) :
    search.recording.firstObjection? build library length =
      search.firstObjection? build library length := by
  rw [← objection?_eq_first, ← objection?_eq_first]
  simp only [objection?, Search.recording, Problem.flaw?_recording]
  rfl

/-! ## Searches that are begun -/

/-- A search to which nothing is objected, and whose checkers do not give up, has a result. -/
theorem exists_result_of_unobjected
    (hfirst : search.firstObjection? build library buffer.size = none)
    (hsteady : search.problem.flaw? = none → search.problem.Steady search.context) (memory : σ) :
    search.Ready buffer build library ∧
      ∃ result, (search.perform buffer memory build library).outcome = .ok result := by
  rw [← objection?_eq_first] at hfirst
  have hready := ready_of_objection?_eq_none hfirst
  obtain ⟨result, hresult, -⟩ := hready.exists_result (hsteady hready.problem) memory
  exact ⟨hready, result, hresult⟩

/-- A search ends in a fault exactly when something is objected to it, and then in the first
objection. -/
theorem outcome_eq_error_iff
    (hsteady : search.problem.flaw? = none → search.problem.Steady search.context) :
    (search.perform buffer memory build library).outcome = .error fault ↔
      search.firstObjection? build library buffer.size = some fault := by
  cases hfirst : search.firstObjection? build library buffer.size with
  | some other =>
      rw [perform_of_objection hfirst]
      exact ⟨fun h => congrArg some (Except.error.inj h),
        fun h => congrArg Except.error (Option.some.inj h)⟩
  | none =>
      obtain ⟨-, result, hresult⟩ := exists_result_of_unobjected hfirst hsteady memory
      rw [hresult]
      exact ⟨nofun, nofun⟩

/-- A search that begins behind all variables of its problem, in a buffer that is too short.  Only the
first of these flaws counts, and in the checked build the inactive library comes before both. -/
example :
    let late := { fickle with start := 3 }
    (late.perform #[0] 0 .checked {}).outcome = .error .inactive ∧
      (late.perform #[0] 0 .unchecked {}).outcome = .error (.wrongLength .assignment 1 2) ∧
      (late.perform #[0, 0] 0 .unchecked {}).outcome = .error (.startExceeds 3 2) := by
  intro late
  have hsteady : late.problem.flaw? = none → late.problem.Steady () := fun _ => fickle_steady
  exact ⟨(outcome_eq_error_iff hsteady).2 rfl, (outcome_eq_error_iff hsteady).2 (by decide +kernel),
    (outcome_eq_error_iff hsteady).2 (by decide +kernel)⟩

end Search

/-! ## Searches of a session -/

namespace Session

variable {τ : Type} {session : Session τ κ} {p : Nat} {posed : PosedProblem τ κ}
  {operation : Operation τ κ} {build : Build}

/-- What the search of an order does in a session. -/
def searched (session : Session τ κ) (build : Build) (order : SearchOrder κ)
    (problem : Problem (SessionMemory τ) κ) : Report (SessionMemory τ) :=
  (order.search problem).perform session.opened.buffer (order.memory session.opened.memory) build
    session.opened.library

/-- The session after a search of its own. -/
def withReport (session : Session τ κ) (report : Report (SessionMemory τ)) : Session τ κ :=
  { session with buffer := report.buffer, memory := report.memory, library := report.library }

/-- A session answers a search with what it makes of the result, or with the fault. -/
theorem step_eq_searched (build : Build) (hposed : session.problems[p]? = some posed)
    (order : SearchOrder κ)
    (hoperation : operation = .search p order ∨ operation = .solve p order) :
    ∃ answer : Result → Answer, session.step build operation =
      (match (session.searched build order posed.problem).outcome with
        | .ok result => .ok (answer result)
        | .error fault => .error (.failed (.fault fault)),
        session.withReport (session.searched build order posed.problem)) := by
  obtain ⟨answer, hperform⟩ : ∃ answer : Result → Answer,
      SessionStep.perform operation = (do return answer (← SessionStep.search p order)) := by
    rcases hoperation with rfl | rfl
    · exact ⟨.outcome, rfl⟩
    · exact ⟨fun result => .flag result.isSolved, rfl⟩
  refine ⟨answer, ?_⟩
  have happly : SessionStep.perform operation build session.opened =
      match SessionStep.searchBuffer (order.search posed.problem) build
        { session.opened with memory := order.memory session.opened.memory } with
      | .ok result after => .ok (answer result) after
      | .error objection after => .error objection after := by
    have hopened : session.opened.problems[p]? = some posed := hposed
    rw [hperform, SessionStep.bind_apply, SessionStep.search_apply hopened]
    cases SessionStep.searchBuffer (order.search posed.problem) build
      { session.opened with memory := order.memory session.opened.memory } <;> rfl
  unfold SessionStep.searchBuffer at happly
  unfold searched
  generalize (order.search posed.problem).perform session.opened.buffer
    (order.memory session.opened.memory) build session.opened.library = report at happly ⊢
  obtain ⟨outcome, buffer, memory, library⟩ := report
  cases outcome with
  | ok result => exact step_of_ok happly
  | error fault => exact step_of_error happly

/-- What a session objects to a search is what can be objected to it in its buffer. -/
theorem firstObjection?_opened (session : Session τ κ) (search : Search (SessionMemory τ) κ)
    (build : Build) :
    search.firstObjection? build session.opened.library session.opened.buffer.size =
      search.firstObjection? build session.library session.buffer.size := by
  rw [← Search.objection?_eq_first, ← Search.objection?_eq_first]
  rfl

/-- A session answers a search with a fault exactly when something is objected to it, and then with
the first objection. -/
theorem step_search_fault_iff (hposed : session.problems[p]? = some posed)
    {order : SearchOrder κ}
    (hsteady : posed.problem.flaw? = none → posed.problem.Steady order.context)
    (hoperation : operation = .search p order ∨ operation = .solve p order) (fault : Fault) :
    (session.step build operation).1 = .error (.failed (.fault fault)) ↔
      (order.search posed.problem).firstObjection? build session.library session.buffer.size =
        some fault := by
  have houtcome : (session.searched build order posed.problem).outcome = .error fault ↔
      (order.search posed.problem).firstObjection? build session.opened.library
        session.opened.buffer.size = some fault :=
    Search.outcome_eq_error_iff hsteady
  rw [firstObjection?_opened] at houtcome
  rw [← houtcome]
  obtain ⟨answer, hstep⟩ := step_eq_searched build hposed order hoperation
  rw [hstep]
  cases (session.searched build order posed.problem).outcome with
  | ok result => exact ⟨nofun, nofun⟩
  | error other =>
      constructor
      · intro h
        injection h with h
        injection h with h
        injection h with h
        exact congrArg Except.error h
      · intro h
        obtain rfl : other = fault := Except.error.inj h
        rfl

/-- A search that is not begun changes nothing in a session but the flag that it was to look at. -/
theorem step_search_of_objection (hposed : session.problems[p]? = some posed)
    {order : SearchOrder κ}
    (hoperation : operation = .search p order ∨ operation = .solve p order) {fault : Fault}
    (hfirst : (order.search posed.problem).firstObjection? build session.library
      session.buffer.size = some fault) :
    (session.step build operation).2 =
      { session.opened with memory := order.memory session.opened.memory } := by
  obtain ⟨answer, hstep⟩ := step_eq_searched build hposed order hoperation
  rw [← firstObjection?_opened] at hfirst
  rw [hstep, searched, Search.perform_of_objection hfirst]
  rfl

/-- A search that is begun has an answer. -/
theorem step_search_of_unobjected (hposed : session.problems[p]? = some posed)
    {order : SearchOrder κ}
    (hsteady : posed.problem.flaw? = none → posed.problem.Steady order.context)
    (hoperation : operation = .search p order ∨ operation = .solve p order)
    (hfirst : (order.search posed.problem).firstObjection? build session.library
      session.buffer.size = none) :
    ∃ answer, (session.step build operation).1 = .ok answer := by
  obtain ⟨answer, hstep⟩ := step_eq_searched build hposed order hoperation
  rw [← firstObjection?_opened] at hfirst
  obtain ⟨-, result, hresult⟩ :=
    Search.exists_result_of_unobjected hfirst hsteady (order.memory session.opened.memory)
  rw [hstep, searched, hresult]
  exact ⟨answer result, rfl⟩

/-- What a session answers to a search, and what the search leaves of the session. -/
theorem step_search_faults (hposed : session.problems[p]? = some posed) {order : SearchOrder κ}
    (hoperation : operation = .search p order ∨ operation = .solve p order)
    (hsteady : posed.problem.flaw? = none → posed.problem.Steady order.context) :
    let first := (order.search posed.problem).firstObjection? build session.library
      session.buffer.size
    let after := (session.step build operation).2
    (∀ fault, (session.step build operation).1 = .error (.failed (.fault fault)) ↔
      first = some fault) ∧
    (∀ fault, first = some fault →
      after.buffer = session.buffer ∧ after.memory.own = session.memory.own ∧
        after.memory.callCount = 0 ∧ after.library.activations = session.library.activations) ∧
    (first = none → ∃ answer, (session.step build operation).1 = .ok answer) ∧
    after.problems = session.problems ∧ after.constraints = session.constraints := by
  intro first after
  refine ⟨step_search_fault_iff hposed hsteady hoperation, ?_,
    step_search_of_unobjected hposed hsteady hoperation,
    session.step_search build p order hoperation⟩
  intro fault hfirst
  have hafter : after = { session.opened with memory := order.memory session.opened.memory } :=
    step_search_of_objection hposed hoperation hfirst
  rw [hafter]
  exact ⟨rfl, rfl, rfl, rfl⟩

end Session

end ConstraintSearch
