import ConstraintSearch.Proofs.Search.Asked

/-!
# Two views of a run

A run depends on the memory of the test only through the answers that the test and the reasons to
stop give.  If one machine is all that can be seen of another through a view of the memory, then so
are its runs (`SeenAs.run`).

Checkers that note their calls are a case of this.  Whatever the limits are and whatever stops it,
a search does the same with them as without (`perform_recording`): the calls that they note are the
calls of the search.
-/

namespace ConstraintSearch

variable {σ τ κ : Type} {view : σ → τ}

/-! ## Machines -/

/-- The state, with another view of the memory. -/
def SearchState.map (view : σ → τ) (state : SearchState σ) : SearchState τ where
  buffer := state.buffer
  frontier := state.frontier
  candidates := state.candidates
  nodes := state.nodes
  checks := state.checks
  backtracks := state.backtracks
  maxDepth := state.maxDepth
  memory := view state.memory
  log := state.log

@[simp]
theorem SearchState.map_buffer (state : SearchState σ) :
    (state.map view).buffer = state.buffer := rfl

@[simp]
theorem SearchState.map_frontier (state : SearchState σ) :
    (state.map view).frontier = state.frontier := rfl

@[simp]
theorem SearchState.map_candidates (state : SearchState σ) :
    (state.map view).candidates = state.candidates := rfl

/-- What a turn leads to, with another view of the memory. -/
def Turn.map (view : σ → τ) : Turn σ → Turn τ
  | .onward state => .onward (state.map view)
  | .ended status state => .ended status (state.map view)
  | .broken fault state => .broken fault (state.map view)

/-- What a scan found, with another view of the memory. -/
def Scan.map (view : σ → τ) (scan : Scan σ) : Scan τ where
  answer := scan.answer
  calls := scan.calls
  memory := view scan.memory

namespace Machine

/-- How a run ends, with another view of the memory. -/
def Ended.map (view : σ → τ) (ended : Ended σ) : Ended τ where
  ending := ended.ending
  state := ended.state.map view

/-- The second machine is all that can be seen of the first through the view. -/
structure SeenAs (view : σ → τ) (machine : Machine σ) (seen : Machine τ) : Prop where
  domains : seen.domains = machine.domains
  start : seen.start = machine.start
  test : ∀ assignment frontier memory,
    seen.test assignment frontier (view memory) = (machine.test assignment frontier memory).map view
  interruption? : ∀ nodes memory,
    seen.interruption? nodes (view memory) = machine.interruption? nodes memory

variable {machine : Machine σ} {seen : Machine τ}

private theorem SeenAs.stepBack (h : SeenAs view machine seen) (state : SearchState σ) :
    seen.stepBack (state.map view) = (machine.stepBack state).map view := by
  simp only [Machine.stepBack, SearchState.map, h.start]
  split <;> rfl

private theorem SeenAs.tryValue (h : SeenAs view machine seen) (state : SearchState σ)
    (value : Nat) :
    seen.tryValue (state.map view) value = (machine.tryValue state value).map view := by
  obtain ⟨scan, hscan⟩ : ∃ scan, machine.test (machine.assign state value).buffer
      (state.frontier + 1) (machine.assign state value).memory = scan := ⟨_, rfl⟩
  have hassign : seen.assign (state.map view) value = (machine.assign state value).map view := by
    simp only [Machine.assign, SearchState.map, h.start]
  have hseen : seen.test (seen.assign (state.map view) value).buffer ((state.map view).frontier + 1)
      (seen.assign (state.map view) value).memory = scan.map view := by
    rw [hassign, ← hscan]
    exact h.test _ _ _
  rw [tryValue_of_test hseen, tryValue_of_test hscan, hassign]
  obtain ⟨answer, calls, memory⟩ := scan
  cases answer with
  | error fault => rfl
  | ok accepted => cases accepted <;> rfl

theorem SeenAs.step (h : SeenAs view machine seen) (state : SearchState σ) :
    seen.step (state.map view) = (machine.step state).map view := by
  have hreason : seen.interruption? (state.map view).nodes (state.map view).memory =
      machine.interruption? state.nodes state.memory := h.interruption? _ _
  -- Through the view every test of a turn finds the same, so follow the tests in their order.
  unfold Machine.step
  simp only [h.domains, h.start, hreason, h.stepBack, h.tryValue, SearchState.map_buffer,
    SearchState.map_frontier, SearchState.map_candidates]
  by_cases hsolved : state.frontier = machine.domains.size
  · rw [if_pos hsolved, if_pos hsolved]
    rfl
  rw [if_neg hsolved, if_neg hsolved]
  by_cases hstart : state.frontier < machine.start
  · rw [if_pos hstart, if_pos hstart]
    rfl
  rw [if_neg hstart, if_neg hstart]
  cases state.candidates[state.frontier - machine.start]? with
  | none => rfl
  | some value =>
      cases machine.domains[state.frontier]? with
      | none => rfl
      | some size =>
          by_cases hspent : size ≤ value
          · simp only [if_pos hspent]
          · simp only [if_neg hspent]
            cases machine.interruption? state.nodes state.memory with
            | some status => rfl
            | none =>
                by_cases hbuffer : state.frontier < state.buffer.size
                · simp only [if_pos hbuffer]
                · simp only [if_neg hbuffer]
                  rfl

/-- What is seen of a run is the run of what is seen. -/
theorem SeenAs.run (h : SeenAs view machine seen) (state : SearchState σ) :
    seen.run (state.map view) = (machine.run state).map view := by
  induction state using Machine.run.induct machine with
  | case1 state next hnext ih =>
      have hseen : seen.step (state.map view) = .onward (next.map view) := by
        rw [h.step, hnext]
        rfl
      rw [run_of_onward hnext, run_of_onward hseen, ih]
  | case2 state status last hlast =>
      have hseen : seen.step (state.map view) = .ended status (last.map view) := by
        rw [h.step, hlast]
        rfl
      rw [run_of_ended hlast, run_of_ended hseen]
      rfl
  | case3 state fault last hlast =>
      have hseen : seen.step (state.map view) = .broken fault (last.map view) := by
        rw [h.step, hlast]
        rfl
      rw [run_of_broken hlast, run_of_broken hseen]
      rfl

end Machine

/-! ## Noting checkers -/

/-- A scan with noting checkers adds to the record calls of applicable constraints, each under the
assignment that is scanned. -/
theorem Problem.exists_calls_of_scan_recording (problem : Problem σ κ) (assignment : Array Nat)
    (context : κ) (frontier : Nat) (memory : Recorded σ) :
    ∃ new : List Call,
      (problem.recording.scan assignment context frontier memory).memory.calls =
          memory.calls ++ new ∧
        ∀ call ∈ new, call.buffer = assignment ∧ ∃ constraint,
          problem.slots[call.slot]? = some (some constraint) ∧
            constraint.isApplicable frontier = true := by
  refine ⟨problem.callsBelow assignment frontier
    (problem.reach assignment context frontier memory.own), ?_, fun call hcall => ?_⟩
  · rw [scan, scanFrom_recording]
  · obtain ⟨hbuffer, -, hset⟩ := mem_callsBelow.1 hcall
    exact ⟨hbuffer, hset⟩

/-- Without the record, a scan with noting checkers is the scan. -/
theorem Problem.scan_recording_map_own (problem : Problem σ κ) (assignment : Array Nat)
    (context : κ) (frontier : Nat) (memory : Recorded σ) :
    (problem.recording.scan assignment context frontier memory).map Recorded.own =
      problem.scan assignment context frontier memory.own := by
  rw [scan, scanFrom_recording]
  rfl

/-- What a search leaves behind, with another view of the memory. -/
def Report.map (view : σ → τ) (report : Report σ) : Report τ where
  outcome := report.outcome
  buffer := report.buffer
  memory := view report.memory
  library := report.library

namespace Search

/-- Without the record, the machine with noting checkers is the machine of the search. -/
theorem seenAs_recording (search : Search σ κ) :
    Machine.SeenAs Recorded.own search.recording.machine search.machine where
  domains := rfl
  start := rfl
  test assignment frontier memory :=
    (search.problem.scan_recording_map_own assignment search.context frontier memory).symm
  interruption? _ _ := rfl

/-- With noting checkers a search does the same, down to its messages. -/
theorem perform_recording (search : Search σ κ) (buffer : Array Nat) (memory : σ) (build : Build)
    (library : Library) :
    (search.recording.perform buffer { own := memory } build library).map Recorded.own =
      search.perform buffer memory build library := by
  have hobjection : search.recording.objection? build library.isActive buffer.size =
      search.objection? build library.isActive buffer.size := by
    unfold objection?
    rw [show search.recording.problem.flaw? = search.problem.flaw? from
      Problem.flaw?_recording search.problem]
    rfl
  unfold perform
  -- What is objected does not depend on the checkers, and if nothing is, the runs are seen as each
  -- other.
  rw [hobjection]
  cases search.objection? build library.isActive buffer.size with
  | some fault => rfl
  | none =>
      have hrun := search.seenAs_recording.run
        (search.recording.initial buffer { own := memory } library.log)
      have hinitial : (search.recording.initial buffer { own := memory } library.log).map
          Recorded.own = search.initial buffer memory library.log := by
        simp [initial, SearchState.map, recording, Problem.recording]
      rw [hinitial] at hrun
      simp only [hrun]
      generalize search.recording.machine.run _ = ended
      obtain ⟨ending, state⟩ := ended
      cases ending <;> rfl

end Search

end ConstraintSearch
