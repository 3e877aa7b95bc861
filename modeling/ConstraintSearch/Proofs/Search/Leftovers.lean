import ConstraintSearch.Proofs.Search.Writes
import ConstraintSearch.Proofs.Session.Lookups

/-!
# What a search leaves in the buffer

However a search ends, its buffer differs from the one it began with only in the slots that were
written (`Writes`).  Two endings say more.

If all candidates were tried, every variable that was ever in turn has run out of values, the deeper
ones before the others.  Each of them was left with the last value of its domain, and no turn has
touched it since: `LastValues` is the invariant.  A variable with an empty domain was never written.

If a checker gives up, nothing is written after its call.  So the buffer is what this call was given
(`Ready.call_of_fault`).

## The invariant

`LastValues` speaks of the variables behind the one in turn, up to the greatest depth: they have run
out of values, and hold the last ones.  The variable in turn may hold anything, but if a value of it
was tried, the buffer holds the one tried last.  So when it runs out of values in its turn, it holds
the last of them, and it joins those behind (`LastValues.of_spent`).
-/

namespace ConstraintSearch

variable {σ κ : Type}

/-! ## Variables that have run out of values -/

namespace Machine

variable {machine : Machine σ} {state : SearchState σ} {value size : Nat}

/-- The variables behind the one in turn that were reached hold the last values of their domains,
and the one in turn holds the value that was tried last, if there was one. -/
structure LastValues (machine : Machine σ) (state : SearchState σ) : Prop where
  behind : ∀ v size, state.frontier < v → v ≤ state.maxDepth →
    machine.domains[v]? = some size → 0 < size → state.buffer[v]? = some (size - 1)
  inTurn : ∀ value, state.candidates[state.frontier - machine.start]? = some (value + 1) →
    state.buffer[state.frontier]? = some value

/-- The entry of a variable that has run out of values is the size of its domain. -/
theorem StackInvariant.candidate_of_spent (hinv : StackInvariant machine state)
    (hsize : machine.domains[state.frontier]? = some size)
    (hvalue : machine.nextValue? state = none) :
    state.candidates[state.frontier - machine.start]? = some size := by
  obtain ⟨candidate, hle, hcandidate⟩ := hinv.inTurn size hsize
  have hspent : ¬candidate < size := by
    intro hlt
    simp [nextValue?, hcandidate, hsize, hlt] at hvalue
  rw [hcandidate, Nat.le_antisymm hle (Nat.not_lt.1 hspent)]

/-- A variable that runs out of values holds the last one. -/
theorem LastValues.of_spent (h : LastValues machine state) (hinv : StackInvariant machine state)
    (hvalue : machine.nextValue? state = none)
    (hsize : machine.domains[state.frontier]? = some size) (hpos : 0 < size) :
    state.buffer[state.frontier]? = some (size - 1) := by
  apply h.inTurn
  rw [Nat.sub_add_cancel hpos]
  exact hinv.candidate_of_spent hsize hvalue

private theorem LastValues.back (h : LastValues machine state)
    (hinv : StackInvariant machine state) (hstart : machine.start < state.frontier)
    (hvalue : machine.nextValue? state = none) : LastValues machine state.steppedBack where
  behind := by
    intro v size hlt hle hsize hpos
    simp only [SearchState.steppedBack] at hlt hle ⊢
    by_cases hown : v = state.frontier
    · subst hown
      exact h.of_spent hinv hvalue hsize hpos
    · exact h.behind v size (by omega) hle hsize hpos
  inTurn := by
    -- The variable that comes in turn again is bound: its entry is one more than its value.
    intro value hcandidate
    obtain ⟨bound, size, hbuffer, -, -, hentry⟩ :=
      hinv.bound (state.frontier - 1) (by omega) (by omega)
    have hcount := hinv.candidates_size
    simp only [SearchState.steppedBack, Array.getElem?_pop] at hcandidate ⊢
    rw [if_pos (by omega), hentry] at hcandidate
    rw [hbuffer]
    exact congrArg some (Nat.succ.inj (Option.some.inj hcandidate))

private theorem LastValues.tested (h : LastValues machine state)
    (hinv : StackInvariant machine state) (hvalue : machine.nextValue? state = some value) :
    LastValues machine (machine.tested state value) where
  behind := by
    intro v size hlt hle hsize hpos
    rw [← h.behind v size hlt hle hsize hpos]
    exact Array.getElem?_setIfInBounds_ne (Nat.ne_of_lt hlt)
  inTurn := by
    intro tried hcandidate
    obtain ⟨-, size, hsize, -⟩ := nextValue?_eq_some hvalue
    have hlt : state.frontier < state.buffer.size := by
      rw [hinv.buffer_size]
      exact (Array.getElem?_eq_some_iff.1 hsize).1
    have hcount := hinv.candidates_size
    simp only [Machine.tested, assign] at hcandidate ⊢
    rw [Array.getElem?_setIfInBounds_self_of_lt (by omega)] at hcandidate
    rw [Array.getElem?_setIfInBounds_self_of_lt hlt]
    exact congrArg some (Nat.succ.inj (Option.some.inj hcandidate))

private theorem LastValues.descended (h : LastValues machine state)
    (hinv : StackInvariant machine state) : LastValues machine (machine.descended state value) where
  behind := by
    intro v size hlt hle hsize hpos
    simp only [Machine.descended] at hlt hle
    rw [← h.behind v size (by omega) (by omega) hsize hpos]
    exact Array.getElem?_setIfInBounds_ne (by omega)
  inTurn := by
    intro tried hcandidate
    have hstart := hinv.start_le
    have hcount : (machine.assign state value).candidates.size =
        state.frontier - machine.start + 1 :=
      (Array.size_setIfInBounds ..).trans hinv.candidates_size
    simp only [Machine.descended, Array.getElem?_push] at hcandidate
    rw [if_pos (by omega)] at hcandidate
    exact absurd (Option.some.inj hcandidate) (Nat.succ_ne_zero tried).symm

/-- When all candidates were tried, every variable that was reached holds the last value of its
domain. -/
theorem StackInvariant.lastValue_of_exhausted (hinv : StackInvariant machine state)
    (h : LastValues machine state) (hending : (machine.run state).ending = .ok .exhausted)
    (hreason : ∀ nodes memory, machine.interruption? nodes memory ≠ some .exhausted) {v : Nat}
    (hstart : machine.start ≤ v) (hle : v ≤ (machine.run state).state.maxDepth)
    (hsize : machine.domains[v]? = some size) (hpos : 0 < size) :
    (machine.run state).state.buffer[v]? = some (size - 1) := by
  obtain ⟨last, hlast, hvalues, hended⟩ :=
    run_induction (motive := fun _ later => LastValues machine later)
      (fun _ _ hinv hstart _ hvalue h => h.back hinv hstart hvalue)
      (fun _ _ _ hinv hvalue _ _ h => h.tested hinv hvalue)
      (fun _ _ _ hinv _ _ _ h => h.descended hinv) hinv h hending
  generalize (machine.run state).state = final at hended hle ⊢
  cases hended with
  | exhausted _ hfrontier hvalue =>
      by_cases hown : v = last.frontier
      · subst hown
        exact hvalues.of_spent hlast hvalue hsize hpos
      · exact hvalues.behind v size (by omega) hle hsize hpos
  | interrupted _ _ _ hinterrupted => exact absurd hinterrupted (hreason _ _)

/-- A run that is broken off is so by the test of the value that was written last. -/
theorem StackInvariant.exists_test_of_broken (hinv : StackInvariant machine state) {fault : Fault}
    (hending : (machine.run state).ending = .error fault) :
    ∃ last value, (machine.probe last value).answer = .error fault ∧
      (machine.run state).state = machine.tested last value := by
  obtain ⟨-, last, -, -, -, hturn⟩ :=
    course_induction (motive := fun _ _ => True) (fun _ _ _ _ _ _ _ => trivial)
      (fun _ _ _ _ _ _ _ _ => trivial) (fun _ _ _ _ _ _ _ _ => trivial) hinv trivial
  generalize machine.run state = ended at hending hturn ⊢
  cases hturn with
  | ended status final _ => cases hending
  | broken value other _ _ hanswer =>
      obtain rfl : other = fault := Except.error.inj hending
      exact ⟨last, value, hanswer, rfl⟩

end Machine

/-! ## Checkers that give up -/

namespace Problem

variable {problem : Problem σ κ} {context : κ} {assignment : Array Nat} {frontier : Nat}
  {fault : Fault}

/-- If a scan meets a fault, its last call did, under the assignment that is scanned. -/
theorem call_of_scan_error (hvalid : problem.flaw? = none) {memory : Recorded σ}
    (hanswer : (problem.recording.scan assignment context frontier memory).answer = .error fault) :
    ∃ earlier slot constraint before,
      (problem.recording.scan assignment context frontier memory).memory.calls =
          earlier ++ [⟨slot, assignment⟩] ∧
        problem.slots[slot]? = some (some constraint) ∧
        constraint.check assignment context before = .error fault
          (problem.recording.scan assignment context frontier memory).memory.own := by
  -- The constraint that stops the scan is asked last, with the memory that the others have left.
  rw [scan, scanFrom_recording] at hanswer ⊢
  dsimp only
  obtain ⟨slot, constraint, after, hfirst, hslot, happlicable, hcheck⟩ :=
    exists_gaveUp (none_notMem_of_valid hvalid) hanswer
  have hset : problem.applicableAt? frontier slot = some constraint :=
    applicableAt?_eq_some_iff.2 ⟨hslot, happlicable⟩
  have hreach : problem.reach assignment context frontier memory.own = slot + 1 := by
    rw [reach, hfirst]
    rfl
  have hown : (problem.scanFrom assignment context frontier 0 0 memory.own).memory = after := by
    rw [scanFrom_eq, hreach]
    simp only [memoryAfter_succ, hset, Constraint.memoryAfter, hcheck]
  refine ⟨memory.calls ++ problem.callsBelow assignment frontier slot, slot, constraint,
    problem.memoryAfter assignment context frontier memory.own slot, ?_, hslot, ?_⟩
  · rw [hreach, callsBelow_succ, hset, List.append_assoc]
    rfl
  · rw [hown]
    exact hcheck

end Problem

/-! ## Sessions -/

/-- A search changes neither the problems of a session nor its constraints. -/
theorem Session.step_search {τ : Type} (build : Build) (session : Session τ κ) (p : Nat)
    (order : SearchOrder κ) {operation : Operation τ κ}
    (hoperation : operation = .search p order ∨ operation = .solve p order) :
    (session.step build operation).2.problems = session.problems ∧
      (session.step build operation).2.constraints = session.constraints := by
  have hkeeps : (SessionStep.perform operation).KeepsHoldings := by
    rcases hoperation with rfl | rfl
    · exact SessionStep.keepsHoldings_perform rfl
    · exact SessionStep.keepsHoldings_perform rfl
  let cleared : Session τ κ :=
    { session with
      library := { session.library with log := #[] }
      memory := session.memory.forgetCalls }
  have hleft : (session.step build operation).2 =
      SessionStep.left (SessionStep.perform operation build cleared) := by
    simp only [step]
    cases SessionStep.perform operation build cleared <;> rfl
  rw [hleft]
  exact hkeeps build cleared

/-! ## Whole searches -/

namespace Search

variable {search : Search σ κ} {buffer : Array Nat} {build : Build} {library : Library}

theorem initial_lastValues (search : Search σ κ) (buffer : Array Nat) (memory : σ)
    (log : Array Message) : search.machine.LastValues (search.initial buffer memory log) where
  behind := by
    intro v size hlt hle
    exact absurd hlt (Nat.not_lt.2 hle)
  inTurn := by
    intro value hcandidate
    simp [initial, machine] at hcandidate

/-- After all candidates were tried, a slot holds the last value of its domain if it was reached and
there is one, and otherwise what it held before. -/
theorem Ready.getElem?_of_exhausted (hready : search.Ready buffer build library) {memory : σ}
    (hending : (search.run buffer memory library.log).ending = .ok .exhausted) {v size : Nat}
    (hsize : search.problem.domains[v]? = some size) :
    (search.perform buffer memory build library).buffer[v]? =
      if search.start ≤ v ∧ v ≤ (search.run buffer memory library.log).state.maxDepth ∧ 0 < size
        then some (size - 1) else buffer[v]? := by
  by_cases hreached : search.start ≤ v ∧
      v ≤ (search.run buffer memory library.log).state.maxDepth ∧ 0 < size
  · obtain ⟨hstart, hle, hpos⟩ := hreached
    have hreason : ∀ nodes memory, search.machine.interruption? nodes memory ≠ some .exhausted :=
      fun _ _ hreason => (status_of_interruption? hreason).2 rfl
    rw [if_pos ⟨hstart, hle, hpos⟩, hready.buffer_perform]
    exact (hready.stackInvariant memory library.log).lastValue_of_exhausted
      (search.initial_lastValues buffer memory library.log) hending hreason hstart hle hsize hpos
  · rw [if_neg hreached]
    apply hready.getElem?_of_unwritten
    intro value hwrite
    obtain ⟨hstart, hle, size', hsize', hless⟩ := hready.mem_writes hwrite
    obtain rfl : size' = size := Option.some.inj (hsize'.symm.trans hsize)
    exact hreached ⟨hstart, hle, Nat.zero_lt_of_lt hless⟩

private theorem ending_of_report_error {activations : Nat} {ended : Machine.Ended σ} {fault : Fault}
    (hfault : (search.report activations ended).outcome = .error fault) :
    ended.ending = .error fault := by
  obtain ⟨ending, state⟩ := ended
  cases ending with
  | ok status => cases hfault
  | error other =>
      cases hfault
      rfl

/-- If a checker gives up, its call is the last one of the search, and the buffer stays as this call
was given it. -/
theorem Ready.call_of_fault (hready : search.Ready buffer build library) {memory : σ}
    {fault : Fault} (hfault : (search.perform buffer memory build library).outcome = .error fault) :
    ∃ earlier call constraint before,
      (search.recording.perform buffer { own := memory } build library).memory.calls =
          earlier ++ [call] ∧
        search.problem.slots[call.slot]? = some (some constraint) ∧
        constraint.check call.buffer search.context before =
          .error fault (search.perform buffer memory build library).memory ∧
        (search.perform buffer memory build library).buffer = call.buffer := by
  have hinv := hready.recording.stackInvariant { own := memory } library.log
  rw [← search.perform_recording buffer memory build library, hready.recording.perform_eq] at hfault ⊢
  have hending : (search.recording.run buffer { own := memory } library.log).ending =
      .error fault := ending_of_report_error hfault
  -- The run was broken off by a test, and a scan that ends in a fault has it from its last call.
  obtain ⟨last, value, hanswer, hstate⟩ := hinv.exists_test_of_broken hending
  have hstate' : (search.recording.run buffer { own := memory } library.log).state =
      search.recording.machine.tested last value := hstate
  obtain ⟨earlier, slot, constraint, before, hcalls, hslot, hcheck⟩ :=
    Problem.call_of_scan_error hready.problem hanswer
  refine ⟨earlier, ⟨slot, (search.recording.machine.assign last value).buffer⟩, constraint, before,
    ?_, hslot, ?_, ?_⟩
  · rw [memory_report, hstate']
    exact hcalls
  · simp only [Report.map, memory_report, hstate']
    exact hcheck
  · simp only [Report.map, buffer_report, hstate']
    rfl

/-- **What a search leaves.**  Let the search begin; its checkers, its limits and its flag may do what
they like.  However it ends, be it with any status or because a checker gives up, the slots below
the start and those above the greatest depth keep the caller's values, as does every other slot that
is not written, and a slot that is written holds a value of its domain.

If all candidates were tried, a slot between the start and the greatest depth holds the last value of
its domain, unless this is empty, and all other slots keep their values.  If a checker gives up, the
buffer is the one that this last of all calls was given.

The problem is only read: a session that carries out a search has the same problems and constraints
afterwards. -/
theorem perform_leaves (hready : search.Ready buffer build library) (memory : σ) :
    let report := search.perform buffer memory build library
    let noting := search.recording.perform buffer { own := memory } build library
    let writes := search.writes buffer memory library.log
    let deepest := (search.run buffer memory library.log).state.maxDepth
    (report.buffer.size = buffer.size ∧
      (∀ v, v < search.start ∨ deepest < v → report.buffer[v]? = buffer[v]?) ∧
      (∀ v, (∀ value, (v, value) ∉ writes) → report.buffer[v]? = buffer[v]?) ∧
      ∀ v value, (v, value) ∈ writes → ∃ last size, report.buffer[v]? = some last ∧
        search.problem.domains[v]? = some size ∧ last < size) ∧
    (∀ result, report.outcome = .ok result → result.stats.maxDepth = deepest ∧
      (result.status = .exhausted → ∀ v size, search.problem.domains[v]? = some size →
        report.buffer[v]? =
          if search.start ≤ v ∧ v ≤ result.stats.maxDepth ∧ 0 < size then some (size - 1)
          else buffer[v]?)) ∧
    (∀ fault, report.outcome = .error fault → noting.map Recorded.own = report ∧
      ∃ earlier call constraint before, noting.memory.calls = earlier ++ [call] ∧
        search.problem.slots[call.slot]? = some (some constraint) ∧
        constraint.check call.buffer search.context before = .error fault report.memory ∧
        report.buffer = call.buffer) ∧
    ∀ (τ : Type) (session : Session τ κ) (p : Nat) (order : SearchOrder κ)
      (operation : Operation τ κ), operation = .search p order ∨ operation = .solve p order →
      (session.step build operation).2.problems = session.problems ∧
        (session.step build operation).2.constraints = session.constraints := by
  intro report noting writes deepest
  refine ⟨⟨?_, ?_, ?_, ?_⟩, ?_, ?_, ?_⟩
  · exact search.size_buffer_perform buffer memory build library
  · intro v houtside
    exact hready.getElem?_of_outside houtside
  · intro v hunwritten
    exact hready.getElem?_of_unwritten hunwritten
  · intro v value hwrite
    exact hready.getElem?_of_written hwrite
  · intro result hresult
    obtain ⟨hending, hstats⟩ := hready.ending_of_outcome hresult
    have hdepth : result.stats.maxDepth = deepest := congrArg Stats.maxDepth hstats
    refine ⟨hdepth, ?_⟩
    intro hstatus v size hsize
    rw [hdepth]
    exact hready.getElem?_of_exhausted (hending.trans (congrArg Except.ok hstatus)) hsize
  · intro fault hfault
    exact ⟨search.perform_recording buffer memory build library, hready.call_of_fault hfault⟩
  · intro τ session p order operation hoperation
    exact session.step_search build p order hoperation

/-- Three variables, the last without values.  The context tells whether the checker of the second
one gives up when this is 1 and the first one is too. -/
def blocked : Search Unit Bool where
  problem :=
    { domains := #[2, 3, 0]
      slots := #[some
        { scope := [0, 1]
          checker := .ofPure 0 fun _ assignment givesUp =>
            if givesUp && assignment[0]? == some 1 && assignment[1]? == some 1 then
              .error (.gaveUp "enough")
            else .ok true }] }
  context := false

/-- When there is nothing left to try, the first two variables have their last values, and the third
one keeps what the caller left there.  When the checker gives up, the buffer is that of its call. -/
theorem perform_leaves_blocked :
    let report := blocked.perform #[8, 8, 8] () .unchecked {}
    let broken := { blocked with context := true }
    let report' := broken.perform #[8, 8, 8] () .unchecked {}
    (blocked.Ready #[8, 8, 8] .unchecked {} ∧ broken.Ready #[8, 8, 8] .unchecked {}) ∧
      (report.buffer[0]? = some 1 ∧ report.buffer[1]? = some 2 ∧ report.buffer[2]? = some 8) ∧
      ∃ call : Call, report'.buffer = call.buffer ∧ call.buffer = #[1, 1, 8] := by
  intro report broken report'
  have hready : blocked.Ready #[8, 8, 8] .unchecked {} := ⟨by decide, rfl, rfl, rfl, by decide⟩
  have hready' : broken.Ready #[8, 8, 8] .unchecked {} := ⟨by decide, rfl, rfl, rfl, by decide⟩
  have hoption : report.outcome.toOption = some ⟨.exhausted, ⟨8, 6, 8, 2, 0⟩⟩ := by decide +kernel
  obtain ⟨fault, hfault⟩ : ∃ fault, report'.outcome = .error fault := by
    have hnone : report'.outcome.toOption = none := by decide +kernel
    cases houtcome : report'.outcome with
    | ok result =>
        rw [houtcome] at hnone
        cases hnone
    | error fault => exact ⟨fault, rfl⟩
  obtain ⟨-, hstatus, -, -⟩ := perform_leaves hready ()
  obtain ⟨-, hlast⟩ := hstatus _ (outcome_of_toOption hoption)
  obtain ⟨-, -, hbroken, -⟩ := perform_leaves hready' ()
  obtain ⟨-, -, call, -, -, -, -, -, hbuffer⟩ := hbroken fault hfault
  refine ⟨⟨hready, hready'⟩, ⟨hlast rfl 0 2 rfl, hlast rfl 1 3 rfl, hlast rfl 2 0 rfl⟩, call, hbuffer,
    ?_⟩
  rw [← hbuffer]
  decide +kernel

end Search

end ConstraintSearch
