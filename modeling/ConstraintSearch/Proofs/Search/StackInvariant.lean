import ConstraintSearch.Search.Report

/-!
# The stack between two turns

Between two turns the stack has one entry for every bound variable, which is one more than its
value, and one for the variable in turn, which is at most the size of its domain.  From this,
`StackInvariant.turnCase` reads off that a turn ends the search as solved, steps back, is
interrupted or tries a value, and nothing else: none of the reads of `Machine.step` misses.

Each move keeps the invariant (`StackInvariant.step`):

* a step back removes the topmost entry, and the one below it, for a bound variable, becomes the
  entry of the variable in turn;
* an attempt increases the topmost entry, which was below the size of the domain;
* an attempt that succeeds puts a zero on top.
-/

namespace ConstraintSearch

namespace Machine

variable {σ : Type} {machine : Machine σ} {state next : SearchState σ}

/-- What holds of a state between two turns. -/
structure StackInvariant (machine : Machine σ) (state : SearchState σ) : Prop where
  start_le : machine.start ≤ state.frontier
  frontier_le : state.frontier ≤ machine.domains.size
  buffer_size : state.buffer.size = machine.domains.size
  candidates_size : state.candidates.size = state.frontier - machine.start + 1
  bound : ∀ i, machine.start ≤ i → i < state.frontier →
    ∃ value size, state.buffer[i]? = some value ∧ machine.domains[i]? = some size ∧
      value < size ∧ state.candidates[i - machine.start]? = some (value + 1)
  inTurn : ∀ size, machine.domains[state.frontier]? = some size →
    ∃ value ≤ size, state.candidates[state.frontier - machine.start]? = some value

/-- The next value of the variable in turn, unless it has run out of candidates. -/
def nextValue? (machine : Machine σ) (state : SearchState σ) : Option Nat :=
  match state.candidates[state.frontier - machine.start]?, machine.domains[state.frontier]? with
  | some value, some size => if value < size then some value else none
  | _, _ => none

/-! ## What a turn can be -/

/-- The kinds of turns. -/
inductive TurnCase (machine : Machine σ) (state : SearchState σ) : Prop where
  /-- Every variable is bound. -/
  | solved (hfrontier : state.frontier = machine.domains.size)
      (hvalue : machine.nextValue? state = none)
      (hstep : machine.step state = .ended .solved state)
  /-- The variable in turn has run out of candidates. -/
  | back (hfrontier : state.frontier < machine.domains.size)
      (hvalue : machine.nextValue? state = none)
      (hstep : machine.step state = machine.stepBack state)
  /-- There is a candidate left and a reason to stop. -/
  | interrupted (value : Nat) (status : Status)
      (hvalue : machine.nextValue? state = some value)
      (hreason : machine.interruption? state.nodes state.memory = some status)
      (hstep : machine.step state = .ended status state)
  /-- There is a candidate left, and it is tried. -/
  | tried (value : Nat)
      (hvalue : machine.nextValue? state = some value)
      (hreason : machine.interruption? state.nodes state.memory = none)
      (hstep : machine.step state = machine.tryValue state value)

theorem nextValue?_eq_some {value : Nat} (hvalue : machine.nextValue? state = some value) :
    state.candidates[state.frontier - machine.start]? = some value ∧
      ∃ size, machine.domains[state.frontier]? = some size ∧ value < size := by
  unfold nextValue? at hvalue
  split at hvalue
  · rename_i candidate size hcandidate hsize
    split at hvalue
    · rename_i hlt
      injection hvalue with hvalue
      subst hvalue
      exact ⟨hcandidate, size, hsize, hlt⟩
    · cases hvalue
  · cases hvalue

theorem tryValue_ne_ended {value : Nat} {status : Status} {last : SearchState σ} :
    machine.tryValue state value ≠ .ended status last := by
  intro h
  simp only [tryValue] at h
  split at h <;> cases h

theorem stepBack_ne_broken {fault : Fault} {last : SearchState σ} :
    machine.stepBack state ≠ .broken fault last := by
  intro h
  simp only [stepBack] at h
  split at h <;> cases h

theorem status_of_stepBack_ended {status : Status} {last : SearchState σ}
    (hlast : machine.stepBack state = .ended status last) : status = .exhausted := by
  simp only [stepBack] at hlast
  split at hlast
  · injection hlast with hstatus
    exact hstatus.symm
  · cases hlast

/-- A state that keeps the invariant allows only the four kinds of turns. -/
theorem StackInvariant.turnCase (hinv : StackInvariant machine state) :
    TurnCase machine state := by
  rcases Nat.lt_or_eq_of_le hinv.frontier_le with hlt | heq
  · have hsize : machine.domains[state.frontier]? = some machine.domains[state.frontier] :=
      Array.getElem?_eq_getElem hlt
    obtain ⟨value, hle, hcandidate⟩ := hinv.inTurn _ hsize
    have hnot : ¬ state.frontier < machine.start := Nat.not_lt.2 hinv.start_le
    have hbuffer : state.frontier < state.buffer.size := hinv.buffer_size ▸ hlt
    have hne : state.frontier ≠ machine.domains.size := Nat.ne_of_lt hlt
    rcases Nat.lt_or_ge value machine.domains[state.frontier] with hleft | hgone
    · have hvalue : machine.nextValue? state = some value := by
        simp only [nextValue?, hcandidate, hsize, if_pos hleft]
      cases hreason : machine.interruption? state.nodes state.memory with
      | some status =>
          refine .interrupted value status hvalue hreason ?_
          simp only [step, hne, hnot, hcandidate, hsize, hreason, Nat.not_le.2 hleft, if_false]
      | none =>
          refine .tried value hvalue hreason ?_
          simp only [step, hne, hnot, hcandidate, hsize, hreason, Nat.not_le.2 hleft, if_false,
            if_pos hbuffer]
    · refine .back hlt ?_ ?_
      · simp only [nextValue?, hcandidate, hsize, if_neg (Nat.not_lt.2 hgone)]
      · simp only [step, hne, hnot, hcandidate, hsize, if_false, if_pos hgone]
  · refine .solved heq ?_ ?_
    · have hnone : machine.domains[state.frontier]? = none := by
        rw [heq]
        exact Array.getElem?_size
      unfold nextValue?
      rw [hnone]
      cases state.candidates[state.frontier - machine.start]? <;> rfl
    · simp only [step, if_pos heq]

theorem StackInvariant.step_of_spent (hinv : StackInvariant machine state)
    (hlt : state.frontier < machine.domains.size) (hvalue : machine.nextValue? state = none) :
    machine.step state = machine.stepBack state := by
  cases hinv.turnCase with
  | solved hfrontier => exact absurd hfrontier (Nat.ne_of_lt hlt)
  | back _ _ hstep => exact hstep
  | interrupted _ _ hsome => cases hvalue.symm.trans hsome
  | tried _ hsome => cases hvalue.symm.trans hsome

theorem StackInvariant.step_of_reason (hinv : StackInvariant machine state) {value : Nat}
    {status : Status} (hvalue : machine.nextValue? state = some value)
    (hreason : machine.interruption? state.nodes state.memory = some status) :
    machine.step state = .ended status state := by
  cases hinv.turnCase with
  | solved _ hnone => cases hnone.symm.trans hvalue
  | back _ hnone => cases hnone.symm.trans hvalue
  | interrupted _ other _ hother hstep =>
      cases hreason.symm.trans hother
      exact hstep
  | tried _ _ hfree => cases hfree.symm.trans hreason

theorem StackInvariant.step_of_free (hinv : StackInvariant machine state) {value : Nat}
    (hvalue : machine.nextValue? state = some value)
    (hfree : machine.interruption? state.nodes state.memory = none) :
    machine.step state = machine.tryValue state value := by
  cases hinv.turnCase with
  | solved _ hnone => cases hnone.symm.trans hvalue
  | back _ hnone => cases hnone.symm.trans hvalue
  | interrupted _ _ _ hreason => cases hfree.symm.trans hreason
  | tried other hother _ hstep =>
      cases hvalue.symm.trans hother
      exact hstep

theorem StackInvariant.onward_cases (hinv : StackInvariant machine state)
    (hnext : machine.step state = .onward next) :
    (state.frontier < machine.domains.size ∧ machine.nextValue? state = none ∧
        machine.stepBack state = .onward next) ∨
      ∃ value, machine.nextValue? state = some value ∧
        machine.interruption? state.nodes state.memory = none ∧
        machine.tryValue state value = .onward next := by
  cases hinv.turnCase with
  | solved _ _ hstep => cases hstep.symm.trans hnext
  | back hlt hvalue hstep => exact .inl ⟨hlt, hvalue, hstep.symm.trans hnext⟩
  | interrupted _ _ _ _ hstep => cases hstep.symm.trans hnext
  | tried value hvalue hreason hstep =>
      exact .inr ⟨value, hvalue, hreason, hstep.symm.trans hnext⟩

theorem StackInvariant.ended_cases (hinv : StackInvariant machine state) {status : Status}
    {last : SearchState σ} (hlast : machine.step state = .ended status last) :
    (machine.nextValue? state = none ∧ status = .solved ∧ last = state) ∨
      (machine.nextValue? state = none ∧ machine.stepBack state = .ended status last) ∨
      ∃ value, machine.nextValue? state = some value ∧
        machine.interruption? state.nodes state.memory = some status ∧ last = state := by
  cases hinv.turnCase with
  | solved _ hvalue hstep =>
      cases hstep.symm.trans hlast
      exact .inl ⟨hvalue, rfl, rfl⟩
  | back _ hvalue hstep => exact .inr (.inl ⟨hvalue, hstep.symm.trans hlast⟩)
  | interrupted value _ hvalue hreason hstep =>
      cases hstep.symm.trans hlast
      exact .inr (.inr ⟨value, hvalue, hreason, rfl⟩)
  | tried _ _ _ hstep => exact absurd (hstep.symm.trans hlast) tryValue_ne_ended

theorem StackInvariant.broken_cases (hinv : StackInvariant machine state) {fault : Fault}
    {last : SearchState σ} (hlast : machine.step state = .broken fault last) :
    ∃ value, machine.nextValue? state = some value ∧
      machine.interruption? state.nodes state.memory = none ∧
      machine.tryValue state value = .broken fault last := by
  cases hinv.turnCase with
  | solved _ _ hstep => cases hstep.symm.trans hlast
  | back _ _ hstep => exact absurd (hstep.symm.trans hlast) stepBack_ne_broken
  | interrupted _ _ _ _ hstep => cases hstep.symm.trans hlast
  | tried value hvalue hreason hstep => exact ⟨value, hvalue, hreason, hstep.symm.trans hlast⟩

/-! ## Turns keep the invariant -/

theorem StackInvariant.size_assign (hinv : StackInvariant machine state) (value : Nat) :
    (machine.assign state value).buffer.size = machine.domains.size :=
  (Array.size_setIfInBounds ..).trans hinv.buffer_size

private theorem StackInvariant.stepBack (hinv : StackInvariant machine state)
    (hlt : state.frontier < machine.domains.size)
    (hnext : machine.stepBack state = .onward next) : StackInvariant machine next := by
  simp only [Machine.stepBack] at hnext
  split at hnext
  · cases hnext
  · rename_i hne
    injection hnext with hnext
    subst hnext
    have hstart : machine.start < state.frontier :=
      Nat.lt_of_le_of_ne hinv.start_le (Ne.symm hne)
    refine ⟨?_, ?_, hinv.buffer_size, ?_, ?_, ?_⟩
    · show machine.start ≤ state.frontier - 1
      omega
    · show state.frontier - 1 ≤ machine.domains.size
      omega
    · have hsize := hinv.candidates_size
      simp only [Array.size_pop]
      omega
    · intro i hi hfrontier
      simp only at hfrontier
      obtain ⟨value, size, hvalue, hsize, hless, hcandidate⟩ := hinv.bound i hi (by omega)
      refine ⟨value, size, hvalue, hsize, hless, ?_⟩
      have hcount := hinv.candidates_size
      simp only [Array.getElem?_pop]
      rw [if_pos (by omega), hcandidate]
    · intro size hsize
      obtain ⟨value, size', -, hsize', hless, hcandidate⟩ :=
        hinv.bound (state.frontier - 1) (by omega) (by omega)
      have heq : size' = size := Option.some.inj (hsize'.symm.trans hsize)
      refine ⟨value + 1, by omega, ?_⟩
      have hcount := hinv.candidates_size
      simp only [Array.getElem?_pop]
      rw [if_pos (by omega), hcandidate]

private theorem StackInvariant.assign (hinv : StackInvariant machine state) {value : Nat}
    (hvalue : machine.nextValue? state = some value) :
    StackInvariant machine (machine.assign state value) := by
  obtain ⟨hcandidate, size, hsize, hless⟩ := nextValue?_eq_some hvalue
  have hcount := hinv.candidates_size
  refine ⟨hinv.start_le, hinv.frontier_le, ?_, ?_, ?_, ?_⟩
  · simpa [Machine.assign] using hinv.buffer_size
  · simpa [Machine.assign] using hcount
  · -- The write goes to the slot in turn, and the bound variables are before it.
    intro i hi hfrontier
    simp only [Machine.assign] at hfrontier ⊢
    obtain ⟨old, size', hold, hsize', hlt, hentry⟩ := hinv.bound i hi hfrontier
    refine ⟨old, size', ?_, hsize', hlt, ?_⟩
    · rw [Array.getElem?_setIfInBounds_ne (by omega), hold]
    · rw [Array.getElem?_setIfInBounds_ne (by omega), hentry]
  · intro size' hsize'
    simp only [Machine.assign] at hsize' ⊢
    have heq : size' = size := Option.some.inj (hsize'.symm.trans hsize)
    refine ⟨value + 1, by omega, ?_⟩
    rw [Array.getElem?_setIfInBounds_self_of_lt (by omega)]

/-- What the next frontier needs, once the variable in turn has taken a value. -/
private theorem StackInvariant.push (hinv : StackInvariant machine state) {value : Nat}
    (hvalue : machine.nextValue? state = some value) {next : SearchState σ}
    (hfrontier : next.frontier = state.frontier + 1)
    (hbuffer : next.buffer = (machine.assign state value).buffer)
    (hcandidates : next.candidates = (machine.assign state value).candidates.push 0) :
    StackInvariant machine next := by
  obtain ⟨-, size, hsize, hless⟩ := nextValue?_eq_some hvalue
  have hlt : state.frontier < machine.domains.size := (Array.getElem?_eq_some_iff.1 hsize).1
  have hinv' := hinv.assign hvalue
  have hcount := hinv.candidates_size
  have hcount' : (machine.assign state value).candidates.size
      = state.frontier - machine.start + 1 := by simpa [Machine.assign] using hcount
  have hstart := hinv.start_le
  refine ⟨by omega, by omega, ?_, ?_, ?_, ?_⟩
  · rw [hbuffer, hinv'.buffer_size]
  · rw [hcandidates, Array.size_push, hcount']
    omega
  · intro i hi hle
    rw [hbuffer, hcandidates]
    -- Only the entry of the variable that has just taken a value is new.
    rcases Nat.lt_or_eq_of_le (Nat.le_of_lt_succ (hfrontier ▸ hle)) with hbelow | rfl
    · obtain ⟨old, size', hold, hsize', hless', hentry⟩ := hinv'.bound i hi hbelow
      refine ⟨old, size', hold, hsize', hless', ?_⟩
      rw [Array.getElem?_push, if_neg (by omega), hentry]
    · refine ⟨value, size, ?_, hsize, hless, ?_⟩
      · simp only [Machine.assign]
        rw [Array.getElem?_setIfInBounds_self_of_lt (hinv.buffer_size ▸ hlt)]
      · rw [Array.getElem?_push, if_neg (by omega)]
        simp only [Machine.assign]
        rw [Array.getElem?_setIfInBounds_self_of_lt (by omega)]
  · intro size' _
    refine ⟨0, Nat.zero_le _, ?_⟩
    rw [hcandidates, Array.getElem?_push, if_pos (by omega)]

private theorem StackInvariant.tryValue (hinv : StackInvariant machine state) {value : Nat}
    (hvalue : machine.nextValue? state = some value)
    (hnext : machine.tryValue state value = .onward next) : StackInvariant machine next := by
  simp only [Machine.tryValue] at hnext
  split at hnext
  · cases hnext
  · injection hnext with hnext
    subst hnext
    have hinv' := hinv.assign hvalue
    exact ⟨hinv'.start_le, hinv'.frontier_le, hinv'.buffer_size, hinv'.candidates_size,
      hinv'.bound, hinv'.inTurn⟩
  · injection hnext with hnext
    subst hnext
    exact hinv.push hvalue rfl rfl rfl

/-- A turn that leads onward keeps the invariant. -/
theorem StackInvariant.step (hinv : StackInvariant machine state)
    (hnext : machine.step state = .onward next) : StackInvariant machine next := by
  rcases hinv.onward_cases hnext with ⟨hlt, -, hback⟩ | ⟨value, hvalue, -, htry⟩
  · exact hinv.stepBack hlt hback
  · exact hinv.tryValue hvalue htry

/-! ## How a run ends -/

/-- The test meets no fault, whatever it is asked and whatever its memory holds. -/
def Steady (machine : Machine σ) : Prop :=
  ∀ assignment frontier memory, assignment.size = machine.domains.size →
    ∃ accepted, (machine.test assignment frontier memory).answer = .ok accepted

/-- A run is broken off by its test only. -/
theorem StackInvariant.exists_status (hinv : StackInvariant machine state)
    (hsteady : machine.Steady) : ∃ status, (machine.run state).ending = .ok status := by
  induction state using Machine.run.induct machine with
  | case1 state next hnext ih =>
      rw [run_of_onward hnext]
      exact ih (hinv.step hnext)
  | case2 state status last hlast =>
      rw [run_of_ended hlast]
      exact ⟨status, rfl⟩
  | case3 state fault last hlast =>
      obtain ⟨value, hvalue, -, hbroken⟩ := hinv.broken_cases hlast
      obtain ⟨accepted, hanswer⟩ := hsteady (machine.assign state value).buffer
        (state.frontier + 1) state.memory (hinv.assign hvalue).buffer_size
      simp only [Machine.tryValue, Machine.assign] at hbroken hanswer
      rw [hanswer] at hbroken
      cases accepted <;> cases hbroken

/-- A run ends as solved, as exhausted, or for a reason to stop. -/
theorem StackInvariant.status_run (hinv : StackInvariant machine state) {status : Status}
    (hstatus : (machine.run state).ending = .ok status) :
    status = .solved ∨ status = .exhausted ∨
      ∃ nodes memory, machine.interruption? nodes memory = some status := by
  induction state using Machine.run.induct machine with
  | case1 state next hnext ih =>
      rw [run_of_onward hnext] at hstatus
      exact ih (hinv.step hnext) hstatus
  | case2 state status' last hlast =>
      rw [run_of_ended hlast] at hstatus
      injection hstatus with hstatus
      subst hstatus
      -- Only the last turn says anything about the status.
      rcases hinv.ended_cases hlast with ⟨-, hsolved, -⟩ | ⟨-, hback⟩ | ⟨value, -, hreason, -⟩
      · exact .inl hsolved
      · exact .inr (.inl (status_of_stepBack_ended hback))
      · exact .inr (.inr ⟨_, _, hreason⟩)
  | case3 state fault last hlast =>
      rw [run_of_broken hlast] at hstatus
      cases hstatus

end Machine

theorem Search.initial_stackInvariant {σ κ : Type} (search : Search σ κ) {buffer : Array Nat}
    (hlength : buffer.size = search.problem.domains.size)
    (hstart : search.start ≤ search.problem.domains.size) (memory : σ) (log : Array Message) :
    search.machine.StackInvariant (search.initial buffer memory log) where
  start_le := Nat.le_refl _
  frontier_le := hstart
  buffer_size := hlength
  candidates_size := by simp [initial, machine]
  bound := by
    intro i hi hlt
    exact absurd hlt (Nat.not_lt.2 hi)
  inTurn := by
    intro size _
    exact ⟨0, Nat.zero_le _, by simp [initial, machine]⟩

end ConstraintSearch
