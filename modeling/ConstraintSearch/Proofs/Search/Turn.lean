import ConstraintSearch.Proofs.Search.StackInvariant

/-!
# Turn by turn

A turn goes on in one of three ways: it steps back, or it tries a value that the test rejects, or
one that the test accepts.  And the search ends in one of three ways: all variables are bound, or
the first one has run out of candidates, or there is a reason to stop.  `Onward` and `Ending` list
these with the states they lead to, and between two turns there is nothing else
(`step_eq_onward_iff`, `step_eq_ended_iff`), unless the test breaks the search off
(`broken_by_test`).
-/

namespace ConstraintSearch

variable {σ : Type}

/-- The state after a step back. -/
def SearchState.steppedBack (state : SearchState σ) : SearchState σ :=
  { state with
    candidates := state.candidates.pop
    frontier := state.frontier - 1
    backtracks := state.backtracks + 1
    log := state.log.push (.steppedBack (state.frontier - 1)) }

namespace Machine

variable {machine : Machine σ} {state next last : SearchState σ} {value : Nat} {status : Status}

/-- What the test finds when the variable in turn takes a value. -/
def probe (machine : Machine σ) (state : SearchState σ) (value : Nat) : Scan σ :=
  machine.test (machine.assign state value).buffer (state.frontier + 1) state.memory

/-- The state after the test of a value. -/
def tested (machine : Machine σ) (state : SearchState σ) (value : Nat) : SearchState σ :=
  { machine.assign state value with
    checks := state.checks + (machine.probe state value).calls
    memory := (machine.probe state value).memory }

/-- The state after a value is accepted: the next variable is in turn. -/
def descended (machine : Machine σ) (state : SearchState σ) (value : Nat) : SearchState σ :=
  { machine.tested state value with
    frontier := state.frontier + 1
    candidates := (machine.assign state value).candidates.push 0
    maxDepth := max state.maxDepth (state.frontier + 1) }

/-- The ways to go on, with the states they lead to. -/
inductive Onward (machine : Machine σ) (state : SearchState σ) : SearchState σ → Prop where
  /-- The variable in turn has run out of candidates. -/
  | back (hlt : state.frontier < machine.domains.size) (hstart : machine.start < state.frontier)
      (hvalue : machine.nextValue? state = none) : Onward machine state state.steppedBack
  /-- A value is tried and rejected. -/
  | rejected (value : Nat) (hvalue : machine.nextValue? state = some value)
      (hfree : machine.interruption? state.nodes state.memory = none)
      (hanswer : (machine.probe state value).answer = .ok false) :
      Onward machine state (machine.tested state value)
  /-- A value is tried and accepted. -/
  | accepted (value : Nat) (hvalue : machine.nextValue? state = some value)
      (hfree : machine.interruption? state.nodes state.memory = none)
      (hanswer : (machine.probe state value).answer = .ok true) :
      Onward machine state (machine.descended state value)

/-- The ways to end, with the states they leave. -/
inductive Ending (machine : Machine σ) (state : SearchState σ) : Status → SearchState σ → Prop where
  /-- Every variable is bound. -/
  | solved (hfrontier : state.frontier = machine.domains.size) :
      Ending machine state .solved state
  /-- The first variable has run out of candidates. -/
  | exhausted (hlt : state.frontier < machine.domains.size)
      (hfrontier : state.frontier = machine.start) (hvalue : machine.nextValue? state = none) :
      Ending machine state .exhausted { state with candidates := state.candidates.pop }
  /-- There is a candidate left and a reason to stop. -/
  | interrupted (value : Nat) (status : Status) (hvalue : machine.nextValue? state = some value)
      (hreason : machine.interruption? state.nodes state.memory = some status) :
      Ending machine state status state

/-! ## What decides a turn -/

theorem tryValue_eq (machine : Machine σ) (state : SearchState σ) (value : Nat) :
    machine.tryValue state value =
      match (machine.probe state value).answer with
      | .error fault => .broken fault (machine.tested state value)
      | .ok false => .onward (machine.tested state value)
      | .ok true => .onward (machine.descended state value) := rfl

theorem Onward.step (h : Onward machine state next) (hinv : StackInvariant machine state) :
    machine.step state = .onward next := by
  cases h with
  | back hlt hstart hvalue =>
      rw [hinv.step_of_spent hlt hvalue]
      exact if_neg (Nat.ne_of_gt hstart)
  | rejected value hvalue hfree hanswer =>
      rw [hinv.step_of_free hvalue hfree, tryValue_eq, hanswer]
  | accepted value hvalue hfree hanswer =>
      rw [hinv.step_of_free hvalue hfree, tryValue_eq, hanswer]

theorem Ending.step (h : Ending machine state status last) (hinv : StackInvariant machine state) :
    machine.step state = .ended status last := by
  cases h with
  | solved hfrontier => exact if_pos hfrontier
  | exhausted hlt hfrontier hvalue =>
      rw [hinv.step_of_spent hlt hvalue]
      exact if_pos hfrontier
  | interrupted value _ hvalue hreason => exact hinv.step_of_reason hvalue hreason

/-- The last turn changes nothing but the stack. -/
theorem Ending.exists_candidates (h : Ending machine state status last) :
    ∃ candidates, last = { state with candidates } := by
  cases h with
  | solved _ => exact ⟨state.candidates, rfl⟩
  | exhausted _ _ _ => exact ⟨state.candidates.pop, rfl⟩
  | interrupted _ _ _ _ => exact ⟨state.candidates, rfl⟩

/-- There are no other ways to go on. -/
theorem StackInvariant.step_eq_onward_iff (hinv : StackInvariant machine state) :
    machine.step state = .onward next ↔ Onward machine state next := by
  refine ⟨fun hnext => ?_, fun h => h.step hinv⟩
  rcases hinv.onward_cases hnext with ⟨hlt, hvalue, hback⟩ | ⟨value, hvalue, hfree, htry⟩
  · simp only [Machine.stepBack] at hback
    split at hback
    · cases hback
    · rename_i hne
      injection hback with hback
      subst hback
      exact .back hlt (Nat.lt_of_le_of_ne hinv.start_le (Ne.symm hne)) hvalue
  · rw [tryValue_eq] at htry
    split at htry
    · cases htry
    · rename_i hanswer
      injection htry with htry
      subst htry
      exact .rejected value hvalue hfree hanswer
    · rename_i hanswer
      injection htry with htry
      subst htry
      exact .accepted value hvalue hfree hanswer

/-- There are no other ways to end. -/
theorem StackInvariant.step_eq_ended_iff (hinv : StackInvariant machine state) :
    machine.step state = .ended status last ↔ Ending machine state status last := by
  refine ⟨fun hlast => ?_, fun h => h.step hinv⟩
  cases hinv.turnCase with
  | solved hfrontier _ hstep =>
      cases hstep.symm.trans hlast
      exact .solved hfrontier
  | back hlt hvalue hstep =>
      have hback := hstep.symm.trans hlast
      simp only [Machine.stepBack] at hback
      split at hback
      · rename_i hfrontier
        injection hback with hstatus hback
        subst hstatus hback
        exact .exhausted hlt hfrontier hvalue
      · cases hback
  | interrupted value _ hvalue hreason hstep =>
      cases hstep.symm.trans hlast
      exact .interrupted value _ hvalue hreason
  | tried _ _ _ hstep => exact absurd (hstep.symm.trans hlast) tryValue_ne_ended

/-- A turn is broken off only by the test of a value, once the value is written. -/
theorem StackInvariant.broken_by_test (hinv : StackInvariant machine state) {fault : Fault}
    (hlast : machine.step state = .broken fault last) :
    ∃ value, machine.nextValue? state = some value ∧
      machine.interruption? state.nodes state.memory = none ∧
      (machine.probe state value).answer = .error fault ∧ last = machine.tested state value := by
  obtain ⟨value, hvalue, hfree, htry⟩ := hinv.broken_cases hlast
  rw [tryValue_eq] at htry
  split at htry
  · rename_i hanswer
    injection htry with hfault hlast
    exact ⟨value, hvalue, hfree, hfault ▸ hanswer, hlast.symm⟩
  · cases htry
  · cases htry

/-! ## Another test -/

/-- The machine with another test. -/
def withTest (machine : Machine σ) (test : Array Nat → Nat → σ → Scan σ) : Machine σ :=
  { machine with test }

variable {test : Array Nat → Nat → σ → Scan σ}

theorem StackInvariant.withTest (hinv : StackInvariant machine state)
    (test : Array Nat → Nat → σ → Scan σ) : StackInvariant (machine.withTest test) state :=
  ⟨hinv.start_le, hinv.frontier_le, hinv.buffer_size, hinv.candidates_size, hinv.bound,
    hinv.inTurn⟩

/-- A test that finds the same in the next value makes the same turn. -/
theorem StackInvariant.step_withTest (hinv : StackInvariant machine state)
    (hprobe : ∀ value, machine.nextValue? state = some value →
      (machine.withTest test).probe state value = machine.probe state value) :
    (machine.withTest test).step state = machine.step state := by
  cases hinv.turnCase with
  | solved hfrontier _ hstep =>
      rw [hstep]
      exact if_pos hfrontier
  | back hlt hnone hstep => exact ((hinv.withTest test).step_of_spent hlt hnone).trans hstep.symm
  | interrupted value status hvalue hreason hstep =>
      exact ((hinv.withTest test).step_of_reason hvalue hreason).trans hstep.symm
  | tried value hvalue hreason hstep =>
      -- All that a turn learns from the test is in the probe.
      rw [hstep, (hinv.withTest test).step_of_free hvalue hreason, tryValue_eq, tryValue_eq,
        descended, descended, tested, tested, hprobe value hvalue]
      rfl

end Machine

end ConstraintSearch
