import ConstraintSearch.Proofs.Search.Turn

/-!
# The attempts of a run

An attempt is a turn in which a value is tried.  `attempts` lists the states in which a run makes
its attempts, each as it is just before.  The number of tried values counts them, so the attempt
at position `j` of a run is the one before which `j` values were tried (`nodes_of_attempt`).

What is kept by the three ways to go on holds before the last turn of every run, be it broken off
(`StackInvariant.course_induction`) or not (`StackInvariant.run_induction`).  A run is broken off by
the test of its last attempt, and by nothing else (`StackInvariant.ending_eq_error_iff`).

Only attempts can be interrupted, and there is nothing else in which an interruption shows.  So a
run with more reasons to stop is the run with fewer of them, cut at the first attempt at which
there is a new reason (`run_interruptedBy`).  Every statement about limits and cancellation comes
down to this.
-/

namespace ConstraintSearch.Machine

variable {σ : Type} {machine : Machine σ} {state next : SearchState σ}

/-- Whether the next turn tries a value. -/
def tries (machine : Machine σ) (state : SearchState σ) : Bool :=
  (machine.nextValue? state).isSome && (machine.interruption? state.nodes state.memory).isNone

/-- The states in which a run tries a value, each as it is just before, in order. -/
def attempts (machine : Machine σ) (state : SearchState σ) : List (SearchState σ) :=
  let own := if machine.tries state then [state] else []
  match _ : machine.step state with
  | .onward next => own ++ machine.attempts next
  | .ended _ _ => own
  | .broken _ _ => own
termination_by machine.remainingTurns state
decreasing_by exact remainingTurns_step (by assumption)

/-! ## Turn by turn -/

theorem tries_of_nextValue_none (hvalue : machine.nextValue? state = none) :
    machine.tries state = false := by
  simp [tries, hvalue]

theorem tries_of_interrupted {status : Status}
    (hreason : machine.interruption? state.nodes state.memory = some status) :
    machine.tries state = false := by
  simp [tries, hreason]

theorem tries_of_tried {value : Nat} (hvalue : machine.nextValue? state = some value)
    (hreason : machine.interruption? state.nodes state.memory = none) :
    machine.tries state = true := by
  simp [tries, hvalue, hreason]

theorem attempts_of_onward (hstep : machine.step state = .onward next) :
    machine.attempts state =
      (if machine.tries state then [state] else []) ++ machine.attempts next := by
  rw [attempts]
  split <;> simp_all

theorem attempts_of_ended {status : Status} {last : SearchState σ}
    (hstep : machine.step state = .ended status last) :
    machine.attempts state = if machine.tries state then [state] else [] := by
  rw [attempts]
  split <;> simp_all

theorem attempts_of_broken {fault : Fault} {last : SearchState σ}
    (hstep : machine.step state = .broken fault last) :
    machine.attempts state = if machine.tries state then [state] else [] := by
  rw [attempts]
  split <;> simp_all

theorem mem_attempts_of_tries (htries : machine.tries state = true) :
    state ∈ machine.attempts state := by
  rw [attempts]
  split <;> simp [htries]

/-- The attempts that are left after a turn. -/
theorem attempts_suffix_of_onward (hstep : machine.step state = .onward next) :
    machine.attempts next <:+ machine.attempts state := by
  rw [attempts_of_onward hstep]
  exact List.suffix_append _ _

theorem tries_of_mem_attempts {attempt : SearchState σ}
    (hattempt : attempt ∈ machine.attempts state) : machine.tries attempt = true := by
  have hown : ∀ state, attempt ∈ (if machine.tries state then [state] else []) →
      machine.tries attempt = true := by
    intro state hmem
    split at hmem
    · rename_i htries
      rw [List.mem_singleton.1 hmem]
      exact htries
    · cases hmem
  induction state using Machine.run.induct machine with
  | case1 state next hnext ih =>
      rw [attempts_of_onward hnext] at hattempt
      rcases List.mem_append.1 hattempt with hmem | hmem
      · exact hown state hmem
      · exact ih hmem
  | case2 state _ _ hlast => exact hown state (attempts_of_ended hlast ▸ hattempt)
  | case3 state _ _ hlast => exact hown state (attempts_of_broken hlast ▸ hattempt)

private theorem induction_own {motive : List (SearchState σ) → SearchState σ → Prop}
    {past : List (SearchState σ)} (h : motive past state) {j : Nat} {attempt : SearchState σ}
    (hattempt : (if machine.tries state then [state] else [])[j]? = some attempt) :
    motive (past ++ (if machine.tries state then [state] else []).take j) attempt := by
  split at hattempt
  · cases j with
    | zero =>
        obtain rfl : state = attempt := by simpa using hattempt
        simpa using h
    | succ j => simp at hattempt
  · simp at hattempt

private theorem induction_from {motive : List (SearchState σ) → SearchState σ → Prop}
    (hturn : ∀ past state next, motive past state → machine.step state = .onward next →
      motive (past ++ if machine.tries state then [state] else []) next)
    {past : List (SearchState σ)} (h : motive past state) {j : Nat} {attempt : SearchState σ}
    (hattempt : (machine.attempts state)[j]? = some attempt) :
    motive (past ++ (machine.attempts state).take j) attempt := by
  induction state using Machine.run.induct machine generalizing past j with
  | case1 state next hnext ih =>
      rw [attempts_of_onward hnext] at hattempt ⊢
      by_cases hown : j < (if machine.tries state then [state] else []).length
      · rw [List.getElem?_append_left hown] at hattempt
        rw [List.take_append_of_le_length (Nat.le_of_lt hown)]
        exact induction_own h hattempt
      · have hge := Nat.le_of_not_lt hown
        rw [List.getElem?_append_right hge] at hattempt
        rw [List.take_append, List.take_of_length_le hge, ← List.append_assoc]
        exact ih (hturn past state next h hnext) hattempt
  | case2 state _ _ hlast =>
      rw [attempts_of_ended hlast] at hattempt ⊢
      exact induction_own h hattempt
  | case3 state _ _ hlast =>
      rw [attempts_of_broken hlast] at hattempt ⊢
      exact induction_own h hattempt

/-- What every turn carries on, as attempts are made, holds of each attempt and those before it. -/
theorem attempt_induction {motive : List (SearchState σ) → SearchState σ → Prop}
    (hturn : ∀ past state next, motive past state → machine.step state = .onward next →
      motive (past ++ if machine.tries state then [state] else []) next)
    (h : motive [] state) {j : Nat} {attempt : SearchState σ}
    (hattempt : (machine.attempts state)[j]? = some attempt) :
    motive ((machine.attempts state).take j) attempt :=
  induction_from hturn h hattempt

theorem StackInvariant.of_mem_attempts (hinv : StackInvariant machine state)
    {attempt : SearchState σ} (hattempt : attempt ∈ machine.attempts state) :
    StackInvariant machine attempt := by
  obtain ⟨j, hj⟩ := List.getElem?_of_mem hattempt
  exact attempt_induction (motive := fun _ later => StackInvariant machine later)
    (fun _ _ _ hlater hnext => hlater.step hnext) hinv hj

/-- There is no reason to stop at an attempt. -/
theorem interruption?_of_mem_attempts {attempt : SearchState σ}
    (hattempt : attempt ∈ machine.attempts state) :
    machine.interruption? attempt.nodes attempt.memory = none := by
  have htries := tries_of_mem_attempts hattempt
  simp only [tries, Bool.and_eq_true, Option.isNone_iff_eq_none] at htries
  exact htries.2

theorem exists_nextValue_of_mem_attempts {attempt : SearchState σ}
    (hattempt : attempt ∈ machine.attempts state) :
    ∃ value, machine.nextValue? attempt = some value := by
  have htries := tries_of_mem_attempts hattempt
  simp only [tries, Bool.and_eq_true, Option.isSome_iff_exists] at htries
  exact htries.1

theorem frontier_lt_of_mem_attempts {attempt : SearchState σ}
    (hattempt : attempt ∈ machine.attempts state) : attempt.frontier < machine.domains.size := by
  obtain ⟨value, hvalue⟩ := exists_nextValue_of_mem_attempts hattempt
  obtain ⟨-, size, hsize, -⟩ := nextValue?_eq_some hvalue
  exact (Array.getElem?_eq_some_iff.1 hsize).1

/-! ## Attempts are counted -/

theorem StackInvariant.nodes_of_onward (hinv : StackInvariant machine state)
    (hnext : machine.step state = .onward next) :
    next.nodes = state.nodes + if machine.tries state then 1 else 0 := by
  cases hinv.step_eq_onward_iff.1 hnext with
  | back _ _ hvalue =>
      rw [tries_of_nextValue_none hvalue]
      rfl
  | rejected _ hvalue hfree _ =>
      rw [tries_of_tried hvalue hfree]
      rfl
  | accepted _ hvalue hfree _ =>
      rw [tries_of_tried hvalue hfree]
      rfl

theorem StackInvariant.tries_of_ended (hinv : StackInvariant machine state) {status : Status}
    {last : SearchState σ} (hlast : machine.step state = .ended status last) :
    machine.tries state = false ∧ last.nodes = state.nodes := by
  rcases hinv.ended_cases hlast with ⟨hvalue, -, rfl⟩ | ⟨hvalue, -⟩ | ⟨value, -, hreason, rfl⟩
  · exact ⟨tries_of_nextValue_none hvalue, rfl⟩
  · obtain ⟨candidates, rfl⟩ := (hinv.step_eq_ended_iff.1 hlast).exists_candidates
    exact ⟨tries_of_nextValue_none hvalue, rfl⟩
  · exact ⟨tries_of_interrupted hreason, rfl⟩

/-- A run counts its attempts. -/
theorem StackInvariant.nodes_run (hinv : StackInvariant machine state) :
    (machine.run state).state.nodes = state.nodes + (machine.attempts state).length := by
  induction state using Machine.run.induct machine with
  | case1 state next hnext ih =>
      rw [run_of_onward hnext, ih (hinv.step hnext), hinv.nodes_of_onward hnext,
        attempts_of_onward hnext, List.length_append, Nat.add_assoc]
      cases machine.tries state <;> rfl
  | case2 state status last hlast =>
      obtain ⟨htries, hnodes⟩ := hinv.tries_of_ended hlast
      rw [run_of_ended hlast, attempts_of_ended hlast, htries]
      exact hnodes
  | case3 state fault last hlast =>
      obtain ⟨value, hvalue, hfree, -, rfl⟩ := hinv.broken_by_test hlast
      rw [run_of_broken hlast, attempts_of_broken hlast, tries_of_tried hvalue hfree]
      rfl

private theorem nodes_of_only {attempt : SearchState σ} {j : Nat}
    (h : (if machine.tries state then [state] else [])[j]? = some attempt) :
    attempt.nodes = state.nodes + j := by
  split at h
  · cases j with
    | zero =>
        have heq : state = attempt := by simpa using h
        rw [heq]
        rfl
    | succ j => simp at h
  · simp at h

/-- Before the attempt at position `j`, exactly `j` values were tried in the run. -/
theorem StackInvariant.nodes_of_attempt (hinv : StackInvariant machine state) {j : Nat}
    {attempt : SearchState σ} (hattempt : (machine.attempts state)[j]? = some attempt) :
    attempt.nodes = state.nodes + j := by
  -- An attempt counts one value as tried, and a step back none, so the index among the attempts
  -- grows with the counter.
  induction state using Machine.run.induct machine generalizing j with
  | case1 state next hnext ih =>
      rw [attempts_of_onward hnext] at hattempt
      have hnodes := hinv.nodes_of_onward hnext
      cases htries : machine.tries state with
      | false =>
          rw [htries] at hattempt hnodes
          rw [ih (hinv.step hnext) hattempt, hnodes]
          rfl
      | true =>
          rw [htries] at hattempt hnodes
          cases j with
          | zero =>
              have heq : state = attempt := by simpa using hattempt
              rw [heq]
              rfl
          | succ j =>
              rw [ih (hinv.step hnext) (j := j) (by simpa using hattempt), hnodes]
              simp only [if_true]
              omega
  | case2 state status last hlast =>
      rw [attempts_of_ended hlast] at hattempt
      exact nodes_of_only hattempt
  | case3 state fault last hlast =>
      rw [attempts_of_broken hlast] at hattempt
      exact nodes_of_only hattempt

/-! ## Whole runs -/

/-- The last turn of a run: it ends the search, or the test of a value breaks it off. -/
inductive LastTurn (machine : Machine σ) (state : SearchState σ) : Ended σ → Prop where
  | ended (status : Status) (last : SearchState σ) (hlast : Ending machine state status last) :
      LastTurn machine state { ending := .ok status, state := last }
  | broken (value : Nat) (fault : Fault) (hvalue : machine.nextValue? state = some value)
      (hfree : machine.interruption? state.nodes state.memory = none)
      (hanswer : (machine.probe state value).answer = .error fault) :
      LastTurn machine state { ending := .error fault, state := machine.tested state value }

/-- What holds at first and is kept by the three ways to go on, as attempts are made, holds of the
state before the last turn and the attempts before it, however the run ends. -/
theorem StackInvariant.course_induction {motive : List (SearchState σ) → SearchState σ → Prop}
    (hback : ∀ past state, StackInvariant machine state → machine.start < state.frontier →
      state.frontier < machine.domains.size → machine.nextValue? state = none →
      motive past state → motive past state.steppedBack)
    (hrejected : ∀ past state value, StackInvariant machine state →
      machine.nextValue? state = some value →
      machine.interruption? state.nodes state.memory = none →
      (machine.probe state value).answer = .ok false →
      motive past state → motive (past ++ [state]) (machine.tested state value))
    (haccepted : ∀ past state value, StackInvariant machine state →
      machine.nextValue? state = some value →
      machine.interruption? state.nodes state.memory = none →
      (machine.probe state value).answer = .ok true →
      motive past state → motive (past ++ [state]) (machine.descended state value))
    (hinv : StackInvariant machine state) (h : motive [] state) :
    ∃ past last, StackInvariant machine last ∧ motive past last ∧
      machine.attempts state = past ++ (if machine.tries last then [last] else []) ∧
      LastTurn machine last (machine.run state) := by
  -- The past grows from turn to turn, so the statement is made for every past before the induction
  -- on the run.
  suffices hfrom : ∀ past, motive past state → ∃ before last, StackInvariant machine last ∧
      motive before last ∧
      past ++ machine.attempts state = before ++ (if machine.tries last then [last] else []) ∧
      LastTurn machine last (machine.run state) from hfrom [] h
  clear h
  induction state using Machine.run.induct machine with
  | case1 state next hnext ih =>
      intro past h
      rw [run_of_onward hnext, attempts_of_onward hnext, ← List.append_assoc]
      refine ih (hinv.step hnext) _ ?_
      cases hinv.step_eq_onward_iff.1 hnext with
      | back hlt hstart hvalue =>
          rw [tries_of_nextValue_none hvalue]
          simpa using hback past state hinv hstart hlt hvalue h
      | rejected value hvalue hfree hanswer =>
          rw [tries_of_tried hvalue hfree]
          exact hrejected past state value hinv hvalue hfree hanswer h
      | accepted value hvalue hfree hanswer =>
          rw [tries_of_tried hvalue hfree]
          exact haccepted past state value hinv hvalue hfree hanswer h
  | case2 state status last hlast =>
      intro past h
      rw [run_of_ended hlast, attempts_of_ended hlast]
      exact ⟨past, state, hinv, h, rfl, .ended status last (hinv.step_eq_ended_iff.1 hlast)⟩
  | case3 state fault last hlast =>
      intro past h
      obtain ⟨value, hvalue, hfree, hanswer, rfl⟩ := hinv.broken_by_test hlast
      rw [run_of_broken hlast, attempts_of_broken hlast]
      exact ⟨past, state, hinv, h, rfl, .broken value fault hvalue hfree hanswer⟩

/-- If the run is not broken off, the attempts before its last turn are all attempts. -/
theorem StackInvariant.run_induction {motive : List (SearchState σ) → SearchState σ → Prop}
    {status : Status}
    (hback : ∀ past state, StackInvariant machine state → machine.start < state.frontier →
      state.frontier < machine.domains.size → machine.nextValue? state = none →
      motive past state → motive past state.steppedBack)
    (hrejected : ∀ past state value, StackInvariant machine state →
      machine.nextValue? state = some value →
      machine.interruption? state.nodes state.memory = none →
      (machine.probe state value).answer = .ok false →
      motive past state → motive (past ++ [state]) (machine.tested state value))
    (haccepted : ∀ past state value, StackInvariant machine state →
      machine.nextValue? state = some value →
      machine.interruption? state.nodes state.memory = none →
      (machine.probe state value).answer = .ok true →
      motive past state → motive (past ++ [state]) (machine.descended state value))
    (hinv : StackInvariant machine state) (h : motive [] state)
    (hending : (machine.run state).ending = .ok status) :
    ∃ last, StackInvariant machine last ∧ motive (machine.attempts state) last ∧
      Ending machine last status (machine.run state).state := by
  obtain ⟨past, last, hlast, hmotive, hattempts, hturn⟩ :=
    course_induction hback hrejected haccepted hinv h
  generalize machine.run state = ended at hending hturn ⊢
  cases hturn with
  | ended other final hended =>
      obtain rfl : other = status := Except.ok.inj hending
      have htries : machine.tries last = false := (hlast.tries_of_ended (hended.step hlast)).1
      rw [htries] at hattempts
      refine ⟨last, hlast, ?_, hended⟩
      simpa [hattempts] using hmotive
  | broken => cases hending

/-! ## Runs that are broken off -/

/-- A run is broken off with a fault exactly when the test of one of its attempts meets that
fault. -/
theorem StackInvariant.ending_eq_error_iff (hinv : StackInvariant machine state) {fault : Fault} :
    (machine.run state).ending = .error fault ↔
      ∃ attempt ∈ machine.attempts state, ∃ value, machine.nextValue? attempt = some value ∧
        (machine.probe attempt value).answer = .error fault := by
  induction state using Machine.run.induct machine with
  | case1 state next hnext ih =>
      rw [run_of_onward hnext, ih (hinv.step hnext), attempts_of_onward hnext]
      constructor
      · rintro ⟨attempt, hattempt, h⟩
        exact ⟨attempt, List.mem_append_right _ hattempt, h⟩
      · rintro ⟨attempt, hattempt, value, hvalue, hanswer⟩
        rcases List.mem_append.1 hattempt with hown | hlater
        · split at hown
          · rename_i htries
            obtain rfl : attempt = state := List.mem_singleton.1 hown
            have hfree := interruption?_of_mem_attempts (mem_attempts_of_tries htries)
            rw [hinv.step_of_free hvalue hfree, tryValue_eq, hanswer] at hnext
            cases hnext
          · cases hown
        · exact ⟨attempt, hlater, value, hvalue, hanswer⟩
  | case2 state status last hlast =>
      rw [run_of_ended hlast, attempts_of_ended hlast, (hinv.tries_of_ended hlast).1]
      constructor
      · intro hending
        cases hending
      · rintro ⟨_, hattempt, _⟩
        cases hattempt
  | case3 state other last hlast =>
      obtain ⟨value, hvalue, hfree, hanswer, rfl⟩ := hinv.broken_by_test hlast
      rw [run_of_broken hlast, attempts_of_broken hlast, tries_of_tried hvalue hfree]
      constructor
      · intro hending
        obtain rfl : other = fault := Except.error.inj hending
        exact ⟨state, List.mem_singleton_self _, value, hvalue, hanswer⟩
      · rintro ⟨attempt, hattempt, value', hvalue', hanswer'⟩
        obtain rfl : attempt = state := List.mem_singleton.1 hattempt
        obtain rfl : value = value' := Option.some.inj (hvalue.symm.trans hvalue')
        cases hanswer.symm.trans hanswer'
        rfl

/-- However a run ends, it has stepped back from tried values only. -/
theorem StackInvariant.backtracks_run_le (hinv : StackInvariant machine state)
    (h : state.backtracks + (state.frontier - machine.start) ≤ state.nodes) :
    (machine.run state).state.backtracks ≤ (machine.run state).state.nodes := by
  -- A variable that is bound has a tried value from which the search has not stepped back.
  obtain ⟨-, last, -, hcounts, -, hturn⟩ := course_induction
    (motive := fun _ later => later.backtracks + (later.frontier - machine.start) ≤ later.nodes)
    (by
      intro _ later _ hstart _ _ hle
      simp only [SearchState.steppedBack]
      omega)
    (by
      intro _ later value _ _ _ _ hle
      simp only [tested, Machine.assign]
      omega)
    (by
      intro _ later value _ _ _ _ hle
      simp only [descended, tested, Machine.assign]
      omega)
    hinv h
  generalize machine.run state = ended at hturn ⊢
  cases hturn with
  | ended status final hended =>
      obtain ⟨candidates, rfl⟩ := hended.exists_candidates
      exact Nat.le_trans (Nat.le_add_right _ _) hcounts
  | broken value fault _ _ _ =>
      simp only [tested, Machine.assign]
      omega

/-! ## More reasons to stop -/

/-- The machine with other reasons to stop. -/
def interruptedBy (machine : Machine σ) (reason : Nat → σ → Option Status) : Machine σ :=
  { machine with interruption? := reason }

variable {reason : Nat → σ → Option Status}

theorem StackInvariant.interruptedBy (hinv : StackInvariant machine state)
    (reason : Nat → σ → Option Status) : StackInvariant (machine.interruptedBy reason) state :=
  ⟨hinv.start_le, hinv.frontier_le, hinv.buffer_size, hinv.candidates_size, hinv.bound,
    hinv.inTurn⟩

/-- Reasons to stop do not matter when there is no value left to try. -/
theorem StackInvariant.step_interruptedBy_of_none (hinv : StackInvariant machine state)
    (hnone : machine.nextValue? state = none) :
    (machine.interruptedBy reason).step state = machine.step state := by
  cases hinv.turnCase with
  | solved hfrontier _ hstep =>
      rw [hstep]
      exact if_pos hfrontier
  | back hlt _ hstep => exact ((hinv.interruptedBy reason).step_of_spent hlt hnone).trans hstep.symm
  | interrupted _ _ hvalue => cases hnone.symm.trans hvalue
  | tried _ hvalue => cases hnone.symm.trans hvalue

theorem StackInvariant.step_interruptedBy_of_some (hinv : StackInvariant machine state)
    {value : Nat} {status : Status} (hvalue : machine.nextValue? state = some value)
    (hreason : reason state.nodes state.memory = some status) :
    (machine.interruptedBy reason).step state = .ended status state :=
  (hinv.interruptedBy reason).step_of_reason hvalue hreason

theorem StackInvariant.step_interruptedBy_of_tried (hinv : StackInvariant machine state)
    {value : Nat} (hvalue : machine.nextValue? state = some value)
    (hreason : reason state.nodes state.memory = none) :
    (machine.interruptedBy reason).step state = machine.tryValue state value :=
  (hinv.interruptedBy reason).step_of_free hvalue hreason

/-- The way a run ends at an attempt at which there is a reason to stop. -/
def stopAt? (reason : Nat → σ → Option Status) (attempt : SearchState σ) : Option (Ended σ) :=
  (reason attempt.nodes attempt.memory).map fun status => ⟨.ok status, attempt⟩

/-- With more reasons to stop, a run goes the same way up to the first attempt at which there is
a new reason, and ends there; without such an attempt it is the same run. -/
theorem StackInvariant.run_interruptedBy (hinv : StackInvariant machine state)
    (reason : Nat → σ → Option Status)
    (hmore : ∀ nodes memory status, machine.interruption? nodes memory = some status →
      reason nodes memory = some status) :
    (machine.interruptedBy reason).run state =
      ((machine.attempts state).findSome? (stopAt? reason)).getD (machine.run state) := by
  induction state using Machine.run.induct machine with
  | case1 state next hnext ih =>
      rw [attempts_of_onward hnext, run_of_onward hnext]
      have hrest := ih (hinv.step hnext)
      rcases hinv.onward_cases hnext with ⟨-, hvalue, -⟩ | ⟨value, hvalue, hfree, htry⟩
      · rw [tries_of_nextValue_none hvalue,
          run_of_onward ((hinv.step_interruptedBy_of_none hvalue).trans hnext), hrest]
        rfl
      · rw [tries_of_tried hvalue hfree]
        cases hreason : reason state.nodes state.memory with
        | some status =>
            -- The first new reason: the attempt is not made.
            rw [run_of_ended (hinv.step_interruptedBy_of_some hvalue hreason)]
            simp [stopAt?, hreason]
        | none =>
            rw [run_of_onward ((hinv.step_interruptedBy_of_tried hvalue hreason).trans htry),
              hrest]
            simp [stopAt?, hreason]
  | case2 state status last hlast =>
      rw [attempts_of_ended hlast, run_of_ended hlast, (hinv.tries_of_ended hlast).1]
      cases hvalue : machine.nextValue? state with
      | none =>
          rw [run_of_ended ((hinv.step_interruptedBy_of_none hvalue).trans hlast)]
          rfl
      | some value =>
          rcases hinv.ended_cases hlast with ⟨hnone, -⟩ | ⟨hnone, -⟩ | ⟨value, -, hreason, rfl⟩
          · cases hnone.symm.trans hvalue
          · cases hnone.symm.trans hvalue
          · rw [run_of_ended (hinv.step_interruptedBy_of_some hvalue (hmore _ _ _ hreason))]
            rfl
  | case3 state fault last hlast =>
      obtain ⟨value, hvalue, hfree, hbroken⟩ := hinv.broken_cases hlast
      rw [attempts_of_broken hlast, run_of_broken hlast, tries_of_tried hvalue hfree]
      cases hreason : reason state.nodes state.memory with
      | some status =>
          rw [run_of_ended (hinv.step_interruptedBy_of_some hvalue hreason)]
          simp [stopAt?, hreason]
      | none =>
          rw [run_of_broken ((hinv.step_interruptedBy_of_tried hvalue hreason).trans hbroken)]
          simp [stopAt?, hreason]

theorem StackInvariant.run_interruptedBy_of_none (hinv : StackInvariant machine state)
    (reason : Nat → σ → Option Status)
    (hmore : ∀ nodes memory status, machine.interruption? nodes memory = some status →
      reason nodes memory = some status)
    (hnone : ∀ attempt ∈ machine.attempts state, reason attempt.nodes attempt.memory = none) :
    (machine.interruptedBy reason).run state = machine.run state := by
  have hstop : (machine.attempts state).findSome? (stopAt? reason) = none := by
    rw [List.findSome?_eq_none_iff]
    intro attempt hattempt
    rw [stopAt?, hnone attempt hattempt]
    rfl
  rw [hinv.run_interruptedBy reason hmore, hstop]
  rfl

/-- When the first new reason to stop comes after exactly `stop` tried values, the run is cut at
the attempt at that position, if it makes so many attempts. -/
theorem StackInvariant.run_interruptedBy_at (hinv : StackInvariant machine state)
    (reason : Nat → σ → Option Status)
    (hmore : ∀ nodes memory status, machine.interruption? nodes memory = some status →
      reason nodes memory = some status) {stop : Nat} {status : Status}
    (hbefore : ∀ attempt ∈ machine.attempts state, attempt.nodes < state.nodes + stop →
      reason attempt.nodes attempt.memory = none)
    (hat : ∀ attempt ∈ machine.attempts state, attempt.nodes = state.nodes + stop →
      reason attempt.nodes attempt.memory = some status) :
    (machine.interruptedBy reason).run state =
      match (machine.attempts state)[stop]? with
      | some attempt => ⟨.ok status, attempt⟩
      | none => machine.run state := by
  have hearly : ∀ j < stop, ∀ attempt, (machine.attempts state)[j]? = some attempt →
      reason attempt.nodes attempt.memory = none := by
    intro j hj attempt hattempt
    have hnodes := hinv.nodes_of_attempt hattempt
    exact hbefore attempt (List.mem_of_getElem? hattempt) (by omega)
  cases hattempt : (machine.attempts state)[stop]? with
  | none =>
      have hlength := List.getElem?_eq_none_iff.1 hattempt
      refine hinv.run_interruptedBy_of_none reason hmore ?_
      intro attempt hmem
      obtain ⟨j, hj⟩ := List.getElem?_of_mem hmem
      have hlt : j < (machine.attempts state).length := (List.getElem?_eq_some_iff.1 hj).1
      exact hearly j (Nat.lt_of_lt_of_le hlt hlength) attempt hj
  | some attempt =>
      have hstop : (machine.attempts state).findSome? (stopAt? reason)
          = some ⟨.ok status, attempt⟩ := by
        rw [List.findSome?_eq_some_iff]
        obtain ⟨hlt, heq⟩ := List.getElem?_eq_some_iff.1 hattempt
        refine ⟨(machine.attempts state).take stop, attempt,
          (machine.attempts state).drop (stop + 1), ?_, ?_, ?_⟩
        · rw [← heq, List.getElem_cons_drop, List.take_append_drop]
        · rw [stopAt?,
            hat attempt (List.mem_of_getElem? hattempt) (hinv.nodes_of_attempt hattempt)]
          rfl
        · intro earlier hmem
          obtain ⟨j, hj⟩ := List.getElem?_of_mem hmem
          rw [List.getElem?_take] at hj
          split at hj
          · rename_i hlt
            rw [stopAt?, hearly j hlt earlier hj]
            rfl
          · cases hj
      rw [hinv.run_interruptedBy reason hmore, hstop]
      rfl

end ConstraintSearch.Machine
