import ConstraintSearch.Proofs.Search.Attempts
import ConstraintSearch.Proofs.Search.View

/-!
# What a checker sees

Every attempt of a run writes one slot of the buffer.  To write a slot is to give up whatever was
tried for the variables behind it, so the writes so far leave one branch (`branch`): the values that
the variables from the start on have in it, up to the one written last.

The buffer is never cleaned up.  Behind the slot written last it holds values of branches given up,
or what the caller left there.  But no checker is called on a constraint that refers to them: in
every call, the variables of the constraint have the values of the present branch, or, below the
start, those of the caller (`calls_see_branch`).  This rests on one invariant, which says that the
entries of the stack are the values of the branch, each one more (`OnBranch`).

## From the branch to the calls

* `OnBranch.step`: the invariant is kept by every turn, so it holds at every attempt
  (`OnBranch.attempt`), and just after the write of an attempt as well (`OnBranch.bound_afterWrite`).
* `AddsCalls`: checkers that note their calls note, in the test of an attempt, calls with the buffer
  of that attempt.  So each noted call was made in one of the attempts, and its number says in which
  (`MadeIn`, `exists_attempt_of_call`).
* A constraint that is asked is applicable, so its variables are bound, and the stack says what the
  buffer holds for them.
-/

namespace ConstraintSearch

variable {σ κ : Type}

/-- The branch that some writes to slots leave, the values in order of the variables from the start
on.  A write gives up what stood behind its slot. -/
def branch (start : Nat) (writes : List (Nat × Nat)) : List Nat :=
  writes.foldl (fun values (slot, value) => values.take (slot - start) ++ [value]) []

theorem branch_concat (start slot value : Nat) (writes : List (Nat × Nat)) :
    branch start (writes ++ [(slot, value)]) =
      (branch start writes).take (slot - start) ++ [value] := by
  simp [branch]

namespace Machine

variable {machine : Machine σ} {state next : SearchState σ}

/-- The slot that an attempt writes, and the value. -/
def written (machine : Machine σ) (attempt : SearchState σ) : Nat × Nat :=
  (attempt.frontier, (machine.nextValue? attempt).getD 0)

/-- The state once an attempt has written its slot. -/
def afterWrite (machine : Machine σ) (attempt : SearchState σ) : SearchState σ :=
  machine.assign attempt (machine.written attempt).2

/-- The branch is what the stack says, up to a frontier, and the values below the start are those
that the buffer began with. -/
structure OnBranch (machine : Machine σ) (initial : Array Nat) (values : List Nat) (frontier : Nat)
    (state : SearchState σ) : Prop where
  entry : ∀ depth < frontier - machine.start,
    state.candidates[depth]? = values[depth]?.map (· + 1)
  kept : ∀ v < machine.start, state.buffer[v]? = initial[v]?

variable {initial : Array Nat} {values : List Nat} {value frontier : Nat}

theorem OnBranch.mono (h : OnBranch machine initial values frontier state) {below : Nat}
    (hle : below ≤ frontier) : OnBranch machine initial values below state where
  entry := by
    intro depth hdepth
    exact h.entry depth (by omega)
  kept := h.kept

/-- The branch reaches up to the frontier. -/
theorem OnBranch.le_length (h : OnBranch machine initial values frontier state)
    (hsize : frontier - machine.start ≤ state.candidates.size) :
    frontier - machine.start ≤ values.length := by
  apply Nat.le_of_not_lt
  intro hlt
  have hentry := h.entry values.length hlt
  rw [List.getElem?_eq_none (Nat.le_refl _), Option.map_none, Array.getElem?_eq_none_iff] at hentry
  omega

/-- A write puts its value behind the part of the branch that stays. -/
theorem OnBranch.assign (h : OnBranch machine initial values state.frontier state)
    (hinv : StackInvariant machine state) (value : Nat) :
    OnBranch machine initial (values.take (state.frontier - machine.start) ++ [value])
      (state.frontier + 1) (machine.assign state value) where
  entry := by
    have hstart := hinv.start_le
    have hsize := hinv.candidates_size
    have hlength : (values.take (state.frontier - machine.start)).length
        = state.frontier - machine.start := by
      rw [List.length_take]
      exact Nat.min_eq_left (h.le_length (by omega))
    intro depth hdepth
    simp only [Machine.assign]
    -- An entry below the one in turn is as before; the one in turn is the value just written, plus
    -- one.
    rcases Nat.lt_or_eq_of_le (show depth ≤ state.frontier - machine.start by omega) with hlt | rfl
    · rw [Array.getElem?_setIfInBounds_ne (by omega), h.entry depth hlt,
        List.getElem?_append_left (by omega), List.getElem?_take_of_lt hlt]
    · rw [Array.getElem?_setIfInBounds_self_of_lt (by omega),
        List.getElem?_append_right (by omega), hlength]
      simp
  kept := by
    have hstart := hinv.start_le
    intro v hv
    simp only [Machine.assign]
    rw [Array.getElem?_setIfInBounds_ne (by omega), h.kept v hv]

/-- After a write, the variables up to the slot that is written have the values of the branch, each
below the size of its domain, and the stack has them too. -/
theorem OnBranch.bound (h : OnBranch machine initial values state.frontier state)
    (hinv : StackInvariant machine state) (hvalue : machine.nextValue? state = some value) {v : Nat}
    (hstart : machine.start ≤ v) (hle : v ≤ state.frontier) :
    ∃ candidate size,
      (values.take (state.frontier - machine.start) ++ [value])[v - machine.start]? = some candidate ∧
        (machine.assign state value).candidates[v - machine.start]? = some (candidate + 1) ∧
        machine.domains[v]? = some size ∧ candidate < size ∧
        (machine.assign state value).buffer[v]? = some candidate := by
  have hentry := (h.assign hinv value).entry (v - machine.start) (by omega)
  have hcount := hinv.candidates_size
  have hofEntry : ∀ candidate,
      (machine.assign state value).candidates[v - machine.start]? = some (candidate + 1) →
      (values.take (state.frontier - machine.start) ++ [value])[v - machine.start]? =
        some candidate := by
    intro candidate hcandidate
    obtain ⟨other, hother, heq⟩ := Option.map_eq_some_iff.1 (hentry.symm.trans hcandidate)
    rw [hother, Nat.succ.inj heq]
  rcases Nat.lt_or_eq_of_le hle with hlt | rfl
  · obtain ⟨candidate, size, hbuffer, hsize, hless, hcandidate⟩ := hinv.bound v hstart hlt
    have hcandidate' :
        (machine.assign state value).candidates[v - machine.start]? = some (candidate + 1) := by
      simp only [Machine.assign]
      rw [Array.getElem?_setIfInBounds_ne (by omega), hcandidate]
    refine ⟨candidate, size, hofEntry candidate hcandidate', hcandidate', hsize, hless, ?_⟩
    simp only [Machine.assign]
    rw [Array.getElem?_setIfInBounds_ne (by omega), hbuffer]
  · obtain ⟨-, size, hsize, hless⟩ := nextValue?_eq_some hvalue
    have hlt : state.frontier < machine.domains.size := (Array.getElem?_eq_some_iff.1 hsize).1
    have hcandidate : (machine.assign state value).candidates[state.frontier - machine.start]? =
        some (value + 1) := by
      simp only [Machine.assign]
      rw [Array.getElem?_setIfInBounds_self_of_lt (by omega)]
    refine ⟨value, size, hofEntry value hcandidate, hcandidate, hsize, hless, ?_⟩
    simp only [Machine.assign]
    rw [Array.getElem?_setIfInBounds_self_of_lt (hinv.buffer_size ▸ hlt)]

/-! ## From turn to turn -/

private theorem OnBranch.back (h : OnBranch machine initial values state.frontier state)
    (hinv : StackInvariant machine state) :
    OnBranch machine initial values state.steppedBack.frontier state.steppedBack where
  entry := by
    have hstart := hinv.start_le
    have hsize := hinv.candidates_size
    intro depth hdepth
    simp only [SearchState.steppedBack] at hdepth ⊢
    rw [Array.getElem?_pop, if_pos (by omega)]
    exact h.entry depth (by omega)
  kept := h.kept

private theorem OnBranch.rejected (h : OnBranch machine initial values state.frontier state)
    (hinv : StackInvariant machine state) (value : Nat) :
    OnBranch machine initial (values.take (state.frontier - machine.start) ++ [value])
      state.frontier (machine.tested state value) where
  entry := ((h.assign hinv value).mono (Nat.le_succ _)).entry
  kept := (h.assign hinv value).kept

private theorem OnBranch.accepted (h : OnBranch machine initial values state.frontier state)
    (hinv : StackInvariant machine state) (value : Nat) :
    OnBranch machine initial (values.take (state.frontier - machine.start) ++ [value])
      (state.frontier + 1) (machine.descended state value) where
  entry := by
    have hstart := hinv.start_le
    have hsize : (machine.assign state value).candidates.size =
        state.frontier - machine.start + 1 :=
      (Array.size_setIfInBounds ..).trans hinv.candidates_size
    intro depth hdepth
    simp only [Machine.descended]
    rw [Array.getElem?_push, if_neg (by omega)]
    exact (h.assign hinv value).entry depth hdepth
  kept := (h.assign hinv value).kept

/-- The attempts so far leave the branch. -/
private theorem OnBranch.step {past : List (SearchState σ)}
    (h : OnBranch machine initial (branch machine.start (past.map machine.written)) state.frontier
      state)
    (hinv : StackInvariant machine state) (hnext : machine.step state = .onward next) :
    OnBranch machine initial
      (branch machine.start
        ((past ++ if machine.tries state then [state] else []).map machine.written))
      next.frontier next := by
  -- To try a value is to cut the branch back to the frontier and to put the value behind.
  have hextended : ∀ value, machine.nextValue? state = some value →
      branch machine.start ((past ++ [state]).map machine.written) =
        (branch machine.start (past.map machine.written)).take (state.frontier - machine.start) ++
          [value] := by
    intro value hvalue
    have hwritten : machine.written state = (state.frontier, value) := by simp [written, hvalue]
    rw [List.map_append, List.map_singleton, hwritten, branch_concat]
  cases hinv.step_eq_onward_iff.1 hnext with
  | back _ _ hvalue =>
      rw [tries_of_nextValue_none hvalue]
      simpa using h.back hinv
  | rejected value hvalue hfree _ =>
      rw [tries_of_tried hvalue hfree, if_pos rfl, hextended value hvalue]
      exact h.rejected hinv value
  | accepted value hvalue hfree _ =>
      rw [tries_of_tried hvalue hfree, if_pos rfl, hextended value hvalue]
      exact h.accepted hinv value

/-- Before every attempt of a run, the stack holds the branch that the attempts before it leave. -/
theorem OnBranch.attempt (h : OnBranch machine initial [] state.frontier state)
    (hinv : StackInvariant machine state) {j : Nat} {attempt : SearchState σ}
    (hattempt : (machine.attempts state)[j]? = some attempt) :
    StackInvariant machine attempt ∧ OnBranch machine initial
      (branch machine.start (((machine.attempts state).take j).map machine.written))
      attempt.frontier attempt := by
  refine attempt_induction (motive := fun past state => StackInvariant machine state ∧
    OnBranch machine initial (branch machine.start (past.map machine.written)) state.frontier state)
    ?_ ⟨hinv, h⟩ hattempt
  rintro past state next ⟨hinv, h⟩ hnext
  exact ⟨hinv.step hnext, h.step hinv hnext⟩

/-- After the write of an attempt, the variables up to its slot have the values of the branch that
the attempts so far leave. -/
theorem OnBranch.bound_afterWrite (h : OnBranch machine initial [] state.frontier state)
    (hinv : StackInvariant machine state) {j : Nat} {attempt : SearchState σ}
    (hattempt : (machine.attempts state)[j]? = some attempt) {v : Nat}
    (hstart : machine.start ≤ v) (hle : v ≤ attempt.frontier) :
    ∃ candidate size,
      (branch machine.start
          (((machine.attempts state).take (j + 1)).map machine.written))[v - machine.start]? =
        some candidate ∧
        (machine.afterWrite attempt).candidates[v - machine.start]? = some (candidate + 1) ∧
        machine.domains[v]? = some size ∧ candidate < size ∧
        (machine.afterWrite attempt).buffer[v]? = some candidate := by
  obtain ⟨hinv', honBranch⟩ := h.attempt hinv hattempt
  obtain ⟨value, hvalue⟩ := exists_nextValue_of_mem_attempts (List.mem_of_getElem? hattempt)
  have hwritten : machine.written attempt = (attempt.frontier, value) := by simp [written, hvalue]
  have hbound := honBranch.bound hinv' hvalue hstart hle
  rw [← branch_concat, ← hwritten, ← List.map_singleton, ← List.map_append] at hbound
  rw [List.take_add_one, hattempt]
  simpa [afterWrite, hwritten] using hbound

/-! ## The calls of a run -/

/-- The call at position `i` of the record is made in the attempt at position `j`: the record is
not longer before the attempt, and it is longer before the next one. -/
structure MadeIn (attempts : List (SearchState (Recorded σ))) (i j : Nat)
    (attempt : SearchState (Recorded σ)) : Prop where
  nth : attempts[j]? = some attempt
  since : attempt.memory.calls.length ≤ i
  beforeNext : ∀ later, attempts[j + 1]? = some later → i < later.memory.calls.length

/-- The test adds calls to the record, each of them as `made` says. -/
def AddsCalls (machine : Machine (Recorded σ)) (made : Array Nat → Nat → Call → Prop) : Prop :=
  ∀ assignment frontier memory, ∃ new : List Call,
    (machine.test assignment frontier memory).memory.calls = memory.calls ++ new ∧
      ∀ call ∈ new, made assignment frontier call

section Calls

variable {machine : Machine (Recorded σ)} {state next : SearchState (Recorded σ)}
  {made : Array Nat → Nat → Call → Prop}

private theorem StackInvariant.calls_of_ended (hinv : StackInvariant machine state)
    {status : Status} {last : SearchState (Recorded σ)}
    (hlast : machine.step state = .ended status last) : last.memory = state.memory := by
  obtain ⟨candidates, rfl⟩ := (hinv.step_eq_ended_iff.1 hlast).exists_candidates
  rfl

/-- A tried value adds its calls to the record. -/
private theorem AddsCalls.tested (hadds : machine.AddsCalls made)
    (state : SearchState (Recorded σ)) (value : Nat) :
    state.memory.calls <+: (machine.tested state value).memory.calls := by
  obtain ⟨new, hnew, -⟩ := hadds (machine.assign state value).buffer (state.frontier + 1)
    state.memory
  exact ⟨new, hnew.symm⟩

private theorem AddsCalls.step (hadds : machine.AddsCalls made) (hinv : StackInvariant machine state)
    (hnext : machine.step state = .onward next) :
    state.memory.calls <+: next.memory.calls := by
  cases hinv.step_eq_onward_iff.1 hnext with
  | back _ _ _ => exact List.prefix_rfl
  | rejected value _ _ _ => exact hadds.tested state value
  | accepted value _ _ _ => exact hadds.tested state value

/-- The record only grows. -/
private theorem AddsCalls.attempt (hadds : machine.AddsCalls made)
    (hinv : StackInvariant machine state) {attempt : SearchState (Recorded σ)}
    (hattempt : attempt ∈ machine.attempts state) :
    state.memory.calls <+: attempt.memory.calls := by
  obtain ⟨j, hj⟩ := List.getElem?_of_mem hattempt
  refine (attempt_induction (motive := fun _ later => StackInvariant machine later ∧
    state.memory.calls <+: later.memory.calls) ?_ ⟨hinv, List.prefix_rfl⟩ hj).2
  rintro _ later next ⟨hinv, hprefix⟩ hnext
  exact ⟨hinv.step hnext, hprefix.trans (hadds.step hinv hnext)⟩

private theorem AddsCalls.run (hadds : machine.AddsCalls made)
    (hinv : StackInvariant machine state) :
    state.memory.calls <+: (machine.run state).state.memory.calls := by
  induction state using Machine.run.induct machine with
  | case1 state next hnext ih =>
      rw [run_of_onward hnext]
      exact (hadds.step hinv hnext).trans (ih (hinv.step hnext))
  | case2 state status last hlast =>
      rw [run_of_ended hlast]
      exact hinv.calls_of_ended hlast ▸ List.prefix_rfl
  | case3 state fault last hlast =>
      obtain ⟨value, -, -, -, rfl⟩ := hinv.broken_by_test hlast
      rw [run_of_broken hlast]
      exact hadds.tested state value

/-- The attempt that a turn is makes the calls that the turn adds. -/
private theorem AddsCalls.call_of_tried (hadds : machine.AddsCalls made) {value i : Nat}
    (hvalue : machine.nextValue? state = some value) {call : Call}
    (hcall : (machine.tested state value).memory.calls[i]? = some call)
    (hold : state.memory.calls.length ≤ i) :
    made (machine.afterWrite state).buffer (state.frontier + 1) call := by
  obtain ⟨new, hnew, hmade⟩ := hadds (machine.assign state value).buffer (state.frontier + 1)
    state.memory
  have hcalls : (machine.tested state value).memory.calls = state.memory.calls ++ new := hnew
  rw [hcalls, List.getElem?_append_right hold] at hcall
  have hwrite : machine.afterWrite state = machine.assign state value := by
    simp [afterWrite, written, hvalue]
  rw [hwrite]
  exact hmade call (List.mem_of_getElem? hcall)

/-- A call that is not on record before a tried value is made in this attempt or in a later one. -/
private theorem AddsCalls.call_of_onward (hadds : machine.AddsCalls made)
    (hinv : StackInvariant machine next) {value i : Nat} {call : Call}
    (hvalue : machine.nextValue? state = some value)
    (hmemory : next.memory = (machine.tested state value).memory)
    (hcall : (machine.run next).state.memory.calls[i]? = some call)
    (hold : state.memory.calls.length ≤ i)
    (hlater : next.memory.calls.length ≤ i → ∃ j attempt,
      MadeIn (machine.attempts next) i j attempt ∧
        made (machine.afterWrite attempt).buffer (attempt.frontier + 1) call) :
    ∃ j attempt, MadeIn (state :: machine.attempts next) i j attempt ∧
      made (machine.afterWrite attempt).buffer (attempt.frontier + 1) call := by
  rcases Nat.lt_or_ge i next.memory.calls.length with hnew | hge
  · -- The call is one of those that the attempt adds, and the record only grows from then on.
    have hnextCall : (machine.tested state value).memory.calls[i]? = some call := by
      obtain ⟨rest, hrest⟩ := hadds.run hinv
      rw [← hrest, List.getElem?_append_left hnew, hmemory] at hcall
      exact hcall
    refine ⟨0, state, ⟨rfl, hold, ?_⟩, hadds.call_of_tried hvalue hnextCall hold⟩
    intro later hlater
    have hgrows := hadds.attempt hinv (List.mem_of_getElem? hlater)
    exact Nat.lt_of_lt_of_le hnew hgrows.length_le
  · obtain ⟨j, attempt, hmadeIn, hmade⟩ := hlater hge
    exact ⟨j + 1, attempt, ⟨hmadeIn.nth, hmadeIn.since, hmadeIn.beforeNext⟩, hmade⟩

/-- Every call of a run is made in one of its attempts, under the assignment after the write. -/
theorem AddsCalls.call_of_run (hadds : machine.AddsCalls made)
    (hinv : StackInvariant machine state) {i : Nat} {call : Call}
    (hcall : (machine.run state).state.memory.calls[i]? = some call)
    (hold : state.memory.calls.length ≤ i) :
    ∃ j attempt, MadeIn (machine.attempts state) i j attempt ∧
      made (machine.afterWrite attempt).buffer (attempt.frontier + 1) call := by
  induction state using Machine.run.induct machine with
  | case1 state next hnext ih =>
      rw [run_of_onward hnext] at hcall
      rw [attempts_of_onward hnext]
      have hinv' := hinv.step hnext
      cases hinv.step_eq_onward_iff.1 hnext with
      | back _ _ hvalue =>
          rw [tries_of_nextValue_none hvalue]
          exact ih hinv' hcall hold
      | rejected value hvalue hfree _ =>
          rw [tries_of_tried hvalue hfree, if_pos rfl, List.singleton_append]
          exact hadds.call_of_onward hinv' hvalue rfl hcall hold (ih hinv' hcall)
      | accepted value hvalue hfree _ =>
          rw [tries_of_tried hvalue hfree, if_pos rfl, List.singleton_append]
          exact hadds.call_of_onward hinv' hvalue rfl hcall hold (ih hinv' hcall)
  | case2 state status last hlast =>
      rw [run_of_ended hlast, hinv.calls_of_ended hlast, List.getElem?_eq_none hold] at hcall
      cases hcall
  | case3 state fault last hlast =>
      obtain ⟨value, hvalue, hfree, -, rfl⟩ := hinv.broken_by_test hlast
      rw [run_of_broken hlast] at hcall
      rw [attempts_of_broken hlast, tries_of_tried hvalue hfree, if_pos rfl]
      refine ⟨0, state, ⟨rfl, hold, ?_⟩, hadds.call_of_tried hvalue hcall hold⟩
      intro later hlater
      cases hlater

end Calls

end Machine

/-! ## Every call of a search -/

namespace Search

theorem addsCalls_recording (search : Search σ κ) :
    search.recording.machine.AddsCalls fun assignment frontier call =>
      call.buffer = assignment ∧ ∃ constraint,
        search.problem.slots[call.slot]? = some (some constraint) ∧
          constraint.isApplicable frontier = true := by
  intro assignment frontier memory
  exact search.problem.exists_calls_of_scan_recording assignment search.context frontier memory

/-- Before anything is tried the branch is empty. -/
theorem initial_onBranch (search : Search σ κ) (buffer : Array Nat) (memory : σ)
    (log : Array Message) :
    search.machine.OnBranch buffer [] search.start (search.initial buffer memory log) where
  entry := by
    intro depth hdepth
    have hnone : search.start - search.machine.start = 0 := Nat.sub_self _
    omega
  kept := fun _ _ => rfl

/-- A search that makes a call does begin, and the call is made in one of its attempts, to a
constraint that is applicable then. -/
theorem exists_attempt_of_call (search : Search σ κ) {buffer : Array Nat} {memory : σ}
    {build : Build} {library : Library} {i : Nat} {call : Call}
    (hcall : (search.recording.perform buffer { own := memory } build library).memory.calls[i]? =
      some call) :
    search.recording.Ready buffer build library ∧ ∃ j attempt,
      Machine.MadeIn (search.recording.attempts buffer { own := memory } library.log) i j attempt ∧
      call.buffer = (search.recording.machine.afterWrite attempt).buffer ∧ ∃ constraint,
        search.problem.slots[call.slot]? = some (some constraint) ∧
          constraint.isApplicable (attempt.frontier + 1) = true := by
  cases hobjection : search.recording.objection? build library.isActive buffer.size with
  | some fault =>
      simp only [perform, hobjection] at hcall
      cases hcall
  | none =>
      have hready := ready_of_objection?_eq_none hobjection
      rw [hready.perform_eq, memory_report] at hcall
      exact ⟨hready, search.addsCalls_recording.call_of_run
        (hready.stackInvariant { own := memory } library.log) hcall (Nat.zero_le i)⟩

/-- **No checker sees a stale value.**  Whatever the checkers do, whatever the limits are and
whatever stops the search, each of its calls is made in some attempt and sees the buffer as this
leaves it.  If the attempt writes the slot of variable `k`, then all variables of the constraint are
at most `k`, and `k` is a variable of the problem, so none of them is out of bounds.  A variable
below the start has the value that the caller gave it.  Every other one has its value in the branch
of the attempts so far: this is the candidate that is tried for it, as the stack has it too, and it
is below the size of the domain. -/
theorem calls_see_branch (search : Search σ κ) (buffer : Array Nat) (memory : σ) (build : Build)
    (library : Library) :
    let machine := search.recording.machine
    let noting := search.recording.perform buffer { own := memory } build library
    let attempts := search.recording.attempts buffer { own := memory } library.log
    noting.map Recorded.own = search.perform buffer memory build library ∧
    ∀ i call, noting.memory.calls[i]? = some call →
      ∃ j attempt constraint, Machine.MadeIn attempts i j attempt ∧
        search.problem.slots[call.slot]? = some (some constraint) ∧
        call.buffer = (machine.afterWrite attempt).buffer ∧
        attempt.frontier < search.problem.domains.size ∧
        call.buffer.size = search.problem.domains.size ∧
        ∀ v ∈ constraint.scope, v ≤ attempt.frontier ∧
          (v < search.start → ∃ value, buffer[v]? = some value ∧
            Checker.valueAt call.buffer v = .ok value) ∧
          (search.start ≤ v → ∃ value size,
            (branch search.start ((attempts.take (j + 1)).map machine.written))[v - search.start]? =
              some value ∧
            (machine.afterWrite attempt).candidates[v - search.start]? = some (value + 1) ∧
            search.problem.domains[v]? = some size ∧ value < size ∧
            Checker.valueAt call.buffer v = .ok value) := by
  intro machine noting attempts
  refine ⟨search.perform_recording buffer memory build library, ?_⟩
  intro i call hcall
  -- Every recorded call was made in the test of some attempt, and the constraint was applicable
  -- then.
  obtain ⟨hready, j, attempt, hmadeIn, hbuffer, constraint, hslot, happlicable⟩ :=
    search.exists_attempt_of_call hcall
  have hinv := hready.stackInvariant { own := memory } library.log
  have hinitial := search.recording.initial_onBranch buffer { own := memory } library.log
  obtain ⟨hinv', honBranch⟩ := hinitial.attempt hinv hmadeIn.nth
  -- The test is made after the write, when the value tried belongs to the branch.
  have hwrite := honBranch.assign hinv' (machine.written attempt).2
  have hscope := (constraint.isApplicable_iff _).1 happlicable
  refine ⟨j, attempt, constraint, hmadeIn, hslot, hbuffer, Machine.frontier_lt_of_mem_attempts
    (List.mem_of_getElem? hmadeIn.nth), ?_, ?_⟩
  · rw [hbuffer]
    exact (Array.size_setIfInBounds ..).trans hinv'.buffer_size
  · intro v hv
    have hle := Nat.le_of_lt_succ (hscope v hv)
    refine ⟨hle, ?_, ?_⟩
    · intro hbelow
      have hlt : v < buffer.size := by
        rw [hready.length]
        exact Nat.lt_of_lt_of_le hbelow hready.start_le
      have hkept : call.buffer[v]? = some buffer[v] := by
        rw [hbuffer, ← Array.getElem?_eq_getElem hlt]
        exact hwrite.kept v hbelow
      exact ⟨buffer[v], Array.getElem?_eq_getElem hlt, Checker.valueAt_of_getElem? hkept⟩
    · intro hstart
      obtain ⟨candidate, size, hbranch, hcandidate, hsize, hless, hvalue⟩ :=
        hinitial.bound_afterWrite hinv hmadeIn.nth hstart hle
      rw [← hbuffer] at hvalue
      exact ⟨candidate, size, hbranch, hcandidate, hsize, hless,
        Checker.valueAt_of_getElem? hvalue⟩

/-- The fourth call of the fickle search is made as it tries another value for the first variable,
while the buffer still holds a value of the branch given up. -/
theorem calls_see_branch_fickle :
    let machine := fickle.recording.machine
    let noting := fickle.recording.perform #[0, 7] { own := 0 } .unchecked {}
    let attempts := fickle.recording.attempts #[0, 7] { own := 0 } #[]
    noting.memory.calls[3]? = some ⟨0, #[1, 1]⟩ ∧
      ∃ j attempt, Machine.MadeIn attempts 3 j attempt ∧
        (branch 0 ((attempts.take (j + 1)).map machine.written))[0]? = some 1 ∧
        (machine.afterWrite attempt).candidates[0]? = some 2 := by
  intro machine noting attempts
  have hcall : noting.memory.calls[3]? = some ⟨0, #[1, 1]⟩ := by decide +kernel
  obtain ⟨j, attempt, constraint, hmadeIn, hslot, -, -, -, hscope⟩ :=
    (calls_see_branch fickle #[0, 7] 0 .unchecked {}).2 3 ⟨0, #[1, 1]⟩ hcall
  obtain rfl := Option.some.inj (Option.some.inj hslot)
  obtain ⟨value, size, hbranch, hcandidate, -, -, hvalue⟩ :=
    (hscope 0 List.mem_cons_self).2.2 (Nat.le_refl 0)
  obtain rfl : 1 = value := Except.ok.inj hvalue
  exact ⟨hcall, j, attempt, hmadeIn, hbranch, hcandidate⟩

end Search

end ConstraintSearch
