import ConstraintSearch.Proofs.Problem.Viable
import ConstraintSearch.Proofs.Search.Branch
import ConstraintSearch.Proofs.Search.LeastExtension
import ConstraintSearch.Proofs.Search.Turn

/-!
# What a turn does to the bound variables

With local checkers and without limits, a turn is one of five moves (`Move`).  Let the cursor be the
tuple of the bound variables, with the next value of the variable in turn behind.  If that value is
in its domain, the turn tries the cursor, and goes on behind it if it is viable and otherwise right
after it.  If not, the turn steps back to the variable before, and if there is none, the search ends.

Between two turns the bound variables always have viable values (`Explores.step`).

| move | cursor | then |
|---|---|---|
| solved | -- | no variable is in turn |
| tried, rejected | `front ++ [value]` | `front ++ [value + 1]` |
| tried, accepted | `front ++ [value]` | `front ++ [value, 0]` |
| step back | `front ++ [last, value]` | `front ++ [last + 1]` |
| exhausted | `[value]` | nothing is left |

In the last two the value is not in its domain any more.  `Tries`, `Rejects`, `Accepts` and `StepsBack`
hold these facts, with the counters, so that `Proofs.Search.Tour` need not look into the machine.
-/

namespace ConstraintSearch

variable {σ κ : Type}

namespace Machine

variable {machine : Machine σ} {state next : SearchState σ} {value : Nat}

/-- The values of the bound variables from the start on. -/
def bound (machine : Machine σ) (state : SearchState σ) : List Nat :=
  (state.buffer.toList.take state.frontier).drop machine.start

/-- The tuple that an attempt makes: the values, after its write, of the variables from the start up
to the one whose slot it writes. -/
def tuple (machine : Machine σ) (attempt : SearchState σ) : List Nat :=
  ((machine.afterWrite attempt).buffer.toList.take (attempt.frontier + 1)).drop machine.start

/-- The values of the bound variables, and the next one for the variable in turn. -/
def cursor (machine : Machine σ) (state : SearchState σ) : List Nat :=
  machine.bound state ++ [(state.candidates[state.frontier - machine.start]?).getD 0]

theorem StackInvariant.length_bound (hinv : StackInvariant machine state) :
    (machine.bound state).length = state.frontier - machine.start := by
  have hle := hinv.frontier_le
  have hsize := hinv.buffer_size
  simp only [Machine.bound, List.length_drop, List.length_take, Array.length_toList]
  omega

/-- The value of a variable stands behind those of the variables before it. -/
theorem drop_take_succ {buffer : Array Nat} {start frontier : Nat} (hstart : start ≤ frontier)
    (hvalue : buffer[frontier]? = some value) :
    (buffer.toList.take (frontier + 1)).drop start =
      (buffer.toList.take frontier).drop start ++ [value] := by
  have hlt : frontier < buffer.toList.length := by
    rw [Array.length_toList]
    exact (Array.getElem?_eq_some_iff.1 hvalue).1
  rw [List.take_add_one, Array.getElem?_toList, hvalue, List.drop_append_of_le_length]
  · rfl
  · rw [List.length_take, Nat.min_eq_left (Nat.le_of_lt hlt)]
    exact hstart

theorem take_assign (machine : Machine σ) (state : SearchState σ) (value : Nat) :
    (machine.assign state value).buffer.toList.take state.frontier =
      state.buffer.toList.take state.frontier := by
  simp only [Machine.assign, Array.toList_setIfInBounds]
  exact List.take_set_of_le (Nat.le_refl _)

/-- A write puts its value behind those of the bound variables. -/
theorem StackInvariant.bound_assign (hinv : StackInvariant machine state)
    (hlt : state.frontier < machine.domains.size) (value : Nat) :
    ((machine.assign state value).buffer.toList.take (state.frontier + 1)).drop machine.start =
      machine.bound state ++ [value] := by
  have hvalue : (machine.assign state value).buffer[state.frontier]? = some value := by
    simp only [Machine.assign]
    exact Array.getElem?_setIfInBounds_self_of_lt (hinv.buffer_size ▸ hlt)
  rw [drop_take_succ hinv.start_le hvalue, take_assign]
  rfl

theorem StackInvariant.tuple_eq (hinv : StackInvariant machine state)
    (hvalue : machine.nextValue? state = some value) :
    machine.tuple state = machine.bound state ++ [value] := by
  obtain ⟨-, size, hsize, -⟩ := nextValue?_eq_some hvalue
  have hwritten : machine.written state = (state.frontier, value) := by simp [written, hvalue]
  rw [tuple, afterWrite, hwritten]
  exact hinv.bound_assign (Array.getElem?_eq_some_iff.1 hsize).1 value

theorem cursor_of_candidate
    (hcandidate : state.candidates[state.frontier - machine.start]? = some value) :
    machine.cursor state = machine.bound state ++ [value] := by
  rw [cursor, hcandidate]
  rfl

end Machine

namespace Search

variable {search : Search σ κ} {fixed : List Nat} {state next : SearchState σ} {value size : Nat}

/-- Between two turns the bound variables have viable values. -/
structure Explores (search : Search σ κ) (fixed : List Nat) (state : SearchState σ) : Prop where
  inv : search.machine.StackInvariant state
  length : fixed.length = search.start
  fixed_prefix : fixed <+: state.buffer.toList
  viable : search.problem.Viable search.context fixed (search.machine.bound state)

/-- The variable in turn has run out of values, and the one before, which has the value `before`,
comes in turn again. -/
structure StepsBack (search : Search σ κ) (state : SearchState σ) (before value : Nat)
    (next : SearchState σ) : Prop where
  step : search.machine.step state = .onward next
  tries : search.machine.tries state = false
  frontier : state.frontier = next.frontier + 1
  bound : search.machine.bound state = search.machine.bound next ++ [before]
  cursor : search.machine.cursor state = search.machine.bound state ++ [value]
  spent : ∃ size, search.problem.domains[state.frontier]? = some size ∧ size ≤ value
  cursor_next : search.machine.cursor next = search.machine.bound next ++ [before + 1]
  buffer : next.buffer = state.buffer
  backtracks : next.backtracks = state.backtracks + 1
  maxDepth : next.maxDepth = state.maxDepth

/-- The value is tried for the variable in turn. -/
structure Tries (search : Search σ κ) (fixed : List Nat) (state : SearchState σ) (value : Nat)
    (next : SearchState σ) : Prop where
  step : search.machine.step state = .onward next
  tries : search.machine.tries state = true
  cursor : search.machine.cursor state = search.machine.bound state ++ [value]
  tuple : search.machine.tuple state = search.machine.cursor state
  left : ∃ size, search.problem.domains[state.frontier]? = some size ∧ value < size
  fixed_prefix : fixed <+: next.buffer.toList
  backtracks : next.backtracks = state.backtracks

/-- The value is tried, and the tuple that it makes is not viable. -/
structure Rejects (search : Search σ κ) (fixed : List Nat) (state : SearchState σ) (value : Nat)
    (next : SearchState σ) : Prop extends search.Tries fixed state value next where
  not_viable : ¬search.problem.Viable search.context fixed (search.machine.cursor state)
  frontier : next.frontier = state.frontier
  bound : search.machine.bound next = search.machine.bound state
  cursor_next : search.machine.cursor next = search.machine.bound state ++ [value + 1]
  maxDepth : next.maxDepth = state.maxDepth

/-- The value is tried, and the tuple that it makes is viable. -/
structure Accepts (search : Search σ κ) (fixed : List Nat) (state : SearchState σ) (value : Nat)
    (next : SearchState σ) : Prop extends search.Tries fixed state value next where
  viable : search.problem.Viable search.context fixed (search.machine.cursor state)
  frontier : next.frontier = state.frontier + 1
  bound : search.machine.bound next = search.machine.cursor state
  cursor_next : search.machine.cursor next = search.machine.cursor state ++ [0]
  maxDepth : next.maxDepth = max state.maxDepth (state.frontier + 1)

/-- What a turn does to the bound variables and to the cursor, by what it leads to. -/
inductive Move (search : Search σ κ) (fixed : List Nat) (state : SearchState σ) : Turn σ → Prop where
  /-- All variables are bound. -/
  | solved (hfrontier : state.frontier = search.problem.domains.size)
      (htries : search.machine.tries state = false) : Move search fixed state (.ended .solved state)
  /-- The first variable has run out of values. -/
  | exhausted (last : SearchState σ) (value : Nat) (hfrontier : state.frontier = search.start)
      (hcursor : search.machine.cursor state = [value])
      (hspent : ∃ size, search.problem.domains[search.start]? = some size ∧ size ≤ value)
      (htries : search.machine.tries state = false)
      (hbacktracks : last.backtracks = state.backtracks)
      (hmaxDepth : last.maxDepth = state.maxDepth) : Move search fixed state (.ended .exhausted last)
  | back (before value : Nat) (next : SearchState σ)
      (hback : search.StepsBack state before value next) : Move search fixed state (.onward next)
  | rejected (value : Nat) (next : SearchState σ)
      (hrejects : search.Rejects fixed state value next) : Move search fixed state (.onward next)
  | accepted (value : Nat) (next : SearchState σ)
      (haccepts : search.Accepts fixed state value next) : Move search fixed state (.onward next)

/-! ## The test -/

/-- With local checkers, the test tells whether the assignment is accepted up to the frontier. -/
theorem test_of_local (hvalid : search.problem.flaw? = none)
    (hlocal : search.problem.Local search.context) {assignment : Array Nat}
    (hsize : assignment.size = search.problem.domains.size) (frontier : Nat) (memory : σ) :
    ∃ accepted, (search.machine.test assignment frontier memory).answer = .ok accepted ∧
      (accepted = true ↔ search.problem.AcceptsUpTo search.context frontier assignment) := by
  obtain ⟨accepted, checks, after, hjudge, haccepted⟩ :=
    judge_of_local hvalid hlocal frontier { buffer := assignment, maxDepth := 0, memory } hsize
  refine ⟨accepted, ?_, haccepted⟩
  simp only [Machine.judge, Scan.result] at hjudge
  split at hjudge
  · rename_i hanswer
    injection hjudge with hsame
    rw [hanswer, hsame]
  · cases hjudge

/-- A write leaves the values below the frontier as they are, and so the constraints on them go on
accepting. -/
theorem acceptsUpTo_assign (hlocal : search.problem.Local search.context)
    (hinv : search.machine.StackInvariant state) (value : Nat)
    (haccepted : search.problem.AcceptsUpTo search.context state.frontier state.buffer) :
    search.problem.AcceptsUpTo search.context state.frontier
      (search.machine.assign state value).buffer := by
  have hsize : state.buffer.size = search.problem.domains.size := hinv.buffer_size
  have hlength : (state.buffer.toList.take state.frontier).length = state.frontier := by
    rw [List.length_take, Array.length_toList, hsize]
    exact Nat.min_eq_left hinv.frontier_le
  have hcommon : state.buffer.toList.take state.frontier <+:
      (search.machine.assign state value).buffer.toList := by
    rw [← Machine.take_assign search.machine state value]
    exact List.take_prefix _ _
  rw [← hlength] at haccepted ⊢
  exact haccepted.of_common hlocal (List.take_prefix _ _) hcommon hsize (hinv.size_assign value)

theorem Explores.start_le (h : search.Explores fixed state) : search.start ≤ state.frontier :=
  h.inv.start_le

theorem Explores.fixed_le (h : search.Explores fixed state) :
    fixed.length ≤ search.problem.domains.size :=
  h.length ▸ Nat.le_trans h.start_le h.inv.frontier_le

theorem Explores.length_bound (h : search.Explores fixed state) :
    fixed.length + (search.machine.bound state).length = state.frontier := by
  have hlength : (search.machine.bound state).length = state.frontier - search.start :=
    h.inv.length_bound
  have hstart := h.start_le
  rw [h.length]
  omega

/-- The buffer holds the fixed values, and behind them those of the bound variables. -/
theorem Explores.take_frontier (h : search.Explores fixed state) :
    state.buffer.toList.take state.frontier = fixed ++ search.machine.bound state := by
  have hfixed : (state.buffer.toList.take state.frontier).take fixed.length = fixed := by
    rw [List.take_take, Nat.min_eq_left (h.length ▸ h.start_le)]
    exact (List.prefix_iff_eq_take.1 h.fixed_prefix).symm
  have hbound : (state.buffer.toList.take state.frontier).drop fixed.length =
      search.machine.bound state := by
    rw [h.length]
    rfl
  rw [← List.take_append_drop fixed.length (state.buffer.toList.take state.frontier), hfixed, hbound]

/-- Writes go behind the fixed values. -/
theorem Explores.fixed_assign (h : search.Explores fixed state) (value : Nat) :
    fixed <+: (search.machine.assign state value).buffer.toList := by
  have hfixed : fixed <+: state.buffer.toList.take state.frontier := by
    rw [h.take_frontier]
    exact List.prefix_append _ _
  rw [← Machine.take_assign search.machine state value] at hfixed
  exact hfixed.trans (List.take_prefix _ _)

/-- The test of the next value tells whether the tuple that it makes is viable. -/
private theorem Explores.test (hvalid : search.problem.flaw? = none)
    (hlocal : search.problem.Local search.context) (h : search.Explores fixed state)
    (hsize : search.problem.domains[state.frontier]? = some size) (hless : value < size) :
    ∃ accepted,
      (search.machine.test (search.machine.assign state value).buffer (state.frontier + 1)
        state.memory).answer = .ok accepted ∧
      (accepted = true ↔ search.problem.Viable search.context fixed
        (search.machine.bound state ++ [value])) := by
  have hlt : state.frontier < search.problem.domains.size := (Array.getElem?_eq_some_iff.1 hsize).1
  have hcount : (search.machine.assign state value).buffer.size = search.problem.domains.size :=
    h.inv.size_assign value
  obtain ⟨accepted, hanswer, haccepted⟩ :=
    test_of_local hvalid hlocal hcount (state.frontier + 1) state.memory
  refine ⟨accepted, hanswer, haccepted.trans ?_⟩
  have hwritten : (search.machine.assign state value).buffer[state.frontier]? = some value := by
    simp only [Machine.assign]
    exact Array.getElem?_setIfInBounds_self_of_lt (h.inv.buffer_size ▸ hlt)
  have hbound : fixed ++ (search.machine.bound state ++ [value]) <+:
      (search.machine.assign state value).buffer.toList := by
    have htake := Machine.drop_take_succ (Nat.zero_le _) hwritten
    rw [List.drop_zero, List.drop_zero, Machine.take_assign, h.take_frontier,
      List.append_assoc] at htake
    rw [← htake]
    exact List.take_prefix _ _
  have hlength : (fixed ++ (search.machine.bound state ++ [value])).length = state.frontier + 1 := by
    rw [← h.length_bound]
    simp only [List.length_append, List.length_singleton]
    omega
  rw [← hlength, ← Problem.acceptsBound_iff hlocal hcount hbound]
  have hfits : search.problem.Fits fixed (search.machine.bound state ++ [value]) :=
    h.viable.fits.concat (h.length_bound.symm ▸ hsize) hless
  simp [Problem.Viable, hfits]

/-! ## The moves -/

/-- Without a next value, the variable in turn has run out of values. -/
private theorem Explores.spent (h : search.Explores fixed state)
    (hlt : state.frontier < search.problem.domains.size)
    (hvalue : search.machine.nextValue? state = none) :
    ∃ value, search.machine.cursor state = search.machine.bound state ++ [value] ∧
      ∃ size, search.problem.domains[state.frontier]? = some size ∧ size ≤ value := by
  have hsize : search.machine.domains[state.frontier]? =
      some search.problem.domains[state.frontier] := Array.getElem?_eq_getElem hlt
  obtain ⟨value, -, hcandidate⟩ := h.inv.inTurn _ hsize
  refine ⟨value, Machine.cursor_of_candidate hcandidate, _, hsize, ?_⟩
  apply Nat.le_of_not_lt
  intro hless
  simp only [Machine.nextValue?, hcandidate, hsize, if_pos hless] at hvalue
  cases hvalue

private theorem Explores.move_exhausted (h : search.Explores fixed state)
    (hlt : state.frontier < search.problem.domains.size)
    (hvalue : search.machine.nextValue? state = none)
    (hfirst : state.frontier = search.start) :
    search.Move fixed state (search.machine.step state) := by
  obtain ⟨value, hcursor, size, hsize, hspent⟩ := h.spent hlt hvalue
  have hnil : search.machine.bound state = [] := by
    apply List.eq_nil_of_length_eq_zero
    have hlength := h.length_bound
    have hfixed := h.length
    omega
  rw [hnil, List.nil_append] at hcursor
  have hending : search.machine.Ending state .exhausted
      { state with candidates := state.candidates.pop } := .exhausted hlt hfirst hvalue
  rw [hending.step h.inv]
  exact .exhausted _ value hfirst hcursor ⟨size, hfirst ▸ hsize, hspent⟩
    (Machine.tries_of_nextValue_none hvalue) rfl rfl

private theorem Explores.move_back (h : search.Explores fixed state)
    (hlt : state.frontier < search.problem.domains.size)
    (hvalue : search.machine.nextValue? state = none)
    (hfirst : state.frontier ≠ search.start) :
    search.Move fixed state (search.machine.step state) := by
  obtain ⟨value, hcursor, hspent⟩ := h.spent hlt hvalue
  have hstart : search.start < state.frontier := Nat.lt_of_le_of_ne h.start_le (Ne.symm hfirst)
  have hback : search.machine.Onward state state.steppedBack := .back hlt hstart hvalue
  have hfrontier : state.frontier - 1 + 1 = state.frontier :=
    Nat.sub_add_cancel (Nat.one_le_of_lt hstart)
  obtain ⟨before, _, hbefore, -, -, hentry⟩ :=
    h.inv.bound (state.frontier - 1) (Nat.le_sub_one_of_lt hstart) (by omega)
  have hcount : state.candidates.size = state.frontier - search.start + 1 := h.inv.candidates_size
  have hentry' : state.candidates.pop[state.frontier - 1 - search.start]? = some (before + 1) := by
    rw [Array.getElem?_pop, if_pos (by omega)]
    exact hentry
  have hbound : search.machine.bound state =
      search.machine.bound state.steppedBack ++ [before] := by
    have htake := Machine.drop_take_succ (Nat.le_sub_one_of_lt hstart) hbefore
    rw [hfrontier] at htake
    exact htake
  rw [hback.step h.inv]
  exact .back before value _
    { step := hback.step h.inv
      tries := Machine.tries_of_nextValue_none hvalue
      frontier := hfrontier.symm
      bound := hbound
      cursor := hcursor
      spent := hspent
      cursor_next := Machine.cursor_of_candidate hentry'
      buffer := rfl
      backtracks := rfl
      maxDepth := rfl }

section Tried

variable (hvalue : search.machine.nextValue? state = some value)
  (hreason : search.machine.interruption? state.nodes state.memory = none)
  (hstep : search.machine.step state = search.machine.tryValue state value)

include hvalue hreason hstep

private theorem Explores.tries (h : search.Explores fixed state)
    (hnext : search.machine.tryValue state value = .onward next)
    (hbuffer : next.buffer = (search.machine.assign state value).buffer)
    (hbacktracks : next.backtracks = state.backtracks) : search.Tries fixed state value next := by
  obtain ⟨hcandidate, hleft⟩ := Machine.nextValue?_eq_some hvalue
  have hcursor := Machine.cursor_of_candidate hcandidate
  exact
    { step := hstep.trans hnext
      tries := Machine.tries_of_tried hvalue hreason
      cursor := hcursor
      tuple := (h.inv.tuple_eq hvalue).trans hcursor.symm
      left := hleft
      fixed_prefix := hbuffer ▸ h.fixed_assign value
      backtracks := hbacktracks }

private theorem Explores.move_rejected (h : search.Explores fixed state)
    (hanswer : (search.machine.probe state value).answer = .ok false)
    (hnot : ¬search.problem.Viable search.context fixed (search.machine.cursor state)) :
    search.Move fixed state (search.machine.step state) := by
  have hnext : search.machine.tryValue state value =
      .onward (search.machine.tested state value) := by
    rw [Machine.tryValue_eq, hanswer]
  -- The value is written at the frontier, which stays, so no more variables are bound; the entry of
  -- the variable in turn goes up by one.
  have hbound : search.machine.bound (search.machine.tested state value) =
      search.machine.bound state :=
    congrArg (List.drop search.start) (Machine.take_assign search.machine state value)
  have hentry : (search.machine.tested state value).candidates[state.frontier - search.start]? =
      some (value + 1) := by
    obtain ⟨hcandidate, -⟩ := Machine.nextValue?_eq_some hvalue
    exact Array.getElem?_setIfInBounds_self_of_lt (Array.getElem?_eq_some_iff.1 hcandidate).1
  rw [hstep, hnext]
  exact .rejected value _
    { toTries := h.tries hvalue hreason hstep hnext rfl rfl
      not_viable := hnot
      frontier := rfl
      bound := hbound
      cursor_next := hbound ▸ Machine.cursor_of_candidate hentry
      maxDepth := rfl }

private theorem Explores.move_accepted (h : search.Explores fixed state)
    (hanswer : (search.machine.probe state value).answer = .ok true)
    (hviable : search.problem.Viable search.context fixed (search.machine.cursor state)) :
    search.Move fixed state (search.machine.step state) := by
  have hnext : search.machine.tryValue state value =
      .onward (search.machine.descended state value) := by
    rw [Machine.tryValue_eq, hanswer]
  have htries := h.tries hvalue hreason hstep hnext rfl rfl
  obtain ⟨size, hsize, -⟩ := htries.left
  have hstart := h.start_le
  have hcount : (search.machine.assign state value).candidates.size =
      state.frontier - search.start + 1 :=
    (Array.size_setIfInBounds ..).trans h.inv.candidates_size
  have hbound : search.machine.bound (search.machine.descended state value) =
      search.machine.cursor state :=
    (h.inv.bound_assign (Array.getElem?_eq_some_iff.1 hsize).1 value).trans htries.cursor.symm
  have hentry : (search.machine.descended state value).candidates[
      state.frontier + 1 - search.start]? = some 0 := by
    simp only [Machine.descended]
    rw [Array.getElem?_push, if_pos (by omega)]
  rw [hstep, hnext]
  exact .accepted value _
    { toTries := htries
      viable := hviable
      frontier := rfl
      bound := hbound
      cursor_next := hbound ▸ Machine.cursor_of_candidate hentry
      maxDepth := rfl }

private theorem Explores.move_tried (hvalid : search.problem.flaw? = none)
    (hlocal : search.problem.Local search.context) (h : search.Explores fixed state) :
    search.Move fixed state (search.machine.step state) := by
  obtain ⟨hcandidate, size, hsize, hless⟩ := Machine.nextValue?_eq_some hvalue
  obtain ⟨accepted, hanswer, haccepted⟩ := h.test hvalid hlocal hsize hless
  rw [← show search.machine.cursor state = search.machine.bound state ++ [value] from
    Machine.cursor_of_candidate hcandidate] at haccepted
  cases accepted with
  | false => exact h.move_rejected hvalue hreason hstep hanswer (by simpa using haccepted)
  | true => exact h.move_accepted hvalue hreason hstep hanswer (haccepted.1 rfl)

end Tried

/-- With local checkers and without limits, a turn is one of the five moves. -/
theorem Explores.move (hvalid : search.problem.flaw? = none) (hunlimited : search.Unlimited)
    (hlocal : search.problem.Local search.context) (h : search.Explores fixed state) :
    search.Move fixed state (search.machine.step state) := by
  cases h.inv.turnCase with
  | solved hfrontier hvalue hstep =>
      rw [hstep]
      exact .solved hfrontier (Machine.tries_of_nextValue_none hvalue)
  | back hlt hvalue _ =>
      by_cases hfirst : state.frontier = search.start
      · exact h.move_exhausted hlt hvalue hfirst
      · exact h.move_back hlt hvalue hfirst
  | interrupted value status hvalue hreason hstep =>
      rw [hunlimited.interruption?_eq_none] at hreason
      cases hreason
  | tried value hvalue hreason hstep => exact h.move_tried hvalue hreason hstep hvalid hlocal

/-- The bound variables keep viable values. -/
theorem Explores.step (hvalid : search.problem.flaw? = none) (hunlimited : search.Unlimited)
    (hlocal : search.problem.Local search.context) (h : search.Explores fixed state)
    (hnext : search.machine.step state = .onward next) : search.Explores fixed next := by
  have hinv := h.inv.step hnext
  have hmove := h.move hvalid hunlimited hlocal
  rw [hnext] at hmove
  cases hmove with
  | back before value _ hback =>
      exact ⟨hinv, h.length, hback.buffer ▸ h.fixed_prefix,
        h.viable.of_prefix hlocal h.fixed_le (hback.bound ▸ List.prefix_append _ _)⟩
  | rejected value _ hrejects =>
      exact ⟨hinv, h.length, hrejects.fixed_prefix, hrejects.bound ▸ h.viable⟩
  | accepted value _ haccepts =>
      exact ⟨hinv, h.length, haccepts.fixed_prefix, haccepts.bound ▸ haccepts.viable⟩

/-- At first no variable is bound. -/
theorem Ready.explores {buffer : Array Nat} {build : Build} {library : Library}
    (hready : search.Ready buffer build library) (memory : σ) (log : Array Message) :
    search.Explores (buffer.toList.take search.start) (search.initial buffer memory log) where
  inv := hready.stackInvariant memory log
  length := by
    rw [List.length_take, Array.length_toList, hready.length]
    exact Nat.min_eq_left hready.start_le
  fixed_prefix := List.take_prefix _ _
  viable := by
    refine .inl ?_
    apply List.eq_nil_of_length_eq_zero
    have hlength := (hready.stackInvariant memory log).length_bound
    exact hlength.trans (Nat.sub_self _)

end Search

end ConstraintSearch
