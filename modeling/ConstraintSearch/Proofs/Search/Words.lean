import ConstraintSearch.Proofs.Search.Accounting
import Mathlib.Logic.Relation

/-!
# Turns in words

The machine counts with numbers that have no bound, and its reads are tested.  `stepInWords` is the
turn that words allow: every sum and every difference is worked out by the build, so it is a fault or
goes round when it leaves the range of words, and every read is a fault when there is nothing to
read.

Neither happens on the way of a run whose counters are words at its end (`stepInWords_of_reaches`).
The candidates stay up to the sizes of their domains, the frontier stays up to the number of
variables, and the counters only grow (`countsLe_run`), so what they come to in the end bounds them
all the way.

## Strategy

* Each sum and each difference of a turn makes an index into the stack, a frontier, a candidate or a
  counter.
* Indices and frontiers are bounded by the number of variables, and candidates by the sizes of their
  domains, by the stack invariant; these are words.
* A counter after a turn is no greater than at the end of the run: `CountsLe` is kept by every turn
  and is transitive.
-/

namespace ConstraintSearch

namespace Build

/-- The difference of two words. -/
def subtract (build : Build) (a b : Nat) : Except Fault Nat :=
  if b ≤ a then .ok (a - b)
  else match build with
    | .checked => .error (.overflow .subtract)
    | .unchecked => .ok (wordCount + a - b)

theorem subtract_of_le (build : Build) {a b : Nat} (h : b ≤ a) :
    build.subtract a b = .ok (a - b) :=
  if_pos h

end Build

variable {σ : Type}

/-- No counter of the state is above that of the later one. -/
structure SearchState.CountsLe (state later : SearchState σ) : Prop where
  nodes : state.nodes ≤ later.nodes
  checks : state.checks ≤ later.checks
  backtracks : state.backtracks ≤ later.backtracks

theorem SearchState.CountsLe.trans {state later last : SearchState σ}
    (h : state.CountsLe later) (h' : later.CountsLe last) : state.CountsLe last :=
  ⟨Nat.le_trans h.nodes h'.nodes, Nat.le_trans h.checks h'.checks,
    Nat.le_trans h.backtracks h'.backtracks⟩

/-- The list of the variables finds room, and the sizes of their domains are words. -/
structure InWords (domains : Array Nat) : Prop where
  room : hasRoom domains.size = true
  sizes : ∀ size ∈ domains, size < wordCount

theorem InWords.count_lt {domains : Array Nat} (h : InWords domains) :
    domains.size + 1 < wordCount := by
  have hroom : domains.size < 0xfffffffffffffff := of_decide_eq_true h.room
  unfold wordCount
  omega

namespace Machine

variable {machine : Machine σ} {state next later : SearchState σ} {value : Nat}

/-! ## Counters only grow -/

theorem Onward.countsLe (h : Onward machine state next) : state.CountsLe next := by
  cases h with
  | back _ _ _ => exact ⟨Nat.le_refl _, Nat.le_refl _, Nat.le_succ _⟩
  | rejected _ _ _ _ => exact ⟨Nat.le_succ _, Nat.le_add_right _ _, Nat.le_refl _⟩
  | accepted _ _ _ _ => exact ⟨Nat.le_succ _, Nat.le_add_right _ _, Nat.le_refl _⟩

theorem StackInvariant.countsLe_run (hinv : StackInvariant machine state) :
    state.CountsLe (machine.run state).state := by
  induction state using Machine.run.induct machine with
  | case1 state next hnext ih =>
      rw [run_of_onward hnext]
      exact (hinv.step_eq_onward_iff.1 hnext).countsLe.trans (ih (hinv.step hnext))
  | case2 state status last hlast =>
      obtain ⟨candidates, rfl⟩ := (hinv.step_eq_ended_iff.1 hlast).exists_candidates
      rw [run_of_ended hlast]
      exact ⟨Nat.le_refl _, Nat.le_refl _, Nat.le_refl _⟩
  | case3 state fault last hlast =>
      obtain ⟨value, -, -, -, rfl⟩ := hinv.broken_by_test hlast
      rw [run_of_broken hlast]
      exact ⟨Nat.le_succ _, Nat.le_add_right _ _, Nat.le_refl _⟩

/-- The counters of a run take in what it counts in a step back. -/
theorem StackInvariant.steppedBack_countsLe_run (hinv : StackInvariant machine state)
    (hlt : state.frontier < machine.domains.size) (hstart : machine.start < state.frontier)
    (hvalue : machine.nextValue? state = none) :
    state.steppedBack.CountsLe (machine.run state).state := by
  have hnext := (Onward.back hlt hstart hvalue).step hinv
  rw [run_of_onward hnext]
  exact (hinv.step hnext).countsLe_run

/-- The counters of a run take in what it counts when it tries a value, whatever the test says. -/
theorem StackInvariant.tested_countsLe_run (hinv : StackInvariant machine state)
    (hvalue : machine.nextValue? state = some value)
    (hfree : machine.interruption? state.nodes state.memory = none) :
    (machine.tested state value).CountsLe (machine.run state).state := by
  -- The test may reject, accept or break the search off.  In the first two cases the run goes on and
  -- its counters only grow; in the last it is over with these.
  cases hanswer : (machine.probe state value).answer with
  | ok accepted =>
      cases accepted with
      | false =>
          have hnext := (Onward.rejected value hvalue hfree hanswer).step hinv
          rw [run_of_onward hnext]
          exact (hinv.step hnext).countsLe_run
      | true =>
          have hnext := (Onward.accepted value hvalue hfree hanswer).step hinv
          have hsame : (machine.tested state value).CountsLe (machine.descended state value) :=
            ⟨Nat.le_refl _, Nat.le_refl _, Nat.le_refl _⟩
          rw [run_of_onward hnext]
          exact hsame.trans (hinv.step hnext).countsLe_run
  | error fault =>
      have hlast : machine.step state = .broken fault (machine.tested state value) := by
        rw [hinv.step_of_free hvalue hfree, tryValue_eq, hanswer]
      rw [run_of_broken hlast]
      exact ⟨Nat.le_refl _, Nat.le_refl _, Nat.le_refl _⟩

/-! ## The turn in words -/

/-- The room that is made for the stack: an entry for every variable from the start on, and one
more. -/
def stackRoomInWords (machine : Machine σ) (build : Build) : Except Fault Nat := do
  let behind ← build.subtract machine.domains.size machine.start
  build.add behind 1

/-- The step back, in words. -/
def stepBackInWords (machine : Machine σ) (build : Build) (state : SearchState σ) :
    Except Fault (Turn σ) := do
  let candidates := state.candidates.pop
  if state.frontier = machine.start then return .ended .exhausted { state with candidates }
  let frontier ← build.subtract state.frontier 1
  let backtracks ← build.add state.backtracks 1
  let log := state.log.push (.steppedBack frontier)
  return .onward { state with candidates, frontier, backtracks, log }

/-- The attempt at a value, in words; `depth` is the place of its entry on the stack. -/
def tryValueInWords (machine : Machine σ) (build : Build) (state : SearchState σ)
    (depth value : Nat) : Except Fault (Turn σ) := do
  let following ← build.add value 1
  let _ ← Checker.valueAt state.buffer state.frontier
  let nodes ← build.add state.nodes 1
  let behind ← build.add state.frontier 1
  let buffer := state.buffer.setIfInBounds state.frontier value
  let candidates := state.candidates.setIfInBounds depth following
  let probe := machine.test buffer behind state.memory
  let checks ← build.add state.checks probe.calls
  let state := { state with buffer, candidates, nodes, checks, memory := probe.memory }
  match probe.answer with
  | .error fault => return .broken fault state
  | .ok false => return .onward state
  | .ok true =>
      return .onward
        { state with
          frontier := behind
          candidates := candidates.push 0
          maxDepth := max state.maxDepth behind }

/-- One turn, in words.  What it reads must be there, and its sums and differences are those of the
build. -/
def stepInWords (machine : Machine σ) (build : Build) (state : SearchState σ) :
    Except Fault (Turn σ) := do
  if state.frontier = machine.domains.size then return .ended .solved state
  let depth ← build.subtract state.frontier machine.start
  let value ← Checker.valueAt state.candidates depth
  let size ← Checker.valueAt machine.domains state.frontier
  if size ≤ value then machine.stepBackInWords build state
  else
    match machine.interruption? state.nodes state.memory with
    | some status => return .ended status state
    | none => machine.tryValueInWords build state depth value

theorem stackRoomInWords_eq (hstart : machine.start ≤ machine.domains.size)
    (hwords : InWords machine.domains) (build : Build) :
    machine.stackRoomInWords build = .ok (machine.domains.size - machine.start + 1) := by
  have hcount := hwords.count_lt
  unfold stackRoomInWords
  rw [build.subtract_of_le hstart]
  exact build.add_of_lt (by omega)

theorem stepBackInWords_eq (hstart : machine.start ≤ state.frontier) (build : Build)
    (hroom : machine.start < state.frontier → state.backtracks + 1 < wordCount) :
    machine.stepBackInWords build state = .ok (machine.stepBack state) := by
  unfold stepBackInWords Machine.stepBack
  by_cases hfirst : state.frontier = machine.start
  · simp only [hfirst, if_true]
    rfl
  · have hlt : machine.start < state.frontier := by omega
    have hfrontier : build.subtract state.frontier 1 = .ok (state.frontier - 1) :=
      build.subtract_of_le (by omega)
    simp only [if_neg hfirst, hfrontier, build.add_of_lt (hroom hlt)]
    rfl

theorem tryValueInWords_eq (hbuffer : state.frontier < state.buffer.size) (build : Build)
    (hvalue : value + 1 < wordCount) (hnodes : state.nodes + 1 < wordCount)
    (hfrontier : state.frontier + 1 < wordCount)
    (hchecks : state.checks + (machine.probe state value).calls < wordCount) :
    machine.tryValueInWords build state (state.frontier - machine.start) value =
      .ok (machine.tryValue state value) := by
  have hread : Checker.valueAt state.buffer state.frontier = .ok state.buffer[state.frontier] :=
    dif_pos hbuffer
  unfold tryValueInWords
  rw [build.add_of_lt hvalue, hread, build.add_of_lt hnodes, build.add_of_lt hfrontier]
  show (build.add state.checks (machine.probe state value).calls >>= _) = _
  rw [build.add_of_lt hchecks, tryValue_eq]
  show (match (machine.probe state value).answer with
    | .error fault => _
    | .ok false => _
    | .ok true => _) = _
  cases (machine.probe state value).answer with
  | error fault => rfl
  | ok accepted => cases accepted <;> rfl

/-- What a turn reads when a variable is in turn: its entry on the stack, and the size of its
domain. -/
private theorem StackInvariant.reads (hinv : StackInvariant machine state)
    (hlt : state.frontier < machine.domains.size) (build : Build) :
    ∃ value size,
      machine.stepInWords build state =
        (if size ≤ value then machine.stepBackInWords build state
        else
          match machine.interruption? state.nodes state.memory with
          | some status => .ok (.ended status state)
          | none =>
              machine.tryValueInWords build state (state.frontier - machine.start) value) ∧
        machine.domains[state.frontier]? = some size ∧
        machine.nextValue? state = if value < size then some value else none := by
  have hsize : machine.domains[state.frontier]? = some machine.domains[state.frontier] :=
    Array.getElem?_eq_getElem hlt
  obtain ⟨value, -, hcandidate⟩ := hinv.inTurn _ hsize
  refine ⟨value, machine.domains[state.frontier], ?_, hsize, ?_⟩
  · unfold stepInWords
    rw [if_neg (Nat.ne_of_lt hlt), build.subtract_of_le hinv.start_le]
    show (Checker.valueAt state.candidates _ >>= _) = _
    rw [Checker.valueAt_of_getElem? hcandidate]
    show (Checker.valueAt machine.domains _ >>= _) = _
    rw [Checker.valueAt_of_getElem? hsize]
    rfl
  · simp only [nextValue?, hcandidate, hsize]

/-- If the counters of a run are words at its end, its first turn is one in words. -/
theorem StackInvariant.stepInWords_eq (hinv : StackInvariant machine state)
    (hwords : InWords machine.domains) (hnodes : (machine.run state).state.nodes < wordCount)
    (hchecks : (machine.run state).state.checks < wordCount)
    (hbacktracks : (machine.run state).state.backtracks < wordCount) (build : Build) :
    machine.stepInWords build state = .ok (machine.step state) := by
  rcases Nat.lt_or_eq_of_le hinv.frontier_le with hlt | hfrontier
  · obtain ⟨value, size, hturn, hsize, hvalue⟩ := hinv.reads hlt build
    rw [hturn]
    by_cases hspent : size ≤ value
    · rw [if_neg (Nat.not_lt.2 hspent)] at hvalue
      rw [if_pos hspent, hinv.step_of_spent hlt hvalue]
      refine stepBackInWords_eq hinv.start_le build fun hstart => ?_
      exact Nat.lt_of_le_of_lt (hinv.steppedBack_countsLe_run hlt hstart hvalue).backtracks
        hbacktracks
    · have hless : value < size := Nat.lt_of_not_le hspent
      rw [if_pos hless] at hvalue
      rw [if_neg hspent]
      cases hreason : machine.interruption? state.nodes state.memory with
      | some status => rw [hinv.step_of_reason hvalue hreason]
      | none =>
          -- What the turn counts is no more than what the whole run counts, which is a word.
          have hcounts := hinv.tested_countsLe_run hvalue hreason
          have hword := hwords.sizes size (Array.mem_of_getElem? hsize)
          have hcount := hwords.count_lt
          rw [hinv.step_of_free hvalue hreason]
          exact tryValueInWords_eq (hinv.buffer_size ▸ hlt) build (by omega)
            (Nat.lt_of_le_of_lt hcounts.nodes hnodes) (by omega)
            (Nat.lt_of_le_of_lt hcounts.checks hchecks)
  · rw [Machine.step, if_pos hfrontier, stepInWords, if_pos hfrontier]
    rfl

/-! ## All turns of a run -/

/-- The run comes from the one state to the other. -/
def Reaches (machine : Machine σ) : SearchState σ → SearchState σ → Prop :=
  Relation.ReflTransGen fun state next => machine.step state = .onward next

theorem StackInvariant.of_reaches (hinv : StackInvariant machine state)
    (h : machine.Reaches state later) : StackInvariant machine later := by
  induction h with
  | refl => exact hinv
  | tail _ hnext ih => exact ih.step hnext

/-- The run ends as it does from any state on its way. -/
theorem run_of_reaches (h : machine.Reaches state later) :
    machine.run state = machine.run later := by
  induction h with
  | refl => rfl
  | tail _ hnext ih => rw [ih, run_of_onward hnext]

/-- If the counters of a run are words at its end, every turn of the run is one in words. -/
theorem StackInvariant.stepInWords_of_reaches (hinv : StackInvariant machine state)
    (hwords : InWords machine.domains) (hnodes : (machine.run state).state.nodes < wordCount)
    (hchecks : (machine.run state).state.checks < wordCount)
    (hbacktracks : (machine.run state).state.backtracks < wordCount) (build : Build)
    (h : machine.Reaches state later) :
    machine.stepInWords build later = .ok (machine.step later) := by
  rw [run_of_reaches h] at hnodes hchecks hbacktracks
  exact (hinv.of_reaches h).stepInWords_eq hwords hnodes hchecks hbacktracks build

end Machine

end ConstraintSearch
