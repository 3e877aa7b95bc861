import ConstraintSearch.Proofs.Search.Exploration
import ConstraintSearch.Proofs.Search.Ready

/-!
# The machine is a depth-first search

Without interruptions the machine ends as the exploration of all its variables does, with the same
buffer, counters and memory (`outcome_run`).  The proof goes along the recursion: while a variable
is in turn, the stack below its entry is what the enclosing calls have still to do, and it is left
untouched until the variable runs out of candidates (`Follows`).

## Strategy

`InTurn` says that the machine is about to look at a value of some variable, above the entries
`below`, with the trail that the recursion carries.  For each piece of the recursion there is one
statement about the machine, started in such a state:

* trying a value ends the run as the piece does, or leaves the machine at the next value
  (`follows_tryValue`);
* going through all values leaves it out of candidates (`follows_anyM`), and then it steps back, to
  the next value of the enclosing call (`InTurn.stepBack`);
* exploring all variables is going through the values of the first of them, with the exploration of
  the others behind each (`follows_explore`).

Nothing is asked of the test, so checkers may remember what they like.
-/

namespace ConstraintSearch

/-- The part of a state that a depth-first search carries along. -/
def SearchState.trail {σ : Type} (state : SearchState σ) : Trail σ where
  buffer := state.buffer
  nodes := state.nodes
  checks := state.checks
  backtracks := state.backtracks
  maxDepth := state.maxDepth
  memory := state.memory

/-- What a scan adds to what is carried along. -/
def Scan.result {σ : Type} (scan : Scan σ) (trail : Trail σ) :
    EStateM.Result Fault (Trail σ) Bool :=
  let trail := { trail with checks := trail.checks + scan.calls, memory := scan.memory }
  match scan.answer with
  | .ok accepted => .ok accepted trail
  | .error fault => .error fault trail

namespace Machine

variable {σ : Type} {machine : Machine σ} {state : SearchState σ}

/-- The test, as a part of a depth-first search. -/
def judge (machine : Machine σ) (frontier : Nat) : Exploration σ Bool := fun trail =>
  (machine.test trail.buffer frontier trail.memory).result trail

theorem tryValue_of_test {value : Nat} {scan : Scan σ}
    (hscan : machine.test (machine.assign state value).buffer (state.frontier + 1)
      (machine.assign state value).memory = scan) :
    machine.tryValue state value =
      let tested :=
        { machine.assign state value with
          checks := (machine.assign state value).checks + scan.calls, memory := scan.memory }
      match scan.answer with
      | .error fault => .broken fault tested
      | .ok false => .onward tested
      | .ok true =>
          .onward
            { tested with
              frontier := state.frontier + 1
              candidates := tested.candidates.push 0
              maxDepth := max tested.maxDepth (state.frontier + 1) } := by
  subst hscan
  rfl

/-- How a run ends, without the stack and the log. -/
def Ended.outcome (ended : Ended σ) : Outcome σ where
  ending := ended.ending
  trail := ended.state.trail

/-! ## A variable in turn -/

/-- The variable at the frontier is in turn with the given value to try next.  The entries below
its own belong to the enclosing calls. -/
structure InTurn (machine : Machine σ) (state : SearchState σ) (below : List Nat)
    (frontier value : Nat) (trail : Trail σ) : Prop where
  frontier_eq : state.frontier = frontier
  candidates_eq : state.candidates = (below ++ [value]).toArray
  trail_eq : state.trail = trail
  depth : frontier = machine.start + below.length
  buffer_size : trail.buffer.size = machine.domains.size

variable {below : List Nat} {frontier value size : Nat} {trail : Trail σ}

theorem InTurn.candidate (h : InTurn machine state below frontier value trail) :
    state.candidates[state.frontier - machine.start]? = some value := by
  have hindex : state.frontier - machine.start = below.length := by
    rw [h.frontier_eq, h.depth]
    omega
  rw [hindex, h.candidates_eq]
  simp

theorem InTurn.not_lt_start (h : InTurn machine state below frontier value trail) :
    ¬ state.frontier < machine.start := by
  rw [h.frontier_eq, h.depth]
  omega

theorem InTurn.step_solved (h : InTurn machine state below frontier value trail)
    (hfrontier : frontier = machine.domains.size) :
    machine.step state = .ended .solved state := by
  unfold step
  rw [if_pos (h.frontier_eq.trans hfrontier)]

theorem InTurn.step_back (h : InTurn machine state below frontier value trail)
    (hsize : machine.domains[frontier]? = some size) (hle : size ≤ value) :
    machine.step state = machine.stepBack state := by
  have hlt : frontier < machine.domains.size := (Array.getElem?_eq_some_iff.1 hsize).1
  have hne : state.frontier ≠ machine.domains.size := by
    rw [h.frontier_eq]
    exact Nat.ne_of_lt hlt
  unfold step
  rw [if_neg hne, if_neg h.not_lt_start, h.candidate]
  simp only [h.frontier_eq, hsize, if_pos hle]

theorem InTurn.step_try (h : InTurn machine state below frontier value trail)
    (hfree : ∀ nodes memory, machine.interruption? nodes memory = none)
    (hsize : machine.domains[frontier]? = some size) (hlt : value < size) :
    machine.step state = machine.tryValue state value := by
  have hbound : frontier < machine.domains.size := (Array.getElem?_eq_some_iff.1 hsize).1
  have hne : state.frontier ≠ machine.domains.size := by
    rw [h.frontier_eq]
    exact Nat.ne_of_lt hbound
  have hbuffer : frontier < state.buffer.size := by
    rw [show state.buffer = trail.buffer from congrArg Trail.buffer h.trail_eq, h.buffer_size]
    exact hbound
  unfold step
  rw [if_neg hne, if_neg h.not_lt_start, h.candidate]
  simp only [h.frontier_eq, hsize, if_neg (Nat.not_le.2 hlt), hfree, if_pos hbuffer]

/-- Stepping back takes the entry off, and the variable before is in turn again. -/
theorem InTurn.stepBack {outer : Nat}
    (h : InTurn machine state (below ++ [outer]) (frontier + 1) value trail) :
    ∃ next, machine.stepBack state = .onward next ∧
      InTurn machine next below frontier outer
        { trail with backtracks := trail.backtracks + 1 } := by
  have hne : state.frontier ≠ machine.start := by
    rw [h.frontier_eq, h.depth, List.length_append]
    simp
  simp only [Machine.stepBack, if_neg hne]
  refine ⟨_, rfl, ?_, ?_, ?_, ?_, h.buffer_size⟩
  · show state.frontier - 1 = frontier
    rw [h.frontier_eq, Nat.add_sub_cancel]
  · show state.candidates.pop = _
    rw [h.candidates_eq]
    simp
  · rw [← h.trail_eq]
    rfl
  · have hdepth := h.depth
    rw [List.length_append] at hdepth
    simp only [List.length_singleton] at hdepth
    omega

theorem InTurn.stepBack_nil (h : InTurn machine state [] machine.start value trail) :
    ∃ last, machine.stepBack state = .ended .exhausted last ∧ last.trail = trail := by
  simp only [Machine.stepBack, if_pos h.frontier_eq]
  exact ⟨_, rfl, h.trail_eq⟩

private theorem InTurn.assign (h : InTurn machine state below frontier value trail) :
    InTurn machine (machine.assign state value) below frontier (value + 1)
      { trail with
        buffer := trail.buffer.setIfInBounds frontier value, nodes := trail.nodes + 1 } := by
  have hindex : state.frontier - machine.start = below.length := by
    rw [h.frontier_eq, h.depth]
    omega
  refine ⟨h.frontier_eq, ?_, ?_, h.depth, ?_⟩
  · simp only [Machine.assign, hindex, h.candidates_eq]
    simp
  · rw [← h.trail_eq, ← h.frontier_eq]
    rfl
  · simpa using h.buffer_size

/-! ## The simulation -/

/-- The run from a state in which a variable is in turn goes as the exploration does: it ends with
it, or it goes on with the variable in turn again and with a value to try next of which `left`
holds. -/
def Follows (machine : Machine σ) (state : SearchState σ) (below : List Nat) (frontier : Nat)
    (left : Nat → Prop) : EStateM.Result Fault (Trail σ) Bool → Prop
  | .ok true trail => (machine.run state).outcome = { ending := .ok .solved, trail }
  | .ok false trail => ∃ next value, machine.run state = machine.run next ∧ left value ∧
      InTurn machine next below frontier value trail
  | .error fault trail => (machine.run state).outcome = { ending := .error fault, trail }

theorem Follows.of_run_eq {left : Nat → Prop} {next : SearchState σ}
    {result : EStateM.Result Fault (Trail σ) Bool} (hrun : machine.run state = machine.run next)
    (hnext : machine.Follows next below frontier left result) :
    machine.Follows state below frontier left result := by
  cases result with
  | ok found trail =>
      cases found with
      | true => exact (congrArg Ended.outcome hrun).trans hnext
      | false =>
          obtain ⟨last, value, hlast, hleft, hturn⟩ := hnext
          exact ⟨last, value, hrun.trans hlast, hleft, hturn⟩
  | error fault trail => exact (congrArg Ended.outcome hrun).trans hnext

/-- Trying a value is making the test, and what follows depends on its answer. -/
private theorem InTurn.tryValue (h : InTurn machine state below frontier value trail) :
    match machine.judge (frontier + 1)
      { trail with
        buffer := trail.buffer.setIfInBounds frontier value, nodes := trail.nodes + 1 } with
    | .error fault tested =>
        ∃ last, machine.tryValue state value = .broken fault last ∧ last.trail = tested
    | .ok false tested =>
        ∃ next, machine.tryValue state value = .onward next ∧
          InTurn machine next below frontier (value + 1) tested
    | .ok true tested =>
        ∃ next, machine.tryValue state value = .onward next ∧
          InTurn machine next (below ++ [value + 1]) (frontier + 1) 0
            { tested with maxDepth := max tested.maxDepth (frontier + 1) } := by
  obtain ⟨hfrontier, hcandidates, htrail, hdepth, hsize⟩ := h.assign
  rw [← htrail] at hsize ⊢
  -- Name what the scan finds before looking at it: machine and recursion go on from the same scan.
  obtain ⟨scan, hscan⟩ : ∃ scan, machine.test (machine.assign state value).buffer
      (state.frontier + 1) (machine.assign state value).memory = scan := ⟨_, rfl⟩
  have hframe : state.frontier = frontier := hfrontier
  have hjudge : machine.judge (state.frontier + 1) (machine.assign state value).trail
      = scan.result (machine.assign state value).trail := congrArg (Scan.result · _) hscan
  rw [tryValue_of_test hscan, ← hframe, hjudge]
  obtain ⟨answer, calls, memory⟩ := scan
  cases answer with
  | error fault => exact ⟨_, rfl, rfl⟩
  | ok accepted =>
      cases accepted with
      | false => exact ⟨_, rfl, rfl, hcandidates, rfl, hframe ▸ hdepth, hsize⟩
      | true =>
          refine ⟨_, rfl, rfl, ?_, rfl, ?_, hsize⟩
          · show (machine.assign state value).candidates.push 0 = _
            rw [hcandidates]
            simp
          · rw [hframe, hdepth, List.length_append]
            rfl

/-- One value.  What is known of the variables behind is `hbehind`, and `hnext` says that they can
run out of candidates only if there is a next variable. -/
private theorem follows_tryValue
    (hfree : ∀ nodes memory, machine.interruption? nodes memory = none)
    (hsize : machine.domains[frontier]? = some size) {behind : Exploration σ Bool}
    (nextSize : Nat)
    (hbehind : ∀ state below trail, InTurn machine state below (frontier + 1) 0 trail →
      machine.Follows state below (frontier + 1) (nextSize ≤ ·) (behind trail))
    (hnext : ∀ trail last, behind trail = .ok false last →
      machine.domains[frontier + 1]? = some nextSize)
    (hlt : value < size) (hturn : InTurn machine state below frontier value trail) :
    machine.Follows state below frontier (· = value + 1)
      (Exploration.tryValue machine.judge behind frontier value trail) := by
  have hstep := hturn.step_try hfree hsize hlt
  have htry := hturn.tryValue
  rw [Exploration.tryValue_apply]
  cases hjudge : machine.judge (frontier + 1)
      { trail with
        buffer := trail.buffer.setIfInBounds frontier value, nodes := trail.nodes + 1 } with
  | error fault tested =>
      rw [hjudge] at htry
      obtain ⟨last, hlast, htrail⟩ := htry
      show (machine.run state).outcome = _
      rw [run_of_broken (hstep.trans hlast), ← htrail]
      rfl
  | ok accepted tested =>
      rw [hjudge] at htry
      cases accepted with
      | false =>
          obtain ⟨rejecting, hrejecting, hrejected⟩ := htry
          exact ⟨rejecting, value + 1, run_of_onward (hstep.trans hrejecting), rfl, hrejected⟩
      | true =>
          obtain ⟨accepting, haccepting, haccepted⟩ := htry
          have hdeeper := Follows.of_run_eq (run_of_onward (hstep.trans haccepting))
            (hbehind accepting _ _ haccepted)
          simp only
          cases hresult : behind { tested with
              maxDepth := max tested.maxDepth (frontier + 1) } with
          | error fault last =>
              rw [hresult] at hdeeper
              exact hdeeper
          | ok found last =>
              rw [hresult] at hdeeper
              cases found with
              | true => exact hdeeper
              | false =>
                  obtain ⟨spent, value', hrun, hle, hspent⟩ := hdeeper
                  obtain ⟨back, hback, hagain⟩ := hspent.stepBack
                  have hsteps := (hspent.step_back (hnext _ _ hresult) hle).trans hback
                  exact ⟨back, value + 1, hrun.trans (run_of_onward hsteps), rfl, hagain⟩

/-- The candidates of one variable, from the value in turn on. -/
private theorem follows_anyM {attempt : Nat → Exploration σ Bool}
    (hattempt : ∀ value state trail, value < size →
      InTurn machine state below frontier value trail →
      machine.Follows state below frontier (· = value + 1) (attempt value trail)) :
    ∀ (count value : Nat) (state : SearchState σ) (trail : Trail σ), value + count = size →
      InTurn machine state below frontier value trail →
      machine.Follows state below frontier (size ≤ ·)
        ((List.range' value count).anyM attempt trail) := by
  intro count
  -- On the number of values that are left.  When they run out the variable is out of candidates, and
  -- a value with nothing behind it leaves the machine at the next one.
  induction count with
  | zero =>
      intro value state trail hcount hturn
      exact ⟨state, value, rfl, Nat.le_of_eq hcount.symm, hturn⟩
  | succ count ih =>
      intro value state trail hcount hturn
      have htry := hattempt value state trail (by omega) hturn
      rw [List.range'_succ, Exploration.anyM_cons_apply]
      cases hresult : attempt value trail with
      | error fault last =>
          rw [hresult] at htry
          exact htry
      | ok found last =>
          rw [hresult] at htry
          cases found with
          | true => exact htry
          | false =>
              obtain ⟨next, value', hrun, rfl, hnext⟩ := htry
              exact .of_run_eq hrun (ih (value + 1) next last (by omega) hnext)

private theorem domain_of_drop {domains : Array Nat} {index : Nat} {sizes : List Nat}
    (h : domains.toList.drop index = size :: sizes) : domains[index]? = some size := by
  rw [← Array.getElem?_toList, ← List.head?_drop, h]
  rfl

/-- While a variable is in turn, the machine does what the exploration of the variables from this
one on does. -/
theorem follows_explore (hfree : ∀ nodes memory, machine.interruption? nodes memory = none) :
    ∀ (sizes : List Nat) (frontier : Nat) (below : List Nat) (state : SearchState σ)
      (trail : Trail σ), machine.domains.toList.drop frontier = sizes →
      frontier ≤ machine.domains.size → InTurn machine state below frontier 0 trail →
      machine.Follows state below frontier (sizes.headD 0 ≤ ·)
        (Exploration.explore machine.judge sizes frontier trail) := by
  intro sizes
  induction sizes with
  | nil =>
      intro frontier below state trail hsizes hle hturn
      have hfrontier : frontier = machine.domains.size := by
        have hlength := List.drop_eq_nil_iff.1 hsizes
        rw [Array.length_toList] at hlength
        omega
      show (machine.run state).outcome = _
      rw [run_of_ended (hturn.step_solved hfrontier), Ended.outcome, hturn.trail_eq]
  | cons size sizes ih =>
      intro frontier below state trail hsizes hle hturn
      have hrest : machine.domains.toList.drop (frontier + 1) = sizes := by
        rw [← List.drop_drop, hsizes]
        rfl
      have hsize := domain_of_drop hsizes
      have hlt : frontier < machine.domains.size := (Array.getElem?_eq_some_iff.1 hsize).1
      rw [Exploration.explore, List.range_eq_range']
      refine follows_anyM ?_ size 0 state trail (Nat.zero_add size) hturn
      intro value state trail hless hturn
      -- To try a value is to go through the next variable behind it, which is the induction
      -- hypothesis, and to step back from it if nothing is found.
      refine follows_tryValue hfree hsize (sizes.headD 0) ?_ ?_ hless hturn
      · intro state below trail hturn
        exact ih (frontier + 1) below state trail hrest hlt hturn
      · intro trail last hfalse
        cases sizes with
        | nil => cases hfalse
        | cons nextSize sizes => exact domain_of_drop hrest

/-- Without interruptions, the machine ends as the exploration of all variables does. -/
theorem outcome_run (hfree : ∀ nodes memory, machine.interruption? nodes memory = none)
    (hstart : machine.start ≤ machine.domains.size)
    (hturn : InTurn machine state [] machine.start 0 trail) :
    (machine.run state).outcome = Exploration.outcome
      (Exploration.explore machine.judge (machine.domains.toList.drop machine.start)
        machine.start trail) := by
  have hfollows := follows_explore hfree _ machine.start [] state trail rfl hstart hturn
  cases hresult : Exploration.explore machine.judge (machine.domains.toList.drop machine.start)
      machine.start trail with
  | error fault last =>
      rw [hresult] at hfollows
      exact hfollows
  | ok found last =>
      rw [hresult] at hfollows
      cases found with
      | true => exact hfollows
      | false =>
          obtain ⟨spent, value, hrun, hle, hspent⟩ := hfollows
          cases hsizes : machine.domains.toList.drop machine.start with
          | nil =>
              rw [hsizes] at hresult
              cases hresult
          | cons size sizes =>
              have hsize := domain_of_drop hsizes
              rw [hsizes] at hle
              obtain ⟨final, hfinal, htrail⟩ := hspent.stepBack_nil
              rw [hrun, run_of_ended ((hspent.step_back hsize hle).trans hfinal), ← htrail]
              rfl

end Machine

/-! ## Answers -/

variable {σ : Type}

/-- The counters, with the time taken. -/
def Trail.stats (trail : Trail σ) (elapsed : Nat) : Stats where
  nodes := trail.nodes
  checks := trail.checks
  backtracks := trail.backtracks
  maxDepth := trail.maxDepth
  elapsed := elapsed

/-- What a search answers that ends so, by a clock that runs with the tried values. -/
def Outcome.answer (outcome : Outcome σ) (elapsed : Nat → Nat) : Except Fault Result :=
  outcome.ending.map fun status =>
    { status, stats := outcome.trail.stats (elapsed outcome.trail.nodes) }

namespace Search

variable {κ : Type} {search : Search σ κ} {buffer : Array Nat} {build : Build}
  {library : Library}

/-- What a search carries along before it tries anything. -/
def firstTrail (search : Search σ κ) {τ : Type} (buffer : Array Nat) (memory : τ) : Trail τ where
  buffer := buffer
  maxDepth := search.start
  memory := memory

/-- A search without limits ends as the exploration of its variables does. -/
theorem Ready.outcome_run (hready : search.Ready buffer build library)
    (hunlimited : search.Unlimited) (memory : σ) (log : Array Message) :
    (search.run buffer memory log).outcome = Exploration.outcome
      (Exploration.explore search.machine.judge (search.problem.domains.toList.drop search.start)
        search.start (search.firstTrail buffer memory)) := by
  have hturn : search.machine.InTurn (search.initial buffer memory log) [] search.machine.start 0
      (search.firstTrail buffer memory) := ⟨rfl, rfl, rfl, rfl, hready.length⟩
  exact Machine.outcome_run hunlimited.interruption?_eq_none hready.start_le hturn

private theorem outcome_report {ended : Machine.Ended σ} {activations : Nat} :
    (search.report activations ended).outcome = ended.outcome.answer search.elapsed := by
  obtain ⟨ending, state⟩ := ended
  cases ending <;> rfl

/-- A search that may begin answers as its run ends. -/
theorem Ready.perform_of_outcome (hready : search.Ready buffer build library) {memory : σ}
    {outcome : Outcome σ} (hrun : (search.run buffer memory library.log).outcome = outcome) :
    (search.perform buffer memory build library).outcome = outcome.answer search.elapsed ∧
      (search.perform buffer memory build library).buffer = outcome.trail.buffer ∧
      (search.perform buffer memory build library).memory = outcome.trail.memory := by
  subst hrun
  rw [hready.perform_eq]
  exact ⟨outcome_report, buffer_report, memory_report⟩

end Search

end ConstraintSearch
