import ConstraintSearch.Proofs.Search.Moves
import ConstraintSearch.Proofs.Search.Turn
import ConstraintSearch.Proofs.Search.WithinDomains

/-!
# Asking only the constraints that are due

A constraint is due when its last variable has just been bound; those on given variables alone are
due when the first variable is.  The test of the machine asks every applicable constraint again and
again.  With local checkers it would be enough to ask those that are due: all others have accepted
the values below the frontier before, and those values are still there.

So a machine that asks the due constraints only makes the same turns (`incremental`).  Between two
turns of the search, both are in the same state but for the checks and the memory (`InStep`), and
the search has made no fewer checks (`perform_eq_incremental`).

## Strategy

* A problem with only some of its constraints is tested by the calls of those
  (`allM_test_filter`), so leaving out constraints that accept changes the calls and not the answer.
* Those that are left out do accept (`test_incremental`): at a frontier behind the start, the values
  below it have passed the test before.
* `InStep` is kept by every move.  It says nothing about the constraints before the first variable is
  bound, because no test has been made by then.
-/

namespace ConstraintSearch

variable {σ κ : Type}

/-! ## Due constraints -/

/-- Whether the constraint becomes applicable when the variable `k` is bound, in a search that binds
the variables from `start` on. -/
def Constraint.isDue (constraint : Constraint σ κ) (start k : Nat) : Bool :=
  constraint.maxVariable = k || (k = start && constraint.isApplicable start)

theorem Constraint.isApplicable_of_isDue {constraint : Constraint σ κ} {start k : Nat}
    (h : constraint.isDue start k = true) : constraint.isApplicable (k + 1) = true := by
  rw [isDue, Bool.or_eq_true, Bool.and_eq_true, decide_eq_true_eq, decide_eq_true_eq] at h
  rcases h with hlargest | ⟨rfl, happlicable⟩
  · rw [isApplicable_iff]
    intro v hv
    exact Nat.lt_succ_of_le (hlargest ▸ le_maxVariable hv)
  · exact constraint.isApplicable_mono (Nat.le_succ k) happlicable

/-- A constraint that is applicable and not due was applicable before. -/
theorem Constraint.applicable_of_not_due {constraint : Constraint σ κ} {start k : Nat}
    (hstart : start ≤ k) (happlicable : constraint.isApplicable (k + 1) = true)
    (h : constraint.isDue start k = false) :
    start < k ∧ constraint.isApplicable k = true := by
  rw [isDue, Bool.or_eq_false_iff, decide_eq_false_iff_not] at h
  have hlt : constraint.maxVariable < k + 1 :=
    maxVariable_lt (Nat.succ_pos k) ((constraint.isApplicable_iff _).1 happlicable)
  have hbefore : constraint.isApplicable k = true := by
    rw [isApplicable_iff]
    intro v hv
    have hle := le_maxVariable hv
    have hne := h.1
    omega
  refine ⟨Nat.lt_of_le_of_ne hstart ?_, hbefore⟩
  rintro rfl
  simp [hbefore] at h

namespace Problem

variable {problem : Problem σ κ} {context : κ} {assignment : Array Nat} {start k frontier : Nat}

/-- The problem with only those constraints that are due. -/
def due (problem : Problem σ κ) (start k : Nat) : Problem σ κ :=
  { problem with slots := problem.slots.filter fun slot => slot.all (·.isDue start k) }

/-- The constraints of the problem, in slot order. -/
def constraints (problem : Problem σ κ) : List (Constraint σ κ) :=
  problem.slots.toList.filterMap id

theorem mem_constraints {constraint : Constraint σ κ} :
    constraint ∈ problem.constraints ↔ problem.Attached constraint := by
  simp [constraints, Attached]

theorem constraints_due (problem : Problem σ κ) (start k : Nat) :
    (problem.due start k).constraints = problem.constraints.filter (·.isDue start k) := by
  rw [constraints, constraints, due, Array.toList_filter, List.filterMap_filter,
    List.filter_filterMap]
  refine List.filterMap_congr fun slot _ => ?_
  cases slot with
  | none => rfl
  | some constraint => rfl

/-- What is due is applicable. -/
theorem filter_isDue (constraints : List (Constraint σ κ)) (start k : Nat) :
    (constraints.filter (·.isApplicable (k + 1))).filter (·.isDue start k) =
      constraints.filter (·.isDue start k) := by
  rw [List.filter_filter]
  refine List.filter_congr fun constraint _ => ?_
  by_cases hdue : constraint.isDue start k = true
  · simp [hdue, Constraint.isApplicable_of_isDue hdue]
  · simp [hdue]

theorem flaw?_due (hvalid : problem.flaw? = none) : (problem.due start k).flaw? = none := by
  rw [flaw?_eq_none_iff] at hvalid ⊢
  intro index slot hslot
  have hmem : slot ∈ problem.slots := (Array.mem_filter.1 (Array.mem_of_getElem? hslot)).1
  obtain ⟨own, hown⟩ := Array.getElem?_of_mem hmem
  exact hvalid own slot hown

theorem applicable_map_snd (problem : Problem σ κ) (frontier : Nat) :
    (problem.applicable frontier).map Prod.snd =
      problem.constraints.filter (·.isApplicable frontier) := by
  have hfst : problem.slots.toList.zipIdx.map Prod.fst = problem.slots.toList :=
    List.zipIdx_map_fst 0 _
  rw [constraints, List.filter_filterMap, ← hfst, List.filterMap_map, applicable,
    List.map_filterMap]
  refine List.filterMap_congr fun entry _ => ?_
  simp [Function.comp_def, Option.map_map]

end Problem

/-! ## Leaving constraints out -/

namespace Exploration

variable {problem : Problem σ κ} {context : κ}

/-- To leave out constraints that accept makes no difference to the answer, and no more checks. -/
theorem allM_test_filter (hlocal : problem.Local context) {constraints : List (Constraint σ κ)}
    (hattached : ∀ constraint ∈ constraints, problem.Attached constraint)
    (keep : Constraint σ κ → Bool) {assignment : Array Nat}
    (hsize : assignment.size = problem.domains.size)
    (hskipped : ∀ constraint ∈ constraints, keep constraint = false →
      constraint.Accepts context assignment)
    (trail other : Trail σ) (hbuffer : trail.buffer = assignment)
    (hbuffer' : other.buffer = assignment) (hchecks : other.checks ≤ trail.checks) :
    ∃ accepted last last', constraints.allM (test context) trail = .ok accepted last ∧
      (constraints.filter keep).allM (test context) other = .ok accepted last' ∧
      last'.checks ≤ last.checks := by
  induction constraints generalizing trail other with
  | nil => exact ⟨true, trail, other, rfl, rfl, hchecks⟩
  | cons constraint constraints ih =>
      rw [List.forall_mem_cons] at hattached hskipped
      have hasked : ∀ trail : Trail σ, trail.buffer = assignment →
          ∃ accepted after,
            test context constraint trail =
              .ok accepted { trail with checks := trail.checks + 1, memory := after } ∧
            (accepted = true ↔ constraint.Accepts context assignment) := by
        intro trail hbuffer
        obtain ⟨accepted, after, hcheck, haccepted⟩ :=
          hlocal.check hattached.1 hsize trail.memory
        refine ⟨accepted, after, ?_, haccepted⟩
        rw [test, hbuffer, hcheck]
      obtain ⟨accepted, after, htest, haccepted⟩ := hasked trail hbuffer
      by_cases hkeep : keep constraint = true
      · obtain ⟨accepted', after', htest', haccepted'⟩ := hasked other hbuffer'
        obtain rfl : accepted' = accepted := Bool.eq_iff_iff.2 (haccepted'.trans haccepted.symm)
        rw [List.filter_cons_of_pos hkeep, allM_cons_apply, allM_cons_apply, htest, htest']
        cases accepted' with
        | false => exact ⟨false, _, _, rfl, rfl, Nat.succ_le_succ hchecks⟩
        | true => exact ih hattached.2 hskipped.2 _ _ hbuffer hbuffer' (Nat.succ_le_succ hchecks)
      · have hskip : keep constraint = false := Bool.eq_false_iff.2 hkeep
        obtain rfl : accepted = true := haccepted.2 (hskipped.1 hskip)
        rw [List.filter_cons_of_neg hkeep, allM_cons_apply, htest]
        exact ih hattached.2 hskipped.2 _ _ hbuffer hbuffer' (Nat.le_succ_of_le hchecks)

end Exploration

theorem Scan.of_result {scan : Scan σ} {trail last : Trail σ} {accepted : Bool}
    (h : scan.result trail = .ok accepted last) :
    scan.answer = .ok accepted ∧ last.checks = trail.checks + scan.calls := by
  simp only [result] at h
  split at h
  · rename_i hanswer
    injection h with haccepted hlast
    subst hlast
    exact ⟨hanswer.trans (congrArg Except.ok haccepted), rfl⟩
  · cases h

namespace Search

variable {search : Search σ κ} {state first : SearchState σ} {assignment : Array Nat} {k : Nat}

theorem judge_eq_allM (hvalid : search.problem.flaw? = none) (frontier : Nat) :
    search.machine.judge frontier =
      (search.problem.constraints.filter (·.isApplicable frontier)).allM
        (Exploration.test search.context) := by
  rw [judge_eq hvalid, ← Problem.applicable_map_snd, Exploration.allM_map]

/-- The machine that asks only the constraints that are due. -/
def incremental (search : Search σ κ) : Machine σ :=
  search.machine.withTest fun assignment frontier memory =>
    (search.problem.due search.start (frontier - 1)).scan assignment search.context frontier memory

/-- The test of that machine asks the due constraints one by one. -/
theorem judge_incremental (hvalid : search.problem.flaw? = none) (k : Nat) :
    search.incremental.judge (k + 1) =
      (search.problem.constraints.filter (·.isDue search.start k)).allM
        (Exploration.test search.context) := by
  let dueSearch : Search σ κ := { search with problem := search.problem.due search.start k }
  calc search.incremental.judge (k + 1)
      = dueSearch.machine.judge (k + 1) := rfl
    _ = (dueSearch.problem.constraints.filter (·.isApplicable (k + 1))).allM
          (Exploration.test search.context) := judge_eq_allM (Problem.flaw?_due hvalid) (k + 1)
    _ = (search.problem.constraints.filter (·.isDue search.start k)).allM
          (Exploration.test search.context) := by
        rw [Problem.constraints_due, List.filter_comm, Problem.filter_isDue]

/-- Let the constraints on the variables below `k` accept, unless `k` is the first variable.  Then
the due constraints decide whether all applicable ones accept, in no more calls. -/
theorem test_incremental (hvalid : search.problem.flaw? = none)
    (hlocal : search.problem.Local search.context)
    (hsize : assignment.size = search.problem.domains.size) (hstart : search.start ≤ k)
    (hbelow : search.start < k → search.problem.AcceptsUpTo search.context k assignment)
    (memory other : σ) :
    (search.incremental.test assignment (k + 1) other).answer =
        (search.machine.test assignment (k + 1) memory).answer ∧
      (search.incremental.test assignment (k + 1) other).calls ≤
        (search.machine.test assignment (k + 1) memory).calls := by
  have hattached : ∀ constraint ∈
      search.problem.constraints.filter (·.isApplicable (k + 1)),
      search.problem.Attached constraint := by
    intro constraint hmem
    exact Problem.mem_constraints.1 (List.mem_of_mem_filter hmem)
  -- A constraint that is applicable but not due was applicable before the last variable was bound,
  -- so it accepts by `hbelow`.
  have hskipped : ∀ constraint ∈ search.problem.constraints.filter (·.isApplicable (k + 1)),
      constraint.isDue search.start k = false →
      constraint.Accepts search.context assignment := by
    intro constraint hmem hnot
    obtain ⟨hlt, happlicable⟩ :=
      Constraint.applicable_of_not_due hstart (List.mem_filter.1 hmem).2 hnot
    exact hbelow hlt constraint (hattached constraint hmem) happlicable
  obtain ⟨accepted, last, last', hall, hdue, hchecks⟩ :=
    Exploration.allM_test_filter hlocal hattached (·.isDue search.start k) hsize hskipped
      { buffer := assignment, maxDepth := 0, memory }
      { buffer := assignment, maxDepth := 0, memory := other } rfl rfl (Nat.le_refl _)
  rw [Problem.filter_isDue, ← judge_incremental hvalid] at hdue
  rw [← judge_eq_allM hvalid] at hall
  obtain ⟨hanswer, hcalls⟩ := Scan.of_result hall
  obtain ⟨hanswer', hcalls'⟩ := Scan.of_result hdue
  refine ⟨hanswer'.trans hanswer.symm, ?_⟩
  rw [hcalls, hcalls'] at hchecks
  exact Nat.le_of_add_le_add_left hchecks

/-! ## In step -/

/-- From `first` on, the machine that asks only the due constraints comes to the state of the
search, but for the checks and the memory.  It has made no more checks. -/
structure InStep (search : Search σ κ) (first state : SearchState σ) (checks : Nat) (memory : σ) :
    Prop where
  accepted : search.start < state.frontier →
    search.problem.AcceptsUpTo search.context state.frontier state.buffer
  checks_le : checks ≤ state.checks
  run_eq : search.incremental.run first = search.incremental.run { state with checks, memory }

/-- Whether the flag is found set does not hang on what the checkers remember. -/
def SignalsApart (search : Search σ κ) : Prop :=
  ∀ nodes memory other, search.cancelled nodes memory = search.cancelled nodes other

theorem SignalsApart.interruption? (hsignals : search.SignalsApart) (nodes : Nat)
    (memory other : σ) : search.interruption? nodes memory = search.interruption? nodes other := by
  simp only [Search.interruption?, hsignals nodes memory other]

theorem stackInvariant_incremental (hinv : search.machine.StackInvariant state) (checks : Nat)
    (memory : σ) : search.incremental.StackInvariant { state with checks, memory } :=
  ⟨hinv.start_le, hinv.frontier_le, hinv.buffer_size, hinv.candidates_size, hinv.bound,
    hinv.inTurn⟩

variable {checks value : Nat} {memory : σ} {status : Status} {last : SearchState σ}

private theorem InStep.back (h : search.InStep first state checks memory)
    (hinv : search.machine.StackInvariant state) (hstart : search.start < state.frontier)
    (hlt : state.frontier < search.problem.domains.size)
    (hvalue : search.machine.nextValue? state = none) :
    search.InStep first state.steppedBack checks memory where
  accepted := fun _ => (h.accepted hstart).mono (Nat.sub_le _ _)
  checks_le := h.checks_le
  run_eq := by
    have hback : search.incremental.Onward { state with checks, memory }
        { state.steppedBack with checks, memory } := .back hlt hstart hvalue
    rw [h.run_eq, Machine.run_of_onward (hback.step (stackInvariant_incremental hinv _ _))]

private theorem InStep.accepted_assign (h : search.InStep first state checks memory)
    (hlocal : search.problem.Local search.context) (hinv : search.machine.StackInvariant state)
    (value : Nat) (hstart : search.start < state.frontier) :
    search.problem.AcceptsUpTo search.context state.frontier
      (search.machine.assign state value).buffer :=
  acceptsUpTo_assign hlocal hinv value (h.accepted hstart)

/-- Both machines find the same when they try a value, and the search makes no fewer calls. -/
private theorem InStep.probe (h : search.InStep first state checks memory)
    (hvalid : search.problem.flaw? = none) (hlocal : search.problem.Local search.context)
    (hinv : search.machine.StackInvariant state) (value : Nat) :
    (search.incremental.probe { state with checks, memory } value).answer =
        (search.machine.probe state value).answer ∧
      checks + (search.incremental.probe { state with checks, memory } value).calls ≤
        (search.machine.tested state value).checks := by
  obtain ⟨hanswer, hcalls⟩ := test_incremental hvalid hlocal (hinv.size_assign value)
    hinv.start_le (h.accepted_assign hlocal hinv value) state.memory memory
  exact ⟨hanswer, Nat.add_le_add h.checks_le hcalls⟩

private theorem InStep.rejected (h : search.InStep first state checks memory)
    (hvalid : search.problem.flaw? = none) (hlocal : search.problem.Local search.context)
    (hsignals : search.SignalsApart) (hinv : search.machine.StackInvariant state)
    (hvalue : search.machine.nextValue? state = some value)
    (hfree : search.interruption? state.nodes state.memory = none)
    (hanswer : (search.machine.probe state value).answer = .ok false) :
    ∃ checks memory, search.InStep first (search.machine.tested state value) checks memory := by
  obtain ⟨hsame, hle⟩ := h.probe hvalid hlocal hinv value
  have honward : search.incremental.Onward { state with checks, memory }
      (search.incremental.tested { state with checks, memory } value) :=
    .rejected value hvalue ((hsignals.interruption? _ memory _).trans hfree) (hsame.trans hanswer)
  refine ⟨_, (search.incremental.probe { state with checks, memory } value).memory,
    h.accepted_assign hlocal hinv value, hle, ?_⟩
  rw [h.run_eq, Machine.run_of_onward (honward.step (stackInvariant_incremental hinv _ _))]
  rfl

private theorem InStep.descended (h : search.InStep first state checks memory)
    (hvalid : search.problem.flaw? = none) (hlocal : search.problem.Local search.context)
    (hsignals : search.SignalsApart) (hinv : search.machine.StackInvariant state)
    (hvalue : search.machine.nextValue? state = some value)
    (hfree : search.interruption? state.nodes state.memory = none)
    (hanswer : (search.machine.probe state value).answer = .ok true) :
    ∃ checks memory, search.InStep first (search.machine.descended state value) checks memory := by
  obtain ⟨hsame, hle⟩ := h.probe hvalid hlocal hinv value
  have honward : search.incremental.Onward { state with checks, memory }
      (search.incremental.descended { state with checks, memory } value) :=
    .accepted value hvalue ((hsignals.interruption? _ memory _).trans hfree) (hsame.trans hanswer)
  obtain ⟨accepted, hok, haccepted⟩ :=
    test_of_local hvalid hlocal (hinv.size_assign value) (state.frontier + 1) state.memory
  have htrue : accepted = true := Except.ok.inj (hok.symm.trans hanswer)
  refine ⟨_, (search.incremental.probe { state with checks, memory } value).memory,
    fun _ => haccepted.1 htrue, hle, ?_⟩
  rw [h.run_eq, Machine.run_of_onward (honward.step (stackInvariant_incremental hinv _ _))]
  rfl

/-- Both machines end at the same turn, in the same way. -/
private theorem InStep.ended (h : search.InStep first state checks memory)
    (hsignals : search.SignalsApart) (hinv : search.machine.StackInvariant state)
    (hlast : search.machine.Ending state status last) :
    search.incremental.run first =
      { ending := .ok status, state := { last with checks, memory } } := by
  have hending : search.incremental.Ending { state with checks, memory } status
      { last with checks, memory } := by
    cases hlast with
    | solved hfrontier => exact .solved hfrontier
    | exhausted hlt hfrontier hvalue => exact .exhausted hlt hfrontier hvalue
    | interrupted value _ hvalue hreason =>
        exact .interrupted value _ hvalue ((hsignals.interruption? _ memory _).trans hreason)
  rw [h.run_eq, Machine.run_of_ended (hending.step (stackInvariant_incremental hinv _ _))]

/-- A run of the search that is not broken off is the run of the machine that asks only the due
constraints, but for the checks and the memory. -/
theorem Ready.run_incremental {buffer : Array Nat} {build : Build} {library : Library}
    (hready : search.Ready buffer build library) (hlocal : search.problem.Local search.context)
    (hsignals : search.SignalsApart) (memory : σ)
    (hending : (search.run buffer memory library.log).ending = .ok status) :
    let last := (search.run buffer memory library.log).state
    ∃ checks after, checks ≤ last.checks ∧
      search.incremental.run (search.initial buffer memory library.log) =
        { ending := .ok status, state := { last with checks, memory := after } } := by
  intro last
  have hinv := hready.stackInvariant memory library.log
  let first := search.initial buffer memory library.log
  -- Before the first turn nothing is known of the constraints on given variables, which is why
  -- these are due with the first variable.
  have hfirst : search.InStep first first 0 memory :=
    ⟨fun hlt => absurd hlt (Nat.lt_irrefl _), Nat.le_refl _, rfl⟩
  obtain ⟨before, hbefore, ⟨checks, after, hstep⟩, hlast⟩ :=
    Machine.StackInvariant.run_induction
      (motive := fun _ later => ∃ checks after, search.InStep first later checks after)
      (by
        rintro _ _ hinv hstart hlt hvalue ⟨checks, after, hstep⟩
        exact ⟨checks, after, hstep.back hinv hstart hlt hvalue⟩)
      (by
        rintro _ _ _ hinv hvalue hfree hanswer ⟨checks, after, hstep⟩
        exact hstep.rejected hready.problem hlocal hsignals hinv hvalue hfree hanswer)
      (by
        rintro _ _ _ hinv hvalue hfree hanswer ⟨checks, after, hstep⟩
        exact hstep.descended hready.problem hlocal hsignals hinv hvalue hfree hanswer)
      hinv ⟨0, memory, hfirst⟩ hending
  obtain ⟨candidates, hfinal⟩ := hlast.exists_candidates
  refine ⟨checks, after, ?_, hstep.ended hsignals hbefore hlast⟩
  rw [show last = { before with candidates } from hfinal]
  exact hstep.checks_le

/-- **Asking the due constraints is enough.**  Let the checkers be local, and let no flag hang on
what they remember.  Then the machine that, after each binding of a variable, asks only the
constraints whose last variable it is, and with the first variable also those on given ones, ends
like the search: with the same status, buffer, tried values, steps back and greatest depth.  The
search makes at least as many checks. -/
theorem perform_eq_incremental {buffer : Array Nat} {build : Build} {library : Library}
    (hready : search.Ready buffer build library) (hlocal : search.problem.Local search.context)
    (hsignals : search.SignalsApart) (memory : σ) :
    let report := search.perform buffer memory build library
    let variant := search.report library.activations
      (search.incremental.run (search.initial buffer memory library.log))
    ∃ result incremental, report.outcome = .ok result ∧ variant.outcome = .ok incremental ∧
      result.status = incremental.status ∧ report.buffer = variant.buffer ∧
      result.stats.nodes = incremental.stats.nodes ∧
      result.stats.backtracks = incremental.stats.backtracks ∧
      result.stats.maxDepth = incremental.stats.maxDepth ∧
      incremental.stats.checks ≤ result.stats.checks := by
  intro report variant
  obtain ⟨result, hresult, -⟩ := hready.exists_result hlocal.steady memory
  obtain ⟨hending, hstats⟩ := hready.ending_of_outcome hresult
  obtain ⟨checks, after, hle, hrun⟩ := hready.run_incremental hlocal hsignals memory hending
  have hvariant : variant = search.report library.activations
      { ending := .ok result.status
        state := { (search.run buffer memory library.log).state with checks, memory := after } } :=
    congrArg (search.report library.activations) hrun
  have hbuffer : report.buffer = variant.buffer :=
    (hready.buffer_perform memory).trans (congrArg Report.buffer hvariant).symm
  refine ⟨result, _, hresult, congrArg Report.outcome hvariant, rfl, hbuffer, ?_⟩
  rw [hstats]
  exact ⟨rfl, rfl, rfl, hle⟩

/-- Three variables in a row, each unlike the one before; the first is given, and it should be 1. -/
def alternating : Search Unit Unit where
  problem :=
    { domains := #[2, 2, 2]
      slots := #[
        some { scope := [0], checker := .byValues 0 (· == [1]) },
        some { scope := [0, 1], checker := .byValues 1 fun values => values[0]? != values[1]? },
        some { scope := [2, 1], checker := .byValues 1 fun values => values[0]? != values[1]? }] }
  context := ()
  config := { nodeLimit := some 2 }
  start := 1

/-- Stopped after its second attempt, the search has asked two constraints and then all three.  It
would have been enough to ask the third alone, and the buffer is the same. -/
theorem perform_eq_incremental_alternating :
    let variant := alternating.report 0
      (alternating.incremental.run (alternating.initial #[1, 9, 9] () #[]))
    (alternating.Ready #[1, 9, 9] .unchecked {} ∧ alternating.problem.Local () ∧
        alternating.SignalsApart) ∧
      (alternating.perform #[1, 9, 9] () .unchecked {}).outcome =
        .ok ⟨.nodeLimit, ⟨2, 5, 0, 2, 0⟩⟩ ∧
      variant.outcome = .ok ⟨.nodeLimit, ⟨2, 3, 0, 2, 0⟩⟩ ∧
      (alternating.perform #[1, 9, 9] () .unchecked {}).buffer = variant.buffer := by
  intro variant
  have hready : alternating.Ready #[1, 9, 9] .unchecked {} :=
    ⟨by decide, rfl, rfl, rfl, by decide⟩
  have hlocal : alternating.problem.Local () := by
    apply Problem.local_of_byValues
    intro constraint hattached
    simp only [Problem.Attached, alternating, List.mem_toArray, List.mem_cons, Option.some.injEq,
      List.not_mem_nil, or_false] at hattached
    rcases hattached with rfl | rfl | rfl
    · exact ⟨0, (· == [1]), rfl⟩
    · exact ⟨1, fun values => values[0]? != values[1]?, rfl⟩
    · exact ⟨1, fun values => values[0]? != values[1]?, rfl⟩
  have hsignals : alternating.SignalsApart := fun _ _ _ => rfl
  obtain ⟨result, incremental, -, -, -, hbuffer, -⟩ :=
    perform_eq_incremental hready hlocal hsignals ()
  exact ⟨⟨hready, hlocal, hsignals⟩, outcome_of_toOption (by decide +kernel),
    outcome_of_toOption (by decide +kernel), hbuffer⟩

end Search

end ConstraintSearch
