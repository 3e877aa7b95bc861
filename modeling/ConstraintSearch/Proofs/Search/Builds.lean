import ConstraintSearch.Proofs.Problem.Builds
import ConstraintSearch.Proofs.Search.Words

/-!
# Searches in two builds

A turn of the machine does the same in both builds, unless its test meets a fault that the unchecked
build spares.  So does a whole run, and a search of problems that are alike: the only way for it to
differ is that it ends in a fault that is spared (`Problem.Alike.perform`).  A turn that is worked out
in words may also meet such a fault in its own sums; if it does not, it is the same
(`Machine.Alike.stepInWords`).

The argument goes down one level at a time, each time with the same proviso: *whatever fault the given
build meets, it is not spared*.  A fault of the test is one of the turn, a fault of a turn is one of
the run, and a fault of the run is one of the search.  So the proviso about the search is one about
every test that was made, and for the tests it is known what follows from it (`Problem.Alike.scan`).
-/

namespace ConstraintSearch

variable {σ κ : Type} {build : Build}

/-! ## Machines -/

/-- The same machine in the two builds. -/
structure Machine.Alike (build : Build) (machine machine' : Machine σ) : Prop where
  domains : machine'.domains = machine.domains
  start : machine'.start = machine.start
  interruption? : machine'.interruption? = machine.interruption?
  test : ∀ assignment frontier memory,
    (∀ fault, (machine.test assignment frontier memory).answer = .error fault →
      ¬fault.Spared build) →
      machine'.test assignment frontier memory = machine.test assignment frontier memory

namespace Machine.Alike

variable {machine machine' : Machine σ} {state : SearchState σ}

private theorem tryValue (h : machine.Alike build machine') {value : Nat}
    (hspared : ∀ fault last, machine.tryValue state value = .broken fault last →
      ¬fault.Spared build) :
    machine'.tryValue state value = machine.tryValue state value := by
  have hassign : machine'.assign state value = machine.assign state value := by
    unfold assign
    rw [h.start]
  -- A test that meets a fault breaks the search off with it, so the fault is not spared and the
  -- other build's test does the same.
  have hprobe : machine'.probe state value = machine.probe state value := by
    unfold probe
    rw [hassign]
    refine h.test _ _ _ fun fault hanswer => hspared fault (machine.tested state value) ?_
    have hanswer' : (machine.probe state value).answer = .error fault := hanswer
    rw [tryValue_eq, hanswer']
  have htested : machine'.tested state value = machine.tested state value := by
    unfold tested
    rw [hassign, hprobe]
  have hdescended : machine'.descended state value = machine.descended state value := by
    unfold descended
    rw [hassign, htested]
  rw [tryValue_eq, tryValue_eq, hprobe, htested, hdescended]

/-- Unless the fault that a turn is broken off with is spared, the turn is the same. -/
theorem step (h : machine.Alike build machine') (state : SearchState σ)
    (hspared : ∀ fault last, machine.step state = .broken fault last → ¬fault.Spared build) :
    machine'.step state = machine.step state := by
  have hback : machine'.stepBack state = machine.stepBack state := by
    unfold stepBack
    rw [h.start]
  -- The cases are those of the turn; the test decides only where a value is tried.
  unfold Machine.step at hspared ⊢
  rw [h.domains, h.start, h.interruption?, hback]
  by_cases hsolved : state.frontier = machine.domains.size
  · simp only [if_pos hsolved]
  · by_cases hstart : state.frontier < machine.start
    · simp only [if_neg hsolved, if_pos hstart]
    · simp only [if_neg hsolved, if_neg hstart] at hspared ⊢
      cases hvalue : state.candidates[state.frontier - machine.start]? with
      | none => rfl
      | some value =>
          cases hsize : machine.domains[state.frontier]? with
          | none => rfl
          | some size =>
              by_cases hspent : size ≤ value
              · simp only [if_pos hspent]
              · cases hreason : machine.interruption? state.nodes state.memory with
                | some status => rfl
                | none =>
                    by_cases hbuffer : state.frontier < state.buffer.size
                    · simp only [hvalue, hsize, hreason, if_neg hspent, if_pos hbuffer]
                        at hspared ⊢
                      exact h.tryValue hspared
                    · simp only [if_neg hbuffer]

/-- Unless the fault that a run is broken off with is spared, the run is the same. -/
theorem run (h : machine.Alike build machine') (state : SearchState σ)
    (hspared : ∀ fault, (machine.run state).ending = .error fault → ¬fault.Spared build) :
    machine'.run state = machine.run state := by
  -- Along the run of the given build.  Only a turn that breaks the search off can meet a fault, and
  -- then it is the fault of the whole run.
  induction state using Machine.run.induct machine with
  | case1 state next hnext ih =>
      have hnext' := h.step state fun fault last hbroken => by
        rw [hnext] at hbroken
        cases hbroken
      rw [run_of_onward hnext] at hspared ⊢
      rw [run_of_onward (hnext'.trans hnext)]
      exact ih hspared
  | case2 state status last hlast =>
      have hlast' := h.step state fun fault last hbroken => by
        rw [hlast] at hbroken
        cases hbroken
      rw [run_of_ended hlast, run_of_ended (hlast'.trans hlast)]
  | case3 state fault last hlast =>
      rw [run_of_broken hlast] at hspared ⊢
      have hlast' := h.step state fun other after hbroken => by
        rw [hlast] at hbroken
        cases hbroken
        exact hspared fault rfl
      rw [run_of_broken (hlast'.trans hlast)]

end Machine.Alike

/-! ## Turns in words -/

/-- The fault of a sum is one that is spared. -/
theorem Build.spared_of_add {a b : Nat} {fault : Fault} (h : build.add a b = .error fault) :
    fault.Spared build := by
  unfold Build.add Build.asWord at h
  by_cases hword : a + b < wordCount
  · rw [if_pos hword] at h
    cases h
  · rw [if_neg hword] at h
    cases build with
    | checked =>
        cases h
        exact ⟨rfl, rfl⟩
    | unchecked => cases h

theorem Build.subtract_unchecked {a b : Nat}
    (hspared : Fault.Unspared build (build.subtract a b)) :
    Build.unchecked.subtract a b = build.subtract a b := by
  unfold Build.subtract at hspared ⊢
  by_cases hle : b ≤ a
  · rw [if_pos hle, if_pos hle]
  · rw [if_neg hle] at hspared ⊢
    rw [if_neg hle]
    cases build with
    | checked => exact absurd ⟨rfl, rfl⟩ (hspared _ rfl)
    | unchecked => rfl

/-- The turn does not meet a fault that is spared, neither in its own sums and reads nor in its
test. -/
structure Turn.Unspared (build : Build) (turn : Except Fault (Turn σ)) : Prop where
  own : Fault.Unspared build turn
  test : ∀ fault last, turn = .ok (.broken fault last) → ¬fault.Spared build

theorem Turn.not_spared_of_error (fault : Fault)
    (h : Turn.Unspared build (.error fault : Except Fault (Turn σ))) : ¬fault.Spared build :=
  h.own fault rfl

namespace Machine.Alike

variable {machine machine' : Machine σ} {state : SearchState σ}

private theorem stepBackInWords (h : machine.Alike build machine')
    (hturn : Turn.Unspared build (machine.stepBackInWords build state)) :
    machine'.stepBackInWords .unchecked state = machine.stepBackInWords build state := by
  unfold Machine.stepBackInWords at hturn ⊢
  rw [h.start]
  by_cases hfirst : state.frontier = machine.start
  · simp only [if_pos hfirst]
  · simp only [if_neg hfirst] at hturn ⊢
    refine Fault.bind_unchecked Turn.not_spared_of_error hturn Build.subtract_unchecked
      fun frontier hturn => ?_
    exact Fault.bind_unchecked Turn.not_spared_of_error hturn Build.add_unchecked
      fun backtracks _ => rfl

private theorem tryValueInWords (h : machine.Alike build machine') {depth value : Nat}
    (hturn : Turn.Unspared build (machine.tryValueInWords build state depth value)) :
    machine'.tryValueInWords .unchecked state depth value =
      machine.tryValueInWords build state depth value := by
  unfold Machine.tryValueInWords at hturn ⊢
  refine Fault.bind_unchecked Turn.not_spared_of_error hturn Build.add_unchecked
    fun following hturn => ?_
  refine Fault.bind_unchecked Turn.not_spared_of_error hturn (fun _ => rfl) fun _ hturn => ?_
  refine Fault.bind_unchecked Turn.not_spared_of_error hturn Build.add_unchecked
    fun nodes hturn => ?_
  refine Fault.bind_unchecked Turn.not_spared_of_error hturn Build.add_unchecked
    fun behind hturn => ?_
  simp only at hturn ⊢
  have htest := h.test (state.buffer.setIfInBounds state.frontier value) behind state.memory (by
    intro fault hanswer hspared
    cases hchecks : build.add state.checks (machine.test
        (state.buffer.setIfInBounds state.frontier value) behind state.memory).calls with
    | ok checks =>
        exact hturn.test fault _ (by
          rw [hchecks]
          simp only [hanswer]
          rfl) hspared
    | error other =>
        refine hturn.own other ?_ (Build.spared_of_add hchecks)
        rw [hchecks]
        rfl)
  simp only [htest]
  exact Fault.bind_unchecked Turn.not_spared_of_error hturn Build.add_unchecked fun checks _ => rfl

/-- A turn in words is the same in both builds, unless it meets a fault that is spared. -/
theorem stepInWords (h : machine.Alike build machine')
    (hturn : Turn.Unspared build (machine.stepInWords build state)) :
    machine'.stepInWords .unchecked state = machine.stepInWords build state := by
  unfold Machine.stepInWords at hturn ⊢
  rw [h.domains, h.start, h.interruption?]
  by_cases hsolved : state.frontier = machine.domains.size
  · simp only [if_pos hsolved]
  · simp only [if_neg hsolved] at hturn ⊢
    refine Fault.bind_unchecked Turn.not_spared_of_error hturn Build.subtract_unchecked
      fun depth hturn => ?_
    refine Fault.bind_unchecked Turn.not_spared_of_error hturn (fun _ => rfl) fun value hturn => ?_
    refine Fault.bind_unchecked Turn.not_spared_of_error hturn (fun _ => rfl) fun size hturn => ?_
    by_cases hspent : size ≤ value
    · simp only [if_pos hspent] at hturn ⊢
      exact h.stepBackInWords hturn
    · simp only [if_neg hspent] at hturn ⊢
      cases hreason : machine.interruption? state.nodes state.memory with
      | some status => rfl
      | none =>
          rw [hreason] at hturn
          exact h.tryValueInWords hturn

end Machine.Alike

/-! ## Searches -/

namespace Problem.Alike

variable {search : Search σ κ} {problem' : Problem σ κ}

theorem machine (h : search.problem.Alike build problem') :
    search.machine.Alike build (search.withProblem problem').machine where
  domains := h.domains
  start := rfl
  interruption? := rfl
  test _ _ _ hspared := h.scan hspared

theorem initial (h : search.problem.Alike build problem') (buffer : Array Nat) (memory : σ)
    (log : Array Message) :
    (search.withProblem problem').initial buffer memory log = search.initial buffer memory log := by
  unfold Search.initial Search.withProblem
  rw [h.domains, h.size_slots]

/-- Unless it is spared, the unchecked build has the same objection to a search. -/
theorem objection? (h : search.problem.Alike build problem') (active active' : Bool)
    (length : Nat)
    (hspared : ∀ fault, search.objection? build active length = some fault →
      ¬fault.Spared build) :
    (search.withProblem problem').objection? .unchecked active' length =
      search.objection? build active length := by
  have hactive : ¬(build = .checked ∧ ¬active = true) := by
    intro hinactive
    exact hspared .inactive (if_pos hinactive) ⟨hinactive.1, rfl⟩
  have hunchecked : ¬(Build.unchecked = .checked ∧ ¬active' = true) := fun h => nomatch h.1
  unfold Search.objection? Search.withProblem
  rw [if_neg hactive, if_neg hunchecked, h.flaw?, h.domains]

/-- Unless the fault that a search ends in is spared, the unchecked build leaves the same report of
it, whatever its activations are. -/
theorem perform (h : search.problem.Alike build problem') {buffer : Array Nat} {memory : σ}
    {library library' : Library} (hlog : library'.log = library.log)
    (hspared : ∀ fault, (search.perform buffer memory build library).outcome = .error fault →
      ¬fault.Spared build) :
    let report := search.perform buffer memory build library
    report.library.activations = library.activations ∧
      (search.withProblem problem').perform buffer memory .unchecked library' =
        { report with
          library := { activations := library'.activations, log := report.library.log } } := by
  obtain ⟨activations, log⟩ := library
  obtain ⟨activations', log'⟩ := library'
  obtain rfl : log' = log := hlog
  -- What is objected to is a fault of the whole search, so it is not spared.  If nothing is, the
  -- runs are compared.
  have hobjection := h.objection? (Library.isActive ⟨activations, log'⟩)
    (Library.isActive ⟨activations', log'⟩) buffer.size (by
      intro fault hfault
      refine hspared fault ?_
      unfold Search.perform
      rw [hfault])
  unfold Search.perform at hspared ⊢
  rw [hobjection]
  cases hfault : search.objection? build (Library.isActive ⟨activations, log'⟩) buffer.size with
  | some fault => exact ⟨rfl, rfl⟩
  | none =>
      rw [hfault] at hspared
      have hrun := h.machine.run (search.initial buffer memory log') (by
        intro fault hending
        refine hspared fault ?_
        simp only [Search.report, hending])
      simp only [h.initial, hrun]
      clear hspared hrun
      generalize search.machine.run (search.initial buffer memory log') = ended
      obtain ⟨ending, state⟩ := ended
      cases ending with
      | ok status => exact ⟨rfl, rfl⟩
      | error fault => exact ⟨rfl, rfl⟩

end Problem.Alike

end ConstraintSearch
