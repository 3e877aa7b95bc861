import ConstraintSearch.Proofs.Problem.Valid
import ConstraintSearch.Proofs.Search.Attempts

/-!
# Searches that begin

A search that meets no objection is the run of its machine (`Ready.perform_eq`), and its answer is
read off the way in which that run ends.  With checkers that do not give up, there is an answer
(`Ready.exists_result`), and it counts the attempts of the run.
-/

namespace ConstraintSearch.Search

variable {σ κ : Type} {search : Search σ κ} {buffer : Array Nat} {memory : σ} {build : Build}
  {library : Library}

/-- The search may begin in the buffer. -/
structure Ready (search : Search σ κ) (buffer : Array Nat) (build : Build) (library : Library) :
    Prop where
  /-- The checked build demands that the library is active. -/
  active : build = .checked → library.isActive = true
  config : search.config.flaw? = none
  problem : search.problem.flaw? = none
  length : buffer.size = search.problem.domains.size
  start_le : search.start ≤ search.problem.domains.size

/-- The search has no limits, and no flag stops it. -/
structure Unlimited (search : Search σ κ) : Prop where
  nodeLimit : search.config.nodeLimit = none
  timeLimit : search.config.timeLimit = none
  cancelled : ∀ nodes memory, search.cancelled nodes memory = false

theorem Unlimited.interruption?_eq_none (hunlimited : search.Unlimited) (nodes : Nat)
    (memory : σ) : search.machine.interruption? nodes memory = none := by
  show search.interruption? nodes memory = none
  simp [interruption?, hunlimited.nodeLimit, hunlimited.timeLimit, hunlimited.cancelled]

/-- The run of the machine, from its first turn on. -/
def run (search : Search σ κ) (buffer : Array Nat) (memory : σ) (log : Array Message) :
    Machine.Ended σ :=
  search.machine.run (search.initial buffer memory log)

/-- The states in which the search tries a value, each as it is just before, in order. -/
def attempts (search : Search σ κ) (buffer : Array Nat) (memory : σ) (log : Array Message) :
    List (SearchState σ) :=
  search.machine.attempts (search.initial buffer memory log)

/-- The same search of another problem. -/
def withProblem (search : Search σ κ) (other : Problem σ κ) : Search σ κ :=
  { search with problem := other }

theorem Ready.objection?_eq_none (hready : search.Ready buffer build library) :
    search.objection? build library.isActive buffer.size = none := by
  have hactive : ¬(build = .checked ∧ ¬library.isActive) := by
    rintro ⟨hchecked, hinactive⟩
    exact hinactive (hready.active hchecked)
  have hstart : ¬search.problem.domains.size < search.start := Nat.not_lt.2 hready.start_le
  simp only [objection?, if_neg hactive, hready.config, hready.problem, if_neg hstart,
    hready.length, ne_eq, not_true_eq_false, if_false]

/-- A search that meets no objection may begin. -/
theorem ready_of_objection?_eq_none
    (hnone : search.objection? build library.isActive buffer.size = none) :
    search.Ready buffer build library := by
  -- The five tests in their order; each that does not object is one of the fields.
  simp only [objection?] at hnone
  split at hnone
  · cases hnone
  · rename_i hactive
    split at hnone
    · cases hnone
    · rename_i hconfig
      split at hnone
      · cases hnone
      · rename_i hproblem
        split at hnone
        · cases hnone
        · rename_i hlength
          split at hnone
          · cases hnone
          · rename_i hstart
            refine ⟨?_, hconfig, hproblem, Decidable.of_not_not hlength, Nat.not_lt.1 hstart⟩
            intro hchecked
            simpa [hchecked] using hactive

/-- A search that may begin is the run of its machine. -/
theorem Ready.perform_eq (hready : search.Ready buffer build library) (memory : σ) :
    search.perform buffer memory build library =
      search.report library.activations (search.run buffer memory library.log) := by
  simp only [perform, hready.objection?_eq_none]
  rfl

/-- Searches by the same clock whose runs agree do the same. -/
theorem Ready.perform_congr {other : Search σ κ} (hready : search.Ready buffer build library)
    (hother : other.Ready buffer build library) (hclock : search.elapsed = other.elapsed)
    (hrun : search.run buffer memory library.log = other.run buffer memory library.log) :
    search.perform buffer memory build library = other.perform buffer memory build library := by
  calc search.perform buffer memory build library
      = search.report library.activations (other.run buffer memory library.log) := by
        rw [hready.perform_eq, hrun]
    _ = other.report library.activations (other.run buffer memory library.log) := by
        unfold report
        rw [hclock]
    _ = other.perform buffer memory build library := (hother.perform_eq memory).symm

theorem Ready.stackInvariant (hready : search.Ready buffer build library) (memory : σ)
    (log : Array Message) : search.machine.StackInvariant (search.initial buffer memory log) :=
  search.initial_stackInvariant hready.length hready.start_le memory log

theorem outcome_report_of_ok {ended : Machine.Ended σ} {status : Status} {activations : Nat}
    (hending : ended.ending = .ok status) :
    (search.report activations ended).outcome =
      .ok { status, stats := ended.state.stats (search.elapsed ended.state.nodes) } := by
  obtain ⟨ending, state⟩ := ended
  simp only at hending
  subst hending
  rfl

@[simp]
theorem buffer_report {ended : Machine.Ended σ} {activations : Nat} :
    (search.report activations ended).buffer = ended.state.buffer := by
  obtain ⟨ending, state⟩ := ended
  cases ending <;> rfl

@[simp]
theorem memory_report {ended : Machine.Ended σ} {activations : Nat} :
    (search.report activations ended).memory = ended.state.memory := by
  obtain ⟨ending, state⟩ := ended
  cases ending <;> rfl

theorem Ready.buffer_perform (hready : search.Ready buffer build library) (memory : σ) :
    (search.perform buffer memory build library).buffer =
      (search.run buffer memory library.log).state.buffer := by
  rw [hready.perform_eq, buffer_report]

/-- A search that has a result did begin. -/
theorem ready_of_outcome {result : Result}
    (hresult : (search.perform buffer memory build library).outcome = .ok result) :
    search.Ready buffer build library := by
  cases hobjection : search.objection? build library.isActive buffer.size with
  | none => exact ready_of_objection?_eq_none hobjection
  | some fault =>
      simp only [perform, hobjection] at hresult
      cases hresult

/-- The result is read off the end of the run. -/
theorem Ready.ending_of_outcome (hready : search.Ready buffer build library) {result : Result}
    (hresult : (search.perform buffer memory build library).outcome = .ok result) :
    (search.run buffer memory library.log).ending = .ok result.status ∧
      result.stats = (search.run buffer memory library.log).state.stats
        (search.elapsed (search.run buffer memory library.log).state.nodes) := by
  rw [hready.perform_eq] at hresult
  cases hending : (search.run buffer memory library.log).ending with
  | ok status =>
      rw [outcome_report_of_ok hending] at hresult
      injection hresult with hresult
      subst hresult
      exact ⟨rfl, rfl⟩
  | error fault =>
      simp only [report, hending] at hresult
      cases hresult

/-- A result counts the attempts of the run. -/
theorem Ready.nodes_of_outcome (hready : search.Ready buffer build library) {result : Result}
    (hresult : (search.perform buffer memory build library).outcome = .ok result) :
    result.stats.nodes = (search.attempts buffer memory library.log).length := by
  obtain ⟨-, hstats⟩ := hready.ending_of_outcome hresult
  rw [hstats]
  show (search.run buffer memory library.log).state.nodes = _
  rw [run, (hready.stackInvariant memory library.log).nodes_run]
  exact Nat.zero_add _

/-- A run that is not broken off gives a result. -/
theorem Ready.outcome_of_ending (hready : search.Ready buffer build library) {status : Status}
    (hending : (search.run buffer memory library.log).ending = .ok status) :
    (search.perform buffer memory build library).outcome =
      .ok
        { status
          stats := (search.run buffer memory library.log).state.stats
            (search.elapsed (search.run buffer memory library.log).state.nodes) } := by
  rw [hready.perform_eq]
  exact outcome_report_of_ok hending

/-- A limit or a signal is no verdict on the problem. -/
theorem status_of_interruption? {nodes : Nat} {status : Status}
    (hreason : search.interruption? nodes memory = some status) :
    status ≠ .solved ∧ status ≠ .exhausted := by
  unfold interruption? at hreason
  split at hreason
  · cases hreason
    decide
  · split at hreason
    · split at hreason
      · cases hreason
        decide
      · split at hreason
        · cases hreason
          decide
        · cases hreason
    · cases hreason

/-- A run that ends as solved has bound all variables, one that is exhausted none, and any other
has some left. -/
theorem frontier_of_ending {last final : SearchState σ} {status : Status}
    (h : search.machine.Ending last status final) :
    final.frontier = last.frontier ∧
      (status = .solved → final.frontier = search.problem.domains.size) ∧
      (status = .exhausted → final.frontier = search.start) ∧
      (status ≠ .solved → final.frontier < search.problem.domains.size) := by
  cases h with
  | solved hfrontier => exact ⟨rfl, fun _ => hfrontier, nofun, fun hne => absurd rfl hne⟩
  | exhausted hlt hfrontier _ => exact ⟨rfl, nofun, fun _ => hfrontier, fun _ => hlt⟩
  | interrupted value _ hvalue hreason =>
      obtain ⟨hsolved, hexhausted⟩ := status_of_interruption? hreason
      obtain ⟨-, size, hsize, -⟩ := Machine.nextValue?_eq_some hvalue
      exact ⟨rfl, fun h => absurd h hsolved, fun h => absurd h hexhausted,
        fun _ => (Array.getElem?_eq_some_iff.1 hsize).1⟩

/-! ## Checkers that do not give up -/

theorem Ready.steady_machine (hready : search.Ready buffer build library)
    (hsteady : search.problem.Steady search.context) : search.machine.Steady := by
  intro assignment frontier memory hsize
  exact Problem.scan_of_steady hready.problem hsteady hsize frontier memory

/-- If no checker gives up, the search has an answer.  It counts the attempts of the run. -/
theorem Ready.exists_result (hready : search.Ready buffer build library)
    (hsteady : search.problem.Steady search.context) (memory : σ) :
    ∃ result, (search.perform buffer memory build library).outcome = .ok result ∧
      result.stats.nodes = (search.attempts buffer memory library.log).length := by
  have hinv := hready.stackInvariant memory library.log
  obtain ⟨status, hstatus⟩ := hinv.exists_status (hready.steady_machine hsteady)
  refine ⟨_, hready.outcome_of_ending hstatus, ?_⟩
  show (search.run buffer memory library.log).state.nodes = _
  rw [run, hinv.nodes_run]
  exact Nat.zero_add _

/-! ## A search to look at -/

theorem outcome_of_toOption {outcome : Except Fault Result} {result : Result}
    (h : outcome.toOption = some result) : outcome = .ok result := by
  cases outcome with
  | ok other => exact congrArg Except.ok (Option.some.inj h)
  | error fault => cases h

/-- A search with a checker that counts its calls: it accepts the first, rejects the next two and
accepts from then on. -/
def fickle : Search Nat Unit where
  problem :=
    { domains := #[3, 2]
      slots := #[some
        { scope := [0]
          checker :=
            { identity := 0
              check := fun _ _ _ calls => .ok (calls = 0 ∨ 3 ≤ calls) (calls + 1) } }] }
  context := ()

theorem fickle_steady : fickle.problem.Steady () := by
  intro constraint hattached assignment memory _
  simp only [Problem.Attached, fickle, List.mem_toArray, List.mem_singleton,
    Option.some.injEq] at hattached
  subst hattached
  exact ⟨_, _, rfl⟩

end ConstraintSearch.Search
