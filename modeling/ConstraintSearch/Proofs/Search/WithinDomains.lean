import ConstraintSearch.Proofs.Problem.Replaced
import ConstraintSearch.Proofs.Search.LeastExtension

/-!
# Checkers that are local on the domains

A checker that computes with the values of its variables may be at a loss with large ones.  But a
search for all variables asks a checker only about values below the sizes of their domains, so it is
enough if it is local on those (`LocalWithin`).

The proof replaces such checkers by ones that are local everywhere and agree with them on the
domains.  The scans of the two agree on all assignments that a run comes across, so the runs are the
same (`StackInvariant.run_withTest`), and what is known about local checkers carries over
(`Ready.perform_of_localWithin`).

`AgreesWithin` is what is asked of the replacement.  It is found by taking the verdict on the values of
the variables as the answer everywhere (`LocalWithin.exists_checker`).
-/

namespace ConstraintSearch

variable {σ κ : Type}

namespace Machine

variable {machine : Machine σ} {state next : SearchState σ}

/-- The values of the variables in a range are below the sizes of their domains. -/
def InDomains (machine : Machine σ) (assignment : Array Nat) (frontier : Nat) : Prop :=
  assignment.size = machine.domains.size ∧ ∀ i, machine.start ≤ i → i < frontier →
    ∃ value size, assignment[i]? = some value ∧ machine.domains[i]? = some size ∧ value < size

variable {test : Array Nat → Nat → σ → Scan σ}

/-- After a write, the values up to the slot that is written are in their domains. -/
theorem StackInvariant.inDomains_assign (hinv : StackInvariant machine state) {value : Nat}
    (hvalue : machine.nextValue? state = some value) :
    machine.InDomains (machine.assign state value).buffer (state.frontier + 1) := by
  obtain ⟨-, size, hsize, hless⟩ := nextValue?_eq_some hvalue
  have hlt : state.frontier < machine.domains.size := (Array.getElem?_eq_some_iff.1 hsize).1
  refine ⟨hinv.size_assign value, ?_⟩
  intro i hi hle
  simp only [Machine.assign]
  rcases Nat.lt_or_eq_of_le (Nat.le_of_lt_succ hle) with hbelow | rfl
  · obtain ⟨old, size', hold, hsize', hless', -⟩ := hinv.bound i hi hbelow
    exact ⟨old, size', by rw [Array.getElem?_setIfInBounds_ne (by omega), hold], hsize', hless'⟩
  · exact ⟨value, size, Array.getElem?_setIfInBounds_self_of_lt (hinv.buffer_size ▸ hlt), hsize,
      hless⟩

/-- Tests that agree on the domains make the same runs. -/
theorem StackInvariant.run_withTest (hinv : StackInvariant machine state)
    (htest : ∀ assignment frontier memory, machine.InDomains assignment frontier →
      test assignment frontier memory = machine.test assignment frontier memory) :
    (machine.withTest test).run state = machine.run state := by
  have hsame : ∀ {state : SearchState σ}, StackInvariant machine state →
      (machine.withTest test).step state = machine.step state := fun hinv =>
    hinv.step_withTest fun _ hvalue => htest _ _ _ (hinv.inDomains_assign hvalue)
  induction state using Machine.run.induct machine with
  | case1 state next hnext ih =>
      rw [run_of_onward hnext, run_of_onward ((hsame hinv).trans hnext)]
      exact ih (hinv.step hnext)
  | case2 state status last hlast =>
      rw [run_of_ended hlast, run_of_ended ((hsame hinv).trans hlast)]
  | case3 state fault last hlast =>
      rw [run_of_broken hlast, run_of_broken ((hsame hinv).trans hlast)]

end Machine

namespace Problem

variable {problem : Problem σ κ} {context : κ} {assignment : Array Nat}
  {checker : Constraint σ κ → Checker σ κ}

/-- The variables of the constraint have values in their domains. -/
def Covers (problem : Problem σ κ) (assignment : Array Nat) (constraint : Constraint σ κ) : Prop :=
  ∀ v ∈ constraint.scope, ∃ value size,
    assignment[v]? = some value ∧ problem.domains[v]? = some size ∧ value < size

/-- Each constraint has a checker that answers by the values of its variables, as long as these are
in their domains. -/
def LocalWithin (problem : Problem σ κ) (context : κ) : Prop :=
  ∀ constraint, problem.Attached constraint → ∃ verdict : List Nat → Bool,
    ∀ (assignment : Array Nat) (memory : σ), assignment.size = problem.domains.size →
      problem.Covers assignment constraint →
      constraint.check assignment context memory =
        .ok (verdict (constraint.values assignment)) memory

/-- The problem with other checkers for its constraints. -/
def withCheckers (problem : Problem σ κ) (checker : Constraint σ κ → Checker σ κ) :
    Problem σ κ :=
  { problem with
    slots := problem.slots.map (Option.map fun constraint =>
      { constraint with checker := checker constraint }) }

/-- The other checkers answer like the own ones, as long as the values are in their domains. -/
def AgreesWithin (problem : Problem σ κ) (context : κ)
    (checker : Constraint σ κ → Checker σ κ) : Prop :=
  ∀ constraint, problem.Attached constraint → ∀ (assignment : Array Nat) (memory : σ),
    assignment.size = problem.domains.size → problem.Covers assignment constraint →
    (checker constraint).check constraint.scope assignment context memory =
      constraint.check assignment context memory

theorem attached_withCheckers {constraint : Constraint σ κ} :
    (problem.withCheckers checker).Attached constraint ↔
      ∃ own, problem.Attached own ∧ constraint = { own with checker := checker own } := by
  simp only [Attached, withCheckers, Array.mem_map, Option.map_eq_some_iff]
  constructor
  · rintro ⟨slot, hslot, own, rfl, rfl⟩
    exact ⟨own, hslot, rfl⟩
  · rintro ⟨own, hown, rfl⟩
    exact ⟨some own, hown, own, rfl, rfl⟩

theorem flaw?_withCheckers (hvalid : problem.flaw? = none) :
    (problem.withCheckers checker).flaw? = none := by
  rw [flaw?_eq_none_iff] at hvalid ⊢
  intro index slot hslot
  simp only [withCheckers, Array.getElem?_map, Option.map_eq_some_iff] at hslot
  obtain ⟨own, hown, rfl⟩ := hslot
  obtain ⟨constraint, rfl, hscope⟩ := hvalid index own hown
  exact ⟨_, rfl, hscope⟩

/-- Checkers that agree on the applicable constraints make the same scan. -/
theorem scan_withCheckers {frontier : Nat}
    (hcheck : ∀ constraint, problem.Attached constraint → constraint.isApplicable frontier = true →
      ∀ memory, (checker constraint).check constraint.scope assignment context memory =
        constraint.check assignment context memory) (memory : σ) :
    (problem.withCheckers checker).scan assignment context frontier memory =
      problem.scan assignment context frontier memory := by
  have hreplaced : problem.ReplacedBy (problem.withCheckers checker) id
      (fun _ constraint => { constraint with checker := checker constraint }) assignment context
      frontier := by
    refine ⟨fun slot => Array.getElem?_map, fun _ _ => rfl, fun slot constraint hset memory => ?_⟩
    obtain ⟨hslot, happlicable⟩ := applicableAt?_eq_some_iff.1 hset
    rw [seenThrough_id]
    exact hcheck constraint (attached_of_getElem? hslot) happlicable memory
  exact (hreplaced.scanFrom 0).symm

/-- The checkers can be replaced by ones that are local everywhere. -/
theorem LocalWithin.exists_checker (hlocal : problem.LocalWithin context) :
    ∃ checker : Constraint σ κ → Checker σ κ,
      (problem.withCheckers checker).Local context ∧ problem.AgreesWithin context checker := by
  choose! verdict hverdict using hlocal
  refine ⟨fun constraint => .byValues 0 (verdict constraint), ?_, ?_⟩
  · apply local_of_byValues
    intro constraint hattached
    obtain ⟨own, -, rfl⟩ := attached_withCheckers.1 hattached
    exact ⟨0, verdict own, rfl⟩
  · intro constraint hattached assignment memory hsize hcovers
    rw [hverdict constraint hattached assignment memory hsize hcovers]
    rfl

/-- An assignment of values in the domains covers every constraint. -/
theorem covers_of_forall₂ (hvalid : problem.flaw? = none) {values : List Nat}
    (hvalues : List.Forall₂ (· < ·) values problem.domains.toList) {constraint : Constraint σ κ}
    (hattached : problem.Attached constraint) : problem.Covers values.toArray constraint := by
  intro v hv
  have hlt := scope_lt_of_valid hvalid hattached hv
  have hlength : v < values.length := hvalues.length_eq ▸ hlt
  refine ⟨values[v], problem.domains[v], ?_, Array.getElem?_eq_getElem hlt, ?_⟩
  · simp [hlength]
  · exact hvalues.get hlength hlt

end Problem

namespace Search

variable {search : Search σ κ} {buffer : Array Nat} {build : Build} {library : Library}

/-- The search with other checkers. -/
def withCheckers (search : Search σ κ) (checker : Constraint σ κ → Checker σ κ) : Search σ κ :=
  { search with problem := search.problem.withCheckers checker }

theorem Ready.withCheckers (hready : search.Ready buffer build library)
    (checker : Constraint σ κ → Checker σ κ) :
    (search.withCheckers checker).Ready buffer build library :=
  ⟨hready.active, hready.config, Problem.flaw?_withCheckers hready.problem, hready.length,
    hready.start_le⟩

/-- Checkers that agree on the domains make the same run. -/
theorem Ready.run_withCheckers (hready : search.Ready buffer build library)
    (hstart : search.start = 0) {checker : Constraint σ κ → Checker σ κ}
    (hagrees : search.problem.AgreesWithin search.context checker) (memory : σ)
    (log : Array Message) :
    (search.withCheckers checker).run buffer memory log = search.run buffer memory log := by
  have hinitial : (search.withCheckers checker).initial buffer memory log =
      search.initial buffer memory log := by
    simp [initial, Search.withCheckers, Problem.withCheckers]
  rw [run, hinitial]
  show (search.machine.withTest (search.withCheckers checker).machine.test).run _ = _
  apply (hready.stackInvariant memory log).run_withTest
  rintro assignment frontier memory ⟨hsize, hvalues⟩
  apply Problem.scan_withCheckers
  intro constraint hattached happlicable memory
  apply hagrees constraint hattached assignment memory hsize
  intro v hv
  have hle : search.start ≤ v := hstart ▸ Nat.zero_le v
  exact hvalues v hle ((constraint.isApplicable_iff frontier).1 happlicable v hv)

/-- Checkers that agree on the domains accept the same values. -/
theorem completes_withCheckers (hvalid : search.problem.flaw? = none)
    {checker : Constraint σ κ → Checker σ κ}
    (hagrees : search.problem.AgreesWithin search.context checker) {values : List Nat} :
    (search.withCheckers checker).problem.Completes search.context [] values ↔
      search.problem.Completes search.context [] values := by
  refine and_congr_right fun hvalues => ?_
  -- A completion gives values of the domains, and on those the old checker and the new one answer
  -- alike.
  have hsame : ∀ constraint, search.problem.Attached constraint → ∀ memory,
      (checker constraint).check constraint.scope values.toArray search.context memory =
        constraint.check values.toArray search.context memory := by
    intro constraint hattached memory
    exact hagrees constraint hattached values.toArray memory hvalues.length_eq
      (Problem.covers_of_forall₂ hvalid hvalues hattached)
  constructor
  · intro haccepts constraint hattached memory
    rw [List.nil_append, ← hsame constraint hattached memory]
    exact haccepts _ (Problem.attached_withCheckers.2 ⟨constraint, hattached, rfl⟩) memory
  · intro haccepts constraint hattached memory
    obtain ⟨own, hown, rfl⟩ := Problem.attached_withCheckers.1 hattached
    obtain ⟨after, hafter⟩ := haccepts own hown memory
    exact ⟨after, (hsame own hown memory).trans hafter⟩

/-- With checkers that are local on the domains, a search for values of all variables finds the
least ones that every constraint accepts, or there are none. -/
theorem Ready.perform_of_localWithin (hready : search.Ready buffer build library)
    (hunlimited : search.Unlimited) (hlocal : search.problem.LocalWithin search.context)
    (hstart : search.start = 0) (hpos : 0 < search.problem.domains.size) (memory : σ) :
    ∃ result, (search.perform buffer memory build library).outcome = .ok result ∧
      ((result.status = .solved ∧
          IsLeast {values | search.problem.Completes search.context [] values}
            (search.perform buffer memory build library).buffer.toList) ∨
        (result.status = .exhausted ∧
          ∀ values, ¬search.problem.Completes search.context [] values)) := by
  obtain ⟨checker, hlocal, hagrees⟩ := hlocal.exists_checker
  have hready' := hready.withCheckers checker
  have hrun := hready'.outcome_run
    ⟨hunlimited.nodeLimit, hunlimited.timeLimit, hunlimited.cancelled⟩ memory library.log
  have hnonempty : (search.withCheckers checker).problem.domains.toList.drop 0 ≠ [] := by
    intro hnil
    have hge := List.drop_eq_nil_iff.1 hnil
    rw [Array.length_toList] at hge
    exact absurd hpos (Nat.not_lt.2 hge)
  have hfinds := finds_explore hready'.problem hlocal _ []
    ((search.withCheckers checker).firstTrail buffer memory) rfl (Nat.zero_le _) hready.length
    List.nil_prefix (fun hnil => absurd hnil hnonempty)
  have hsame : {values | (search.withCheckers checker).problem.Completes search.context [] values} =
      {values | search.problem.Completes search.context [] values} :=
    Set.ext fun values => completes_withCheckers hready.problem hagrees
  rw [hready.run_withCheckers hstart hagrees] at hrun
  obtain ⟨houtcome, hbuffer, -⟩ := hready.perform_of_outcome hrun
  have hstart' : (search.withCheckers checker).start = 0 := hstart
  rw [hstart'] at houtcome hbuffer
  rw [houtcome, hbuffer]
  revert hfinds
  cases Exploration.explore (search.withCheckers checker).machine.judge
      ((search.withCheckers checker).problem.domains.toList.drop 0) 0
      ((search.withCheckers checker).firstTrail buffer memory) with
  | error fault last => exact False.elim
  | ok found last =>
      cases found with
      | true =>
          rintro ⟨values, hlast, hleast⟩
          refine ⟨_, rfl, .inl ⟨rfl, ?_⟩⟩
          show IsLeast _ last.buffer.toList
          rw [hlast, List.nil_append, ← hsame]
          exact hleast
      | false =>
          rintro ⟨hnone, -, -⟩
          refine ⟨_, rfl, .inr ⟨rfl, fun values hcompletes => hnone values ?_⟩⟩
          exact (completes_withCheckers hready.problem hagrees).2 hcompletes

end Search

end ConstraintSearch
