import ConstraintSearch.Proofs.Search.Accounting
import Mathlib.Algebra.BigOperators.Intervals
import Mathlib.Algebra.BigOperators.Ring.Finset

/-!
# How long a search takes

Whatever the checkers answer, be it different things at different times, a search is over after
finitely many turns.  The stack says how many values can still be tried: for each entry, the values
of its variable that are left, each with all that can be tried behind it (`remainingTries`).  A
tried value takes at least itself away from that number, and a step back adds nothing.  What there
is at the start is the sum of the products of the sizes of the domains.

A turn that goes on either tries a value or steps back, and the last one does neither.  So the tried
values and the steps back, and one more, are the turns (`perform_turns`).

## What is left to try

For an entry `c` of a variable with domain size `d`, `entryTries` is `(d - c)` times one and all that
can be tried behind it, and `remainingTries` adds these up along the stack.

| move | tried | `remainingTries` |
|---|---|---|
| step back | -- | does not grow |
| rejected | one more | less one, and less what is behind the value |
| accepted | one more | less one |
-/

namespace ConstraintSearch

variable {σ κ : Type}

/-! ## All tries -/

/-- The values that are tried for the variables from `v` on if every value is accepted as long as
there is a variable behind: for each variable, the tuples that end with it. -/
def triesFrom (domains : Array Nat) (v : Nat) : Nat :=
  ∑ k ∈ Finset.Ico v domains.size, ∏ i ∈ Finset.Icc v k, domains.getD i 0

theorem triesFrom_of_ge {domains : Array Nat} {v : Nat} (h : domains.size ≤ v) :
    triesFrom domains v = 0 := by
  rw [triesFrom, Finset.Ico_eq_empty_of_le h, Finset.sum_empty]

/-- Each value of the first variable is tried, and then all tuples behind it. -/
theorem triesFrom_of_lt {domains : Array Nat} {v : Nat} (h : v < domains.size) :
    triesFrom domains v = domains.getD v 0 * (1 + triesFrom domains (v + 1)) := by
  -- Every product but the first begins with the size of the domain of `v`: take it out.
  have hproduct : ∀ k ∈ Finset.Ico (v + 1) domains.size,
      ∏ i ∈ Finset.Icc v k, domains.getD i 0 =
        domains.getD v 0 * ∏ i ∈ Finset.Icc (v + 1) k, domains.getD i 0 := by
    intro k hk
    have hle : v ≤ k := Nat.le_of_succ_le (Finset.mem_Ico.1 hk).1
    rw [← Finset.Ico_add_one_right_eq_Icc, ← Finset.Ico_add_one_right_eq_Icc]
    exact Finset.prod_eq_prod_Ico_succ_bot (Nat.lt_succ_of_le hle) _
  calc triesFrom domains v
      = domains.getD v 0 + ∑ k ∈ Finset.Ico (v + 1) domains.size,
          ∏ i ∈ Finset.Icc v k, domains.getD i 0 := by
        rw [triesFrom, Finset.sum_eq_sum_Ico_succ_bot h, Finset.Icc_self, Finset.prod_singleton]
    _ = domains.getD v 0 + domains.getD v 0 * triesFrom domains (v + 1) := by
        rw [Finset.sum_congr rfl hproduct, ← Finset.mul_sum, triesFrom]
    _ = domains.getD v 0 * (1 + triesFrom domains (v + 1)) := by
        rw [Nat.mul_add, Nat.mul_one]

namespace Machine

variable {machine : Machine σ} {state : SearchState σ} {value : Nat} {status : Status}

/-! ## The tries that are left -/

/-- The values that can be tried for a variable from a candidate on, and behind each of them. -/
def entryTries (machine : Machine σ) (v candidate : Nat) : Nat :=
  (machine.domains.getD v 0 - candidate) * (1 + triesFrom machine.domains (v + 1))

/-- The values that can be tried from the entries for the variables below `v` on. -/
def triesBelow (machine : Machine σ) (candidates : Array Nat) (v : Nat) : Nat :=
  ∑ i ∈ Finset.Ico machine.start v, machine.entryTries i (candidates.getD (i - machine.start) 0)

/-- The most values that can still be tried. -/
def remainingTries (machine : Machine σ) (state : SearchState σ) : Nat :=
  machine.triesBelow state.candidates (state.frontier + 1)

theorem entryTries_zero (machine : Machine σ) (v : Nat) :
    machine.entryTries v 0 = triesFrom machine.domains v := by
  rcases Nat.lt_or_ge v machine.domains.size with hlt | hge
  · rw [entryTries, triesFrom_of_lt hlt, Nat.sub_zero]
  · simp [entryTries, triesFrom_of_ge hge, Array.getElem?_eq_none hge]

/-- To try a value takes away the value and what can be tried behind it. -/
theorem entryTries_succ {v size : Nat} (hsize : machine.domains[v]? = some size)
    (hlt : value < size) :
    machine.entryTries v value =
      machine.entryTries v (value + 1) + (1 + triesFrom machine.domains (v + 1)) := by
  have hone : size - value = size - (value + 1) + 1 := by omega
  rw [entryTries, entryTries, Array.getD_eq_getD_getElem?, hsize, Option.getD_some, hone,
    Nat.succ_mul]

theorem triesBelow_succ (machine : Machine σ) (candidates : Array Nat) {v : Nat}
    (hstart : machine.start ≤ v) :
    machine.triesBelow candidates (v + 1) = machine.triesBelow candidates v +
      machine.entryTries v (candidates.getD (v - machine.start) 0) :=
  Finset.sum_Ico_succ_top hstart _

/-- The entries above do not matter. -/
theorem triesBelow_congr {candidates other : Array Nat} {v : Nat}
    (h : ∀ depth < v - machine.start, candidates[depth]? = other[depth]?) :
    machine.triesBelow candidates v = machine.triesBelow other v := by
  refine Finset.sum_congr rfl fun i hi => ?_
  obtain ⟨hle, hlt⟩ := Finset.mem_Ico.1 hi
  rw [Array.getD_eq_getD_getElem?, Array.getD_eq_getD_getElem?, h (i - machine.start) (by omega)]

/-! ## Turn by turn -/

private theorem remainingTries_steppedBack_le (hinv : StackInvariant machine state)
    (hstart : machine.start < state.frontier) :
    machine.remainingTries state.steppedBack ≤ machine.remainingTries state := by
  have hsize := hinv.candidates_size
  have hpop : ∀ depth < state.frontier - machine.start,
      state.candidates.pop[depth]? = state.candidates[depth]? := by
    intro depth hdepth
    rw [Array.getElem?_pop, if_pos (by omega)]
  calc machine.remainingTries state.steppedBack
      = machine.triesBelow state.candidates.pop state.frontier := by
        rw [remainingTries, SearchState.steppedBack, Nat.sub_add_cancel (by omega)]
    _ = machine.triesBelow state.candidates state.frontier := triesBelow_congr hpop
    _ ≤ machine.remainingTries state := by
        rw [remainingTries, triesBelow_succ machine state.candidates hinv.start_le]
        exact Nat.le_add_right _ _

private theorem remainingTries_tested (hinv : StackInvariant machine state)
    (hvalue : machine.nextValue? state = some value) :
    machine.remainingTries (machine.tested state value) +
        (1 + triesFrom machine.domains (state.frontier + 1)) = machine.remainingTries state := by
  obtain ⟨hcandidate, size, hsize, hless⟩ := nextValue?_eq_some hvalue
  have hbound : state.frontier - machine.start < state.candidates.size :=
    (Array.getElem?_eq_some_iff.1 hcandidate).1
  have hbelow : ∀ depth < state.frontier - machine.start,
      (machine.assign state value).candidates[depth]? = state.candidates[depth]? := by
    intro depth hdepth
    exact Array.getElem?_setIfInBounds_ne (Nat.ne_of_gt hdepth)
  have hentry : (machine.assign state value).candidates.getD (state.frontier - machine.start) 0 =
      value + 1 := by
    rw [Array.getD_eq_getD_getElem?]
    exact congrArg (·.getD 0) (Array.getElem?_setIfInBounds_self_of_lt hbound)
  calc machine.remainingTries (machine.tested state value) +
        (1 + triesFrom machine.domains (state.frontier + 1))
      = machine.triesBelow state.candidates state.frontier +
          (machine.entryTries state.frontier (value + 1) +
            (1 + triesFrom machine.domains (state.frontier + 1))) := by
        rw [← triesBelow_congr hbelow, ← hentry, ← Nat.add_assoc (machine.triesBelow _ _),
          ← triesBelow_succ machine _ hinv.start_le]
        rfl
    _ = machine.triesBelow state.candidates state.frontier +
          machine.entryTries state.frontier value := by
        rw [entryTries_succ hsize hless]
    _ = machine.remainingTries state := by
        rw [remainingTries, triesBelow_succ machine _ hinv.start_le, Array.getD_eq_getD_getElem?,
          hcandidate, Option.getD_some]

/-- The entry for the next variable stands for all that can be tried behind the value. -/
private theorem remainingTries_descended (hinv : StackInvariant machine state)
    (hvalue : machine.nextValue? state = some value) :
    machine.remainingTries (machine.descended state value) + 1 = machine.remainingTries state := by
  have hstart := hinv.start_le
  have hsize : (machine.assign state value).candidates.size = state.frontier - machine.start + 1 :=
    (Array.size_setIfInBounds ..).trans hinv.candidates_size
  have hbelow : ∀ depth < state.frontier + 1 - machine.start,
      ((machine.assign state value).candidates.push 0)[depth]? =
        (machine.assign state value).candidates[depth]? := by
    intro depth hdepth
    rw [Array.getElem?_push, if_neg (by omega)]
  have hentry : ((machine.assign state value).candidates.push 0).getD
      (state.frontier + 1 - machine.start) 0 = 0 := by
    rw [Array.getD_eq_getD_getElem?, Array.getElem?_push, if_pos (by omega), Option.getD_some]
  -- The new entry brings what can be tried from the next variable on, which the tried value has
  -- paid for.
  have hdescended : machine.remainingTries (machine.descended state value) =
      machine.remainingTries (machine.tested state value) +
        triesFrom machine.domains (state.frontier + 1) := by
    rw [← entryTries_zero, ← hentry]
    exact (triesBelow_succ machine _ (Nat.le_succ_of_le hstart)).trans
      (congrArg (· + _) (triesBelow_congr hbelow))
  have htested := remainingTries_tested hinv hvalue
  omega

/-- A run tries no more values than could be tried at first. -/
theorem StackInvariant.nodes_run_le (hinv : StackInvariant machine state)
    (hending : (machine.run state).ending = .ok status) :
    (machine.run state).state.nodes ≤ state.nodes + machine.remainingTries state := by
  -- Tried values and those that can still be tried: their sum does not grow in any turn.
  obtain ⟨last, -, hle, hlast⟩ := StackInvariant.run_induction
    (motive := fun _ later => later.nodes + machine.remainingTries later ≤
      state.nodes + machine.remainingTries state)
    (fun _ later hinv hstart _ _ hle =>
      Nat.le_trans (Nat.add_le_add_left (remainingTries_steppedBack_le hinv hstart) _) hle)
    (by
      intro _ later value hinv hvalue _ _ hle
      have htested := remainingTries_tested hinv hvalue
      show later.nodes + 1 + _ ≤ _
      omega)
    (by
      intro _ later value hinv hvalue _ _ hle
      have hdescended := remainingTries_descended hinv hvalue
      show later.nodes + 1 + _ ≤ _
      omega)
    hinv (Nat.le_refl _) hending
  obtain ⟨candidates, hfinal⟩ := hlast.exists_candidates
  rw [hfinal]
  exact Nat.le_trans (Nat.le_add_right _ _) hle

/-! ## Counting turns -/

/-- Runs the machine to its end, unless it takes more than the given number of turns. -/
def runWithin (machine : Machine σ) : Nat → SearchState σ → Option (Ended σ)
  | 0, _ => none
  | turns + 1, state =>
      match machine.step state with
      | .onward next => machine.runWithin turns next
      | .ended status last => some { ending := .ok status, state := last }
      | .broken fault last => some { ending := .error fault, state := last }

/-- A turn that goes on is counted, as a tried value or as a step back. -/
theorem Onward.turns_eq {next : SearchState σ} (h : Onward machine state next) :
    next.nodes + next.backtracks = state.nodes + state.backtracks + 1 := by
  cases h with
  | back _ _ _ => rfl
  | rejected _ _ _ _ => exact Nat.add_right_comm _ _ _
  | accepted _ _ _ _ => exact Nat.add_right_comm _ _ _

/-- A run that is not broken off takes as many turns as it counts, and one more to end. -/
theorem StackInvariant.runWithin_eq (hinv : StackInvariant machine state)
    (hending : (machine.run state).ending = .ok status) : ∃ counted,
    (machine.run state).state.nodes + (machine.run state).state.backtracks =
        state.nodes + state.backtracks + counted ∧
      ∀ turns, machine.runWithin turns state =
        if turns ≤ counted then none else some (machine.run state) := by
  induction state using Machine.run.induct machine with
  | case1 state next hnext ih =>
      rw [run_of_onward hnext] at hending ⊢
      obtain ⟨counted, hcounted, hturns⟩ := ih (hinv.step hnext) hending
      have hone := (hinv.step_eq_onward_iff.1 hnext).turns_eq
      refine ⟨counted + 1, by omega, ?_⟩
      intro turns
      cases turns with
      | zero => rfl
      | succ turns => simp only [runWithin, hnext, hturns, Nat.succ_le_succ_iff]
  | case2 state _ last hlast =>
      obtain ⟨candidates, hfinal⟩ := (hinv.step_eq_ended_iff.1 hlast).exists_candidates
      rw [run_of_ended hlast]
      refine ⟨0, by rw [hfinal, Nat.add_zero], ?_⟩
      intro turns
      cases turns with
      | zero => rfl
      | succ turns => simp only [runWithin, hlast, Nat.le_zero_eq, Nat.succ_ne_zero, if_false]
  | case3 _ _ _ hlast =>
      rw [run_of_broken hlast] at hending
      cases hending

end Machine

namespace Search

variable {search : Search σ κ} {buffer : Array Nat} {build : Build} {library : Library}

theorem remainingTries_initial (search : Search σ κ) (buffer : Array Nat) (memory : σ)
    (log : Array Message) :
    search.machine.remainingTries (search.initial buffer memory log) =
      triesFrom search.problem.domains search.start := by
  have hbelow : search.machine.triesBelow #[0] search.machine.start = 0 := by
    rw [Machine.triesBelow, Finset.Ico_self, Finset.sum_empty]
  rw [Machine.remainingTries]
  show search.machine.triesBelow #[0] (search.machine.start + 1) = _
  rw [Machine.triesBelow_succ _ _ (Nat.le_refl _), hbelow, Nat.sub_self, Nat.zero_add]
  exact search.machine.entryTries_zero search.start

/-- **Termination.**  Let the checkers return, whatever they answer, and whatever limits and signals
there are.  Then a search that may begin has a result.  It tries at most as many values as there are
tuples in the domains of the variables from the start up to `k`, for all `k` together.  It makes a
turn for each tried value and for each step back, and one more in which it ends: with fewer turns it
does not come to an end, and with more it does the same.  And it steps back at most as many times as
it tries a value. -/
theorem perform_turns (hready : search.Ready buffer build library)
    (hsteady : search.problem.Steady search.context) (memory : σ) :
    let count := search.problem.domains.size
    let attempts := search.attempts buffer memory library.log
    ∃ result, (search.perform buffer memory build library).outcome = .ok result ∧
      let { nodes, backtracks, .. } := result.stats
      nodes = attempts.length ∧
        nodes ≤ ∑ k ∈ Finset.Ico search.start count,
          ∏ i ∈ Finset.Icc search.start k, search.problem.domains.getD i 0 ∧
        backtracks ≤ nodes ∧
        ∀ turns, (search.machine.runWithin turns (search.initial buffer memory library.log)).map
            (search.report library.activations) =
          if turns < nodes + backtracks + 1 then none
          else some (search.perform buffer memory build library) := by
  intro count attempts
  have hinv := hready.stackInvariant memory library.log
  obtain ⟨result, hresult, hnodes⟩ := hready.exists_result hsteady memory
  obtain ⟨hending, hstats⟩ := hready.ending_of_outcome hresult
  have hmost : result.stats.nodes ≤ triesFrom search.problem.domains search.start := by
    have hle := hinv.nodes_run_le hending
    rw [remainingTries_initial] at hle
    rw [hstats]
    exact hle.trans (Nat.le_of_eq (Nat.zero_add _))
  -- By the balance of the run every step back belongs to a tried value.
  have hbacktracks : result.stats.backtracks ≤ result.stats.nodes := by
    obtain ⟨-, -, haccounts, -⟩ := hready.accounts_of_outcome hresult
    have hbalance := haccounts.balance
    rw [hstats]
    simp only [SearchState.stats]
    omega
  obtain ⟨counted, hcounted, hturns⟩ := hinv.runWithin_eq hending
  have hcounted' : counted = result.stats.nodes + result.stats.backtracks := by
    rw [hstats]
    exact (hcounted.trans (Nat.zero_add _)).symm
  refine ⟨result, hresult, hnodes, hmost, hbacktracks, ?_⟩
  intro turns
  rw [hturns, hcounted', hready.perform_eq memory]
  simp only [Nat.lt_succ_iff]
  split <;> rfl

/-- The fickle search tries five of the nine values that it might, and steps back once: it is over
with its seventh turn. -/
theorem perform_turns_fickle :
    (fickle.Ready #[0, 7] .unchecked {} ∧ fickle.problem.Steady ()) ∧
      (fickle.perform #[0, 7] 0 .unchecked {}).outcome = .ok ⟨.solved, ⟨5, 5, 1, 2, 0⟩⟩ ∧
      ∑ k ∈ Finset.Ico 0 2, ∏ i ∈ Finset.Icc 0 k, fickle.problem.domains.getD i 0 = 9 ∧
      fickle.machine.runWithin 6 (fickle.initial #[0, 7] 0 #[]) = none ∧
      (fickle.machine.runWithin 7 (fickle.initial #[0, 7] 0 #[])).map (fickle.report 0) =
        some (fickle.perform #[0, 7] 0 .unchecked {}) := by
  have hready : fickle.Ready #[0, 7] .unchecked {} := ⟨by decide, rfl, rfl, rfl, by decide⟩
  obtain ⟨result, hresult, -, -, -, hturns⟩ := perform_turns hready fickle_steady 0
  have hvalue : (fickle.perform #[0, 7] 0 .unchecked {}).outcome =
      .ok ⟨.solved, ⟨5, 5, 1, 2, 0⟩⟩ := outcome_of_toOption (by decide +kernel)
  obtain rfl : result = ⟨.solved, ⟨5, 5, 1, 2, 0⟩⟩ :=
    Except.ok.inj (hresult.symm.trans hvalue)
  exact ⟨⟨hready, fickle_steady⟩, hresult, by decide, Option.map_eq_none_iff.1 (hturns 6),
    hturns 7⟩

end Search

end ConstraintSearch
