import ConstraintSearch.Search.Machine

/-!
# Running the search machine

The machine always comes to an end.  Every entry of its stack stands for the turns that its
variable can still cause: one for stepping back, and for every value that is left one for trying
it and then all turns of the variables behind.  `pendingTurns` adds these up along the stack, and
`remainingTurns_step` shows that each turn takes at least one away, whatever the test answers.
`Machine.run` recurses on that number.
-/

namespace ConstraintSearch

/-- The turns that variables with the given domains cause when all their values are accepted. -/
def fullTurns : List Nat → Nat
  | [] => 0
  | size :: sizes => 1 + size * (1 + fullTurns sizes)

/-- The turns that are left when the given values are the next ones to try. -/
def pendingTurns : List Nat → List Nat → Nat
  | size :: sizes, value :: values =>
      1 + (size - value) * (1 + fullTurns sizes) + pendingTurns sizes values
  | _, _ => 0

/-- The last entry of the stack adds its own turns. -/
theorem pendingTurns_take_succ {sizes values : List Nat} {depth size value : Nat}
    (hsize : sizes[depth]? = some size) (hvalue : values[depth]? = some value) :
    pendingTurns sizes (values.take (depth + 1)) =
      pendingTurns sizes (values.take depth)
        + (1 + (size - value) * (1 + fullTurns (sizes.drop (depth + 1)))) := by
  induction depth generalizing sizes values with
  | zero =>
      cases sizes <;> cases values <;> simp_all [pendingTurns]
  | succ depth ih =>
      cases sizes with
      | nil => simp at hsize
      | cons first sizes =>
          cases values with
          | nil => simp at hvalue
          | cons next values =>
              have hrest : pendingTurns sizes (values.take (depth + 1)) = _ :=
                ih (by simpa using hsize) (by simpa using hvalue)
              simp only [List.take_succ_cons, pendingTurns, List.drop_succ_cons, hrest]
              omega

/-- Another entry adds no more turns than its variable causes from scratch. -/
theorem pendingTurns_take_le (sizes values : List Nat) (depth : Nat) :
    pendingTurns sizes (values.take (depth + 1)) ≤
      pendingTurns sizes (values.take depth) + fullTurns (sizes.drop depth) := by
  -- The topmost entry that is left costs at most what its variable costs with all its values; the
  -- entries below are the same on both sides.
  induction depth generalizing sizes values with
  | zero =>
      cases sizes with
      | nil => simp [pendingTurns]
      | cons size sizes =>
          cases values with
          | nil => simp [pendingTurns]
          | cons value values =>
              have hle : (size - value) * (1 + fullTurns sizes) ≤ size * (1 + fullTurns sizes) :=
                Nat.mul_le_mul_right _ (Nat.sub_le ..)
              simp only [List.take_succ_cons, List.take_zero, List.drop_zero, pendingTurns,
                fullTurns]
              omega
  | succ depth ih =>
      cases sizes with
      | nil => simp [pendingTurns]
      | cons size sizes =>
          cases values with
          | nil => simp [pendingTurns]
          | cons value values =>
              have hrest := ih sizes values
              simp only [List.take_succ_cons, pendingTurns, List.drop_succ_cons]
              omega

namespace Machine

variable {σ : Type}

/-- A bound on the turns that are left. -/
def remainingTurns (machine : Machine σ) (state : SearchState σ) : Nat :=
  pendingTurns (machine.domains.toList.drop machine.start)
    (state.candidates.toList.take (state.frontier - machine.start + 1))

private theorem remainingTurns_stepBack {machine : Machine σ} {state next : SearchState σ}
    {value size : Nat} (hstart : machine.start ≤ state.frontier)
    (hvalue : state.candidates[state.frontier - machine.start]? = some value)
    (hsize : machine.domains[state.frontier]? = some size)
    (hnext : machine.stepBack state = .onward next) :
    machine.remainingTurns next < machine.remainingTurns state := by
  simp only [stepBack] at hnext
  split at hnext
  · cases hnext
  · rename_i hne
    injection hnext with hnext
    subst hnext
    have hlt : machine.start < state.frontier := by omega
    obtain ⟨depth, hdepth⟩ : ∃ depth, state.frontier = machine.start + (depth + 1) :=
      ⟨state.frontier - machine.start - 1, by omega⟩
    have hdepth' : state.frontier - machine.start = depth + 1 := by omega
    have hbound : depth + 1 < state.candidates.size := by
      rw [hdepth'] at hvalue
      exact (Array.getElem?_eq_some_iff.1 hvalue).1
    have hback : state.frontier - 1 - machine.start = depth := by omega
    simp only [remainingTurns, hback, hdepth', Array.toList_pop]
    have hsizes : (machine.domains.toList.drop machine.start)[depth + 1]? = some size := by
      rw [List.getElem?_drop, ← hdepth]
      simpa using hsize
    have hvalues : state.candidates.toList[depth + 1]? = some value := by
      rw [hdepth'] at hvalue
      simpa using hvalue
    rw [pendingTurns_take_succ hsizes hvalues, List.dropLast_eq_take, List.take_take,
      Nat.min_eq_left]
    · omega
    · simp only [Array.length_toList]
      omega

private theorem remainingTurns_tryValue {machine : Machine σ} {state next : SearchState σ}
    {value size : Nat} (hstart : machine.start ≤ state.frontier)
    (hvalue : state.candidates[state.frontier - machine.start]? = some value)
    (hsize : machine.domains[state.frontier]? = some size) (hleft : value < size)
    (hnext : machine.tryValue state value = .onward next) :
    machine.remainingTurns next < machine.remainingTurns state := by
  obtain ⟨depth, hdepth⟩ : ∃ depth, state.frontier = machine.start + depth :=
    ⟨state.frontier - machine.start, by omega⟩
  have hdepth' : state.frontier - machine.start = depth := by omega
  rw [hdepth'] at hvalue
  have hbound : depth < state.candidates.toList.length := by
    simpa using (Array.getElem?_eq_some_iff.1 hvalue).1
  have hsizes : (machine.domains.toList.drop machine.start)[depth]? = some size := by
    rw [List.getElem?_drop, ← hdepth]
    simpa using hsize
  have hvalues : state.candidates.toList[depth]? = some value := by simpa using hvalue
  have htried : pendingTurns (machine.domains.toList.drop machine.start)
        ((state.candidates.toList.set depth (value + 1)).take (depth + 1))
          + (1 + fullTurns ((machine.domains.toList.drop machine.start).drop (depth + 1)))
      = machine.remainingTurns state := by
    have hnextValue :
        (state.candidates.toList.set depth (value + 1))[depth]? = some (value + 1) := by
      rw [List.getElem?_set_self hbound]
    rw [remainingTurns, hdepth', pendingTurns_take_succ hsizes hvalues,
      pendingTurns_take_succ hsizes hnextValue, List.take_set_of_le (Nat.le_refl depth)]
    have hone : size - value = size - (value + 1) + 1 := by omega
    rw [hone, Nat.add_mul]
    omega
  simp only [tryValue] at hnext
  split at hnext
  · cases hnext
  · injection hnext with hnext
    subst hnext
    rw [remainingTurns]
    simp only [assign, hdepth', Array.toList_setIfInBounds]
    omega
  · injection hnext with hnext
    subst hnext
    rw [remainingTurns]
    have hdeeper : state.frontier + 1 - machine.start = depth + 1 := by omega
    simp only [assign, hdeeper, hdepth', Array.toList_push, Array.toList_setIfInBounds]
    have hpushed := pendingTurns_take_le (machine.domains.toList.drop machine.start)
      (state.candidates.toList.set depth (value + 1) ++ [0]) (depth + 1)
    rw [List.take_append_of_le_length
      (by rw [List.length_set]; omega : depth + 1 ≤ _)] at hpushed
    omega

/-- Each turn takes at least one of the turns that are left. -/
theorem remainingTurns_step {machine : Machine σ} {state next : SearchState σ}
    (hnext : machine.step state = .onward next) :
    machine.remainingTurns next < machine.remainingTurns state := by
  -- A turn that goes on has passed all the tests of `step`, and at the end it has stepped back or
  -- tried a value.
  unfold step at hnext
  split at hnext
  · cases hnext
  · split at hnext
    · cases hnext
    · rename_i hstart
      split at hnext
      · cases hnext
      · rename_i value hvalue
        split at hnext
        · cases hnext
        · rename_i size hsize
          split at hnext
          · exact remainingTurns_stepBack (by omega) hvalue hsize hnext
          · split at hnext
            · cases hnext
            · split at hnext
              · exact remainingTurns_tryValue (by omega) hvalue hsize (by omega) hnext
              · cases hnext

/-- How a run ends: with a status, unless it is broken off. -/
structure Ended (σ : Type) where
  ending : Except Fault Status
  state : SearchState σ

/-- Runs the machine to its end. -/
def run (machine : Machine σ) (state : SearchState σ) : Ended σ :=
  match _ : machine.step state with
  | .onward next => machine.run next
  | .ended status state => { ending := .ok status, state }
  | .broken fault state => { ending := .error fault, state }
termination_by machine.remainingTurns state
decreasing_by exact remainingTurns_step (by assumption)

/-! ## The run, turn by turn -/

/-- A turn that leads onward is the first turn of the run. -/
theorem run_of_onward {machine : Machine σ} {state next : SearchState σ}
    (hstep : machine.step state = .onward next) : machine.run state = machine.run next := by
  rw [run]
  split <;> simp_all

/-- A turn that ends the search ends the run. -/
theorem run_of_ended {machine : Machine σ} {state last : SearchState σ} {status : Status}
    (hstep : machine.step state = .ended status last) :
    machine.run state = { ending := .ok status, state := last } := by
  rw [run]
  split <;> simp_all

/-- A turn that breaks the search off ends the run. -/
theorem run_of_broken {machine : Machine σ} {state last : SearchState σ} {fault : Fault}
    (hstep : machine.step state = .broken fault last) :
    machine.run state = { ending := .error fault, state := last } := by
  rw [run]
  split <;> simp_all

end Machine

end ConstraintSearch
