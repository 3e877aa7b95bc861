import ConstraintSearch.Proofs.Search.Accounting
import ConstraintSearch.Proofs.Search.Moves

/-!
# Dead ends

If no viable tuple binds the variable at some depth, a search with local checkers and without limits
does not get beyond it: it tries values for that variable, but the test rejects them all, and in the
end there is nothing left to try (`Ready.result_of_deadEnd`).

`StaysAbove` is the invariant: the search explores viable tuples, has not come beyond the depth, and
every attempt at the depth was rejected.  A step back and a rejected value keep it plainly.  An
accepted value makes one more variable bound by a viable tuple, so it is accepted above the depth.
-/

namespace ConstraintSearch

variable {σ κ : Type}

namespace Problem

variable {problem : Problem σ κ} {context : κ} {fixed values : List Nat} {depth : Nat}

/-- No viable tuple binds the variable at the depth. -/
def DeadEnd (problem : Problem σ κ) (context : κ) (fixed : List Nat) (depth : Nat) : Prop :=
  ∀ values, problem.Viable context fixed values → fixed.length + values.length ≤ depth

/-- A viable tuple is accepted in some assignment to all variables that begins with it. -/
theorem Viable.exists_accepted (h : problem.Viable context fixed values) (hne : values ≠ [])
    (hfixed : fixed.length ≤ problem.domains.size) :
    ∃ assignment : Array Nat, assignment.size = problem.domains.size ∧
      fixed ++ values <+: assignment.toList ∧
      problem.AcceptsUpTo context (fixed ++ values).length assignment := by
  rcases h with hnil | ⟨hfits, haccepts⟩
  · exact absurd hnil hne
  · obtain ⟨assignment, hsize, hprefix⟩ := exists_assignment (hfits.length_le hfixed)
    exact ⟨assignment, hsize, hprefix, haccepts assignment hsize hprefix⟩

end Problem

namespace Search

variable {search : Search σ κ} {fixed : List Nat} {state next : SearchState σ} {depth : Nat}
  {past : List (SearchState σ)}

/-- The attempt is not made beyond the depth, and what is tried at the depth is rejected. -/
def FailsAt (search : Search σ κ) (depth : Nat) (attempt : SearchState σ) : Prop :=
  attempt.frontier ≤ depth ∧
    (attempt.frontier = depth → search.machine.rejects attempt = true)

/-- The search explores viable tuples, and so far it has not come beyond the depth. -/
structure StaysAbove (search : Search σ κ) (fixed : List Nat) (depth : Nat)
    (past : List (SearchState σ)) (state : SearchState σ) : Prop where
  explores : search.Explores fixed state
  maxDepth_le : state.maxDepth ≤ depth
  fails : ∀ attempt ∈ past, search.FailsAt depth attempt

theorem Explores.frontier_le (h : search.Explores fixed state)
    (hdead : search.problem.DeadEnd search.context fixed depth) : state.frontier ≤ depth := by
  rw [← h.length_bound]
  exact hdead _ h.viable

private theorem FailsAt.concat (hpast : ∀ attempt ∈ past, search.FailsAt depth attempt)
    (hstate : search.FailsAt depth state) :
    ∀ attempt ∈ past ++ [state], search.FailsAt depth attempt := by
  intro attempt hattempt
  rcases List.mem_append.1 hattempt with hmem | hmem
  · exact hpast attempt hmem
  · rw [List.mem_singleton.1 hmem]
    exact hstate

section Turns

variable (hvalid : search.problem.flaw? = none) (hunlimited : search.Unlimited)
  (hlocal : search.problem.Local search.context)

include hvalid hunlimited hlocal

private theorem Explores.onward (h : search.Explores fixed state)
    (honward : search.machine.Onward state next) : search.Explores fixed next :=
  h.step hvalid hunlimited hlocal (honward.step h.inv)

private theorem StaysAbove.back (h : search.StaysAbove fixed depth past state)
    (hback : search.machine.Onward state state.steppedBack) :
    search.StaysAbove fixed depth past state.steppedBack where
  explores := h.explores.onward hvalid hunlimited hlocal hback
  maxDepth_le := h.maxDepth_le
  fails := h.fails

variable (hdead : search.problem.DeadEnd search.context fixed depth)

include hdead

private theorem StaysAbove.rejected (h : search.StaysAbove fixed depth past state) {value : Nat}
    (hvalue : search.machine.nextValue? state = some value)
    (hfree : search.machine.interruption? state.nodes state.memory = none)
    (hanswer : (search.machine.probe state value).answer = .ok false) :
    search.StaysAbove fixed depth (past ++ [state]) (search.machine.tested state value) where
  explores := h.explores.onward hvalid hunlimited hlocal (.rejected value hvalue hfree hanswer)
  maxDepth_le := h.maxDepth_le
  fails := FailsAt.concat h.fails
    ⟨h.explores.frontier_le hdead, fun _ => Machine.rejects_of_answer hvalue hanswer⟩

/-- A value is accepted only if it makes a viable tuple, so this happens above the depth. -/
private theorem StaysAbove.accepted (h : search.StaysAbove fixed depth past state) {value : Nat}
    (hvalue : search.machine.nextValue? state = some value)
    (hfree : search.machine.interruption? state.nodes state.memory = none)
    (hanswer : (search.machine.probe state value).answer = .ok true) :
    search.StaysAbove fixed depth (past ++ [state]) (search.machine.descended state value) := by
  have hnext := h.explores.onward hvalid hunlimited hlocal (.accepted value hvalue hfree hanswer)
  have hdeeper : state.frontier + 1 ≤ depth := hnext.frontier_le hdead
  refine ⟨hnext, Nat.max_le.2 ⟨h.maxDepth_le, hdeeper⟩, FailsAt.concat h.fails ?_⟩
  exact ⟨Nat.le_of_lt hdeeper, fun heq => absurd heq (Nat.ne_of_lt hdeeper)⟩

/-- A run does not come beyond a dead end. -/
theorem StaysAbove.run (h : search.StaysAbove fixed depth [] state) {status : Status}
    (hending : (search.machine.run state).ending = .ok status) :
    ∃ last, search.StaysAbove fixed depth (search.machine.attempts state) last ∧
      search.machine.Ending last status (search.machine.run state).state := by
  -- By induction on the run, one of the lemmas above for each way to go on.
  obtain ⟨last, -, hstays, hlast⟩ := Machine.StackInvariant.run_induction
    (motive := search.StaysAbove fixed depth)
    (fun _ _ _ hstart hlt hspent hstays =>
      hstays.back hvalid hunlimited hlocal (.back hlt hstart hspent))
    (fun _ _ _ _ hvalue hfree hanswer hstays =>
      hstays.rejected hvalid hunlimited hlocal hdead hvalue hfree hanswer)
    (fun _ _ _ _ hvalue hfree hanswer hstays =>
      hstays.accepted hvalid hunlimited hlocal hdead hvalue hfree hanswer)
    h.explores.inv h hending
  exact ⟨last, hstays, hlast⟩

end Turns

/-- Without limits, a run that does not end with all variables bound is exhausted. -/
theorem status_of_frontier_lt (hunlimited : search.Unlimited)
    (hlt : state.frontier < search.problem.domains.size) {status : Status} {last : SearchState σ}
    (h : search.machine.Ending state status last) : status = .exhausted := by
  cases h with
  | solved hfrontier => exact absurd hfrontier (Nat.ne_of_lt hlt)
  | exhausted => rfl
  | interrupted _ _ _ hreason =>
      rw [hunlimited.interruption?_eq_none] at hreason
      cases hreason

variable {buffer : Array Nat} {build : Build} {library : Library}

/-- A search whose tuples end in a dead end is exhausted, and never comes beyond it. -/
theorem Ready.result_of_deadEnd (hready : search.Ready buffer build library)
    (hunlimited : search.Unlimited) (hlocal : search.problem.Local search.context) (memory : σ)
    (hdead : search.problem.DeadEnd search.context (buffer.toList.take search.start) depth)
    (hdepth : depth < search.problem.domains.size) :
    ∃ result, (search.perform buffer memory build library).outcome = .ok result ∧
      result.status = .exhausted ∧ result.stats.maxDepth ≤ depth ∧
      ∀ attempt ∈ search.attempts buffer memory library.log, search.FailsAt depth attempt := by
  have hfirst := hready.explores memory library.log
  obtain ⟨result, hresult, -⟩ := hready.exists_result hlocal.steady memory
  obtain ⟨hending, hstats⟩ := hready.ending_of_outcome hresult
  obtain ⟨last, hstays, hlast⟩ := StaysAbove.run hready.problem hunlimited hlocal hdead
    ⟨hfirst, hfirst.frontier_le hdead, fun _ hmem => nomatch hmem⟩ hending
  -- The last turn begins at the depth or above it, where some variable is not bound, and nothing
  -- else can stop the search.
  have hexhausted : result.status = .exhausted :=
    status_of_frontier_lt hunlimited
      (Nat.lt_of_le_of_lt (hstays.explores.frontier_le hdead) hdepth) hlast
  refine ⟨result, hresult, hexhausted, ?_, hstays.fails⟩
  obtain ⟨candidates, heq⟩ := hlast.exists_candidates
  rw [hstats]
  unfold run
  rw [heq]
  exact hstays.maxDepth_le

end Search

end ConstraintSearch
