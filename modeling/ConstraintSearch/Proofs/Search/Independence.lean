import ConstraintSearch.Proofs.Problem.Scan
import ConstraintSearch.Proofs.Search.Limits
import ConstraintSearch.Proofs.Search.Lockstep
import ConstraintSearch.Proofs.Search.Writes

/-!
# What the buffer holds beforehand does not matter

A search is lent a buffer that may hold anything from the start on.  With local checkers it does not
read there what it has not written: between two turns, the searches in two buffers are in the same
state but for what the buffers hold from the frontier on, and for what the checkers remember
(`Beside`).  So they give the same answer and make the same writes (`perform_ignores_stale`).

For the flag, this needs that both searches find it alike.  The two searches make an attempt after
as many tried values, so it is enough that the flag does not tell such attempts apart (`SameFlag`).

## The link

Two states are beside each other if they are on the same course (frontier, candidates, counters) and

* the buffers agree below the frontier: what is there has been written, or fixed, by both searches;
* they have made as many checks;
* what is still to come, were it not for the flag, is a rest of the attempts that `SameFlag` speaks
  of.  This is what makes the hypothesis about the flag usable in the middle of a run.
-/

namespace ConstraintSearch

variable {σ κ : Type}

namespace Search

open Machine (Linked Lockstep EndLinked)

variable {search : Search σ κ} {attempts attempts' : List (SearchState σ)}
  {state twin next : SearchState σ} {value : Nat}

/-! ## The flag -/

/-- The flag does not tell attempts apart before which as many values were tried. -/
def SameFlag (search : Search σ κ) (attempts attempts' : List (SearchState σ)) : Prop :=
  ∀ attempt ∈ attempts, ∀ twin ∈ attempts', twin.nodes = attempt.nodes →
    search.cancelled twin.nodes twin.memory = search.cancelled attempt.nodes attempt.memory

theorem stackInvariant_withoutFlag (hinv : search.machine.StackInvariant state) :
    search.withoutFlag.machine.StackInvariant state :=
  hinv.interruptedBy search.withoutFlag.interruption?

/-- Without the flag the search goes on in the same way. -/
theorem step_withoutFlag (htime : search.config.timeLimit = none)
    (hinv : search.machine.StackInvariant state) (hnext : search.machine.step state = .onward next) :
    search.withoutFlag.machine.step state = .onward next := by
  have hfree : ∀ {nodes memory}, search.interruption? nodes memory = none →
      search.withoutFlag.interruption? nodes memory = none := by
    intro nodes memory hnone
    cases hreason : search.withoutFlag.interruption? nodes memory with
    | none => rfl
    | some status => cases hnone.symm.trans (interruption?_of_withoutFlag htime hreason).2
  have honward : search.withoutFlag.machine.Onward state next := by
    cases hinv.step_eq_onward_iff.1 hnext with
    | back hlt hstart hvalue => exact .back hlt hstart hvalue
    | rejected value hvalue hnone hanswer => exact .rejected value hvalue (hfree hnone) hanswer
    | accepted value hvalue hnone hanswer => exact .accepted value hvalue (hfree hnone) hanswer
  exact honward.step (stackInvariant_withoutFlag hinv)

/-- Attempts that are left for the search without the flag, from a state of the search with it. -/
theorem pending_of_step (htime : search.config.timeLimit = none)
    (hinv : search.machine.StackInvariant state) (hnext : search.machine.step state = .onward next)
    (hpending : search.withoutFlag.machine.attempts state <:+ attempts) :
    search.withoutFlag.machine.attempts next <:+ attempts :=
  (Machine.attempts_suffix_of_onward (step_withoutFlag htime hinv hnext)).trans hpending

/-! ## In lockstep -/

/-- What links the states of a search in two buffers.  The attempts are all those of the searches
without the flag. -/
structure Beside (search : Search σ κ) (attempts attempts' : List (SearchState σ))
    (state twin : SearchState σ) : Prop where
  agree : AgreeBelow state.frontier state.buffer twin.buffer
  checks : twin.checks = state.checks
  pending : search.withoutFlag.machine.attempts state <:+ attempts
  pending' : search.withoutFlag.machine.attempts twin <:+ attempts'

private theorem agree_assign
    (h : Linked search.machine search.machine (search.Beside attempts attempts') state twin)
    (value : Nat) :
    AgreeBelow (state.frontier + 1) (search.machine.assign state value).buffer
      (search.machine.assign twin value).buffer := by
  have hsize : twin.buffer.size = state.buffer.size :=
    h.stackInvariant'.buffer_size.trans h.stackInvariant.buffer_size.symm
  simp only [Machine.assign, h.sameCourse.frontier]
  exact h.link.agree.write hsize value

/-- What is found of a value is the same in both buffers. -/
private theorem probe_beside (hlocal : search.problem.Local search.context)
    (h : Linked search.machine search.machine (search.Beside attempts attempts') state twin)
    (value : Nat) :
    (search.machine.probe twin value).answer = (search.machine.probe state value).answer ∧
      (search.machine.probe twin value).calls = (search.machine.probe state value).calls := by
  have hprobe : search.machine.probe twin value =
      search.problem.scan (search.machine.assign twin value).buffer search.context
        (state.frontier + 1) twin.memory := by
    rw [← h.sameCourse.frontier]
    rfl
  rw [hprobe]
  exact hlocal.scan_congr (h.stackInvariant.size_assign value)
    (h.stackInvariant'.size_assign value) (agree_assign h value) state.memory twin.memory

/-- The states of both searches in which a value could be tried are attempts without the flag, unless
the node limit is reached. -/
private theorem interruption?_beside (htime : search.config.timeLimit = none)
    (hflag : search.SameFlag attempts attempts')
    (h : Linked search.machine search.machine (search.Beside attempts attempts') state twin)
    (hvalue : search.machine.nextValue? state = some value)
    (hvalue' : search.machine.nextValue? twin = some value) :
    search.interruption? twin.nodes twin.memory = search.interruption? state.nodes state.memory := by
  have hnodes := h.sameCourse.nodes
  rw [interruption?_of_timeLimit_none search htime, interruption?_of_timeLimit_none search htime,
    hnodes]
  by_cases hlimit : search.config.nodeLimit.any (· ≤ state.nodes)
  · rw [if_pos hlimit, if_pos hlimit]
  · have hfree : search.withoutFlag.interruption? state.nodes state.memory = none := by
      rw [interruption?_withoutFlag htime, if_neg hlimit]
    have hfree' : search.withoutFlag.interruption? twin.nodes twin.memory = none := by
      rw [interruption?_withoutFlag htime, hnodes, if_neg hlimit]
    -- Both states are attempts of the searches without the flag, so `hflag` speaks of them.
    have hattempt : state ∈ search.withoutFlag.machine.attempts state :=
      Machine.mem_attempts_of_tries (Machine.tries_of_tried hvalue hfree)
    have hattempt' : twin ∈ search.withoutFlag.machine.attempts twin :=
      Machine.mem_attempts_of_tries (Machine.tries_of_tried hvalue' hfree')
    have hset := hflag state (h.link.pending.subset hattempt) twin
      (h.link.pending'.subset hattempt') hnodes
    rw [hnodes] at hset
    rw [if_neg hlimit, if_neg hlimit, hset]

/-- The search keeps in step with itself in another buffer. -/
theorem lockstep_beside (hlocal : search.problem.Local search.context)
    (htime : search.config.timeLimit = none)
    (hflag : search.SameFlag attempts attempts') :
    Lockstep search.machine search.machine (search.Beside attempts attempts') where
  domains := rfl
  start := rfl
  interruption? := by
    intro state twin value h hvalue
    have hvalue' : search.machine.nextValue? twin = some value :=
      (Machine.nextValue?_of_sameCourse rfl rfl h.sameCourse).trans hvalue
    exact interruption?_beside htime hflag h hvalue hvalue'
  answer := fun h _ => (probe_beside hlocal h _).1
  back := by
    intro state twin h hstart hvalue hnext hnext'
    exact ⟨h.link.agree.mono (Nat.sub_le _ _), h.link.checks,
      pending_of_step htime h.stackInvariant hnext h.link.pending,
      pending_of_step htime h.stackInvariant' hnext' h.link.pending'⟩
  rejected := by
    intro state twin value h hvalue hanswer hnext hnext'
    -- Both searches write the same value at the frontier; when it is rejected the frontier stays
    -- below it.
    exact ⟨(agree_assign h value).mono (Nat.le_succ _),
      congrArg₂ (· + ·) h.link.checks (probe_beside hlocal h value).2,
      pending_of_step htime h.stackInvariant hnext h.link.pending,
      pending_of_step htime h.stackInvariant' hnext' h.link.pending'⟩
  accepted := by
    intro state twin value h hvalue hanswer hnext hnext'
    exact ⟨agree_assign h value,
      congrArg₂ (· + ·) h.link.checks (probe_beside hlocal h value).2,
      pending_of_step htime h.stackInvariant hnext h.link.pending,
      pending_of_step htime h.stackInvariant' hnext' h.link.pending'⟩

/-! ## The answer -/

/-- Both searches have a result.  They end with the same status, after as many tried values, checks
and steps back, and have come as deep.  If an assignment was found, it is the same. -/
def SameAnswer (one two : Report σ) : Prop :=
  ∃ result result', one.outcome = .ok result ∧ two.outcome = .ok result' ∧
    result.status = result'.status ∧ result.stats.nodes = result'.stats.nodes ∧
    result.stats.checks = result'.stats.checks ∧
    result.stats.backtracks = result'.stats.backtracks ∧
    result.stats.maxDepth = result'.stats.maxDepth ∧
    (result.status = .solved → one.buffer = two.buffer)

variable {buffer other : Array Nat} {build build' : Build} {library library' : Library}
  {memory memory' : σ}

private theorem Ready.beside_initial (hready : search.Ready buffer build library)
    (hready' : search.Ready other build' library')
    (hagree : AgreeBelow search.start buffer other) :
    Linked search.machine search.machine
      (search.Beside (search.withoutFlag.attempts buffer memory library.log)
        (search.withoutFlag.attempts other memory' library'.log))
      (search.initial buffer memory library.log) (search.initial other memory' library'.log) where
  stackInvariant := hready.stackInvariant memory library.log
  stackInvariant' := hready'.stackInvariant memory' library'.log
  sameCourse := ⟨rfl, rfl, rfl, rfl, rfl⟩
  link := ⟨hagree, rfl, List.suffix_rfl, List.suffix_rfl⟩

/-- The ends of the runs differ in nothing that is counted, and if all variables are bound, in no
value. -/
private theorem ends_beside {status : Status} {one two : Machine.Ended σ}
    (h : EndLinked search.machine search.machine (search.Beside attempts attempts') status one two) :
    one.state.checks = two.state.checks ∧
      (status = .solved → one.state.buffer = two.state.buffer) := by
  obtain ⟨last, last', hlinked, hended, hended'⟩ := h.lastTurn
  obtain ⟨hfrontier, hsolved, -, -⟩ := frontier_of_ending hended
  obtain ⟨candidates, heq⟩ := hended.exists_candidates
  obtain ⟨candidates', heq'⟩ := hended'.exists_candidates
  rw [heq, heq']
  refine ⟨hlinked.link.checks.symm, fun hstatus => ?_⟩
  have hagree := hlinked.link.agree
  rw [← hfrontier, hsolved hstatus] at hagree
  exact hagree.eq_of_size hlinked.stackInvariant.buffer_size hlinked.stackInvariant'.buffer_size

private theorem writes_of_linked {link : SearchState σ → SearchState σ → Prop}
    {one two : List (SearchState σ)}
    (h : List.Forall₂ (Linked search.machine search.machine link) one two) :
    one.map search.machine.written = two.map search.machine.written := by
  induction h with
  | nil => rfl
  | @cons state twin _ _ hlinked _ ih =>
      have hvalue : search.machine.nextValue? twin = search.machine.nextValue? state :=
        Machine.nextValue?_of_sameCourse rfl rfl hlinked.sameCourse
      rw [List.map_cons, List.map_cons, ih, Machine.written, Machine.written, hvalue,
        hlinked.sameCourse.frontier]

/-- In buffers that agree below the start, a search gives the same answer and makes the same
writes. -/
theorem Ready.sameAnswer (hready : search.Ready buffer build library)
    (hready' : search.Ready other build' library')
    (hlocal : search.problem.Local search.context) (htime : search.config.timeLimit = none)
    (hagree : AgreeBelow search.start buffer other) (memory memory' : σ)
    (hflag : search.SameFlag (search.withoutFlag.attempts buffer memory library.log)
      (search.withoutFlag.attempts other memory' library'.log)) :
    SameAnswer (search.perform buffer memory build library)
        (search.perform other memory' build' library') ∧
      search.writes buffer memory library.log = search.writes other memory' library'.log := by
  have hlock := lockstep_beside hlocal htime hflag
  obtain ⟨status, hending⟩ := (hready.stackInvariant memory library.log).exists_status
    (hready.steady_machine hlocal.steady)
  obtain ⟨hend, hattempts⟩ := hlock.run (hready.beside_initial hready' hagree) hending
  obtain ⟨hnodes, hbacktracks, hdepth⟩ := hend.counters
  obtain ⟨hchecks, hbuffer⟩ := ends_beside hend
  refine ⟨⟨_, _, hready.outcome_of_ending hend.ending, hready'.outcome_of_ending hend.ending', rfl,
    hnodes, hchecks, hbacktracks, hdepth, ?_⟩, writes_of_linked hattempts⟩
  intro hstatus
  rw [hready.buffer_perform, hready'.buffer_perform]
  exact hbuffer hstatus

/-- **Stale values have no influence.**  Let the checkers be local and let time not be limited; there
may be a node limit and a flag.  Let a search begin in two buffers that hold the same values below the
start, and let the flag not tell the two apart.  Then it gives the same answer in both, with the same
counters and, if there is one, the same assignment, and it makes the same writes in the same order.
The slots that it does not write keep what either buffer held.

In particular a search gives the same answer once more in the buffer that any other search has left,
if that did not begin below its start. -/
theorem perform_ignores_stale (hready : search.Ready buffer build library)
    (hready' : search.Ready other build' library')
    (hlocal : search.problem.Local search.context) (htime : search.config.timeLimit = none)
    (hagree : ∀ v < search.start, other[v]? = buffer[v]?)
    (hflag : search.SameFlag (search.withoutFlag.attempts buffer memory library.log)
      (search.withoutFlag.attempts other memory' library'.log)) :
    let report := search.perform buffer memory build library
    let report' := search.perform other memory' build' library'
    let writes := search.writes buffer memory library.log
    let writes' := search.writes other memory' library'.log
    SameAnswer report report' ∧ writes = writes' ∧
      (∀ v, (∀ value, (v, value) ∉ writes) →
        report.buffer[v]? = buffer[v]? ∧ report'.buffer[v]? = other[v]?) ∧
      ∀ (ρ υ : Type) (earlier : Search ρ υ) (used : ρ) (once : Build) (past : Library),
        search.start ≤ earlier.start →
        let left := (earlier.perform buffer used once past).buffer
        search.SameFlag (search.withoutFlag.attempts buffer memory library.log)
          (search.withoutFlag.attempts left memory' library'.log) →
        SameAnswer report (search.perform left memory' build' library') := by
  intro report report' writes writes'
  obtain ⟨hanswer, hwrites⟩ :=
    hready.sameAnswer hready' hlocal htime hagree memory memory' hflag
  refine ⟨hanswer, hwrites, ?_, ?_⟩
  · intro v hunwritten
    refine ⟨hready.getElem?_of_unwritten hunwritten, hready'.getElem?_of_unwritten ?_⟩
    intro value
    rw [← hwrites]
    exact hunwritten value
  · -- What an earlier search leaves behind is as good as any other buffer, if it began no earlier,
    -- for then it has not touched what is fixed.
    intro ρ υ earlier used once past hstart left hflag
    have hleft : search.Ready left build' library' := by
      refine ⟨hready'.active, hready'.config, hready'.problem, ?_, hready'.start_le⟩
      exact (earlier.size_buffer_perform buffer used once past).trans hready.length
    have hagree' : AgreeBelow search.start buffer left := by
      intro v hv
      exact earlier.getElem?_of_lt_start buffer used once past (Nat.lt_of_lt_of_le hv hstart)
    exact (hready.sameAnswer hleft hlocal htime hagree' memory memory' hflag).1

/-- Three variables in a row, each unlike the one before.  The checkers count their calls, and the
flag is set after two tried values and looked at after every third one. -/
def stepwise : Search Nat Unit where
  problem :=
    let unlike : Checker Nat Unit :=
      { identity := 0
        check := fun scope assignment _ calls =>
          .ok (scope.map (assignment.getD · 0)).Nodup (calls + 1) }
    { domains := #[2, 2, 3]
      slots := #[some { scope := [0, 1], checker := unlike },
        some { scope := [1, 2], checker := unlike }] }
  context := ()
  config := { checkInterval := 3 }
  start := 1
  cancelled := fun nodes _ => 2 ≤ nodes

/-- The first value is given.  Whatever stands behind it and whatever was counted before, the search
finds the same assignment by the same writes. -/
theorem perform_ignores_stale_stepwise :
    let report := stepwise.perform #[1, 9, 9] 0 .unchecked {}
    let report' := stepwise.perform #[1, 0, 1] 7 .unchecked {}
    (stepwise.Ready #[1, 9, 9] .unchecked {} ∧ stepwise.Ready #[1, 0, 1] .unchecked {} ∧
        stepwise.problem.Local ()) ∧
      stepwise.writes #[1, 0, 1] 7 #[] = [(1, 0), (2, 0), (2, 1)] ∧
      report'.buffer = #[1, 0, 1] ∧ report.buffer = report'.buffer := by
  intro report report'
  have hready : stepwise.Ready #[1, 9, 9] .unchecked {} := ⟨by decide, rfl, rfl, rfl, by decide⟩
  have hready' : stepwise.Ready #[1, 0, 1] .unchecked {} := ⟨by decide, rfl, rfl, rfl, by decide⟩
  have hlocal : stepwise.problem.Local () := by
    intro constraint hattached
    simp only [Problem.Attached, stepwise, List.mem_toArray, List.mem_cons, Option.some.injEq,
      List.not_mem_nil, or_false] at hattached
    rcases hattached with rfl | rfl
    · exact ⟨fun values => values.Nodup, fun _ _ _ => ⟨_, rfl⟩⟩
    · exact ⟨fun values => values.Nodup, fun _ _ _ => ⟨_, rfl⟩⟩
  have hflag : stepwise.SameFlag (stepwise.withoutFlag.attempts #[1, 9, 9] 0 #[])
      (stepwise.withoutFlag.attempts #[1, 0, 1] 7 #[]) := by
    intro attempt _ twin _ hnodes
    simp only [stepwise, hnodes]
  have hagree : ∀ v < stepwise.start, (#[1, 0, 1] : Array Nat)[v]? = #[1, 9, 9][v]? := by decide
  obtain ⟨⟨result, -, hresult, -, -, -, -, -, -, hsame⟩, hwrites, -, -⟩ :=
    perform_ignores_stale hready hready' hlocal rfl hagree hflag
  have hsolved : report.outcome.toOption.map (·.status) = some .solved := by decide +kernel
  rw [hresult] at hsolved
  refine ⟨⟨hready, hready', hlocal⟩, ?_, by decide +kernel, hsame (Option.some.inj hsolved)⟩
  rw [← hwrites]
  decide +kernel

end Search

end ConstraintSearch
