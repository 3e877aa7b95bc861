import ConstraintSearch.Proofs.Search.Accounting

/-!
# What a solved search leaves

A checker may look at variables outside its tuple, bound or not.  Then an early scan says nothing
about the assignment that the search ends with, for the values that the checker saw may have been
overwritten since.  But the last scan before the search is solved is behind all variables: it asks
every constraint, and it sees the assignment as it stays.  So with checkers that answer by the whole
assignment, a solved search leaves an assignment that all constraints accept (`perform_sound`).

The values below the start are kept, and if there is no variable to bind then nothing happens.
-/

namespace ConstraintSearch

variable {σ κ : Type}

namespace Machine

variable {machine : Machine σ} {state : SearchState σ} {initial : Array Nat} {value : Nat}

/-- The values below the start are the given ones, and if the variables are all bound, some of them
by the search, then the test has accepted the buffer as it is. -/
structure Settles (machine : Machine σ) (initial : Array Nat) (state : SearchState σ) : Prop where
  kept : ∀ v < machine.start, state.buffer[v]? = initial[v]?
  scanned : machine.start < machine.domains.size → state.frontier = machine.domains.size →
    ∃ memory, (machine.test state.buffer machine.domains.size memory).answer = .ok true

private theorem Settles.back (h : Settles machine initial state)
    (hstart : machine.start < state.frontier) (hlt : state.frontier < machine.domains.size) :
    Settles machine initial state.steppedBack where
  kept := h.kept
  scanned := by
    intro _ hfrontier
    simp only [SearchState.steppedBack] at hfrontier
    omega

/-- A value is written above the start. -/
private theorem Settles.kept_assign (h : Settles machine initial state)
    (hstart : machine.start ≤ state.frontier) (value : Nat) :
    ∀ v < machine.start, (machine.assign state value).buffer[v]? = initial[v]? := by
  intro v hv
  have hne : state.frontier ≠ v := Nat.ne_of_gt (Nat.lt_of_lt_of_le hv hstart)
  calc (machine.assign state value).buffer[v]?
      = state.buffer[v]? := Array.getElem?_setIfInBounds_ne hne
    _ = initial[v]? := h.kept v hv

private theorem Settles.rejected (h : Settles machine initial state)
    (hinv : StackInvariant machine state) (hvalue : machine.nextValue? state = some value) :
    Settles machine initial (machine.tested state value) where
  kept := h.kept_assign hinv.start_le value
  scanned := by
    intro _ hfrontier
    obtain ⟨-, size, hsize, -⟩ := nextValue?_eq_some hvalue
    exact absurd hfrontier (Nat.ne_of_lt (Array.getElem?_eq_some_iff.1 hsize).1)

private theorem Settles.accepted (h : Settles machine initial state)
    (hinv : StackInvariant machine state)
    (hanswer : (machine.probe state value).answer = .ok true) :
    Settles machine initial (machine.descended state value) where
  kept := h.kept_assign hinv.start_le value
  scanned := by
    intro _ hfrontier
    have hlast : state.frontier + 1 = machine.domains.size := hfrontier
    exact ⟨state.memory, hlast ▸ hanswer⟩

theorem Settles.run (h : Settles machine initial state) (hinv : StackInvariant machine state)
    {status : Status} (hending : (machine.run state).ending = .ok status) :
    ∃ last, StackInvariant machine last ∧ Settles machine initial last ∧
      Ending machine last status (machine.run state).state :=
  StackInvariant.run_induction (motive := fun _ later => Settles machine initial later)
    (fun _ _ _ hstart hlt _ hsettles => hsettles.back hstart hlt)
    (fun _ _ _ hinv hvalue _ _ hsettles => hsettles.rejected hinv hvalue)
    (fun _ _ _ hinv _ _ hanswer hsettles => hsettles.accepted hinv hanswer) hinv h hending

end Machine

namespace Search

variable {search : Search σ κ} {buffer : Array Nat} {memory : σ} {build : Build}
  {library : Library} {result : Result}

/-- A solved search has bound all variables. -/
theorem Ready.settles_of_solved (hready : search.Ready buffer build library)
    (hresult : (search.perform buffer memory build library).outcome = .ok result)
    (hsolved : result.status = .solved) :
    (search.run buffer memory library.log).state.frontier = search.problem.domains.size ∧
      search.machine.StackInvariant (search.run buffer memory library.log).state ∧
      search.machine.Settles buffer (search.run buffer memory library.log).state := by
  have hfirst : search.machine.Settles buffer (search.initial buffer memory library.log) :=
    ⟨fun _ _ => rfl, fun hlt heq => absurd heq (Nat.ne_of_lt hlt)⟩
  obtain ⟨last, hinv, hsettles, hlast⟩ := hfirst.run (hready.stackInvariant memory library.log)
    (hready.ending_of_outcome hresult).1
  rw [hsolved] at hlast
  unfold run
  generalize (search.machine.run _).state = final at hlast ⊢
  cases hlast with
  | solved hfrontier => exact ⟨hfrontier, hinv, hsettles⟩
  | interrupted _ _ _ hreason => exact absurd rfl (status_of_interruption? hreason).1

/-- With checkers that answer by the whole assignment, a solved search leaves one that every
constraint accepts. -/
theorem Ready.accepts_of_solved (hready : search.Ready buffer build library)
    (hpure : search.problem.Pure search.context)
    (hstart : search.start < search.problem.domains.size)
    (hresult : (search.perform buffer memory build library).outcome = .ok result)
    (hsolved : result.status = .solved) :
    search.problem.Accepts search.context
      (search.perform buffer memory build library).buffer := by
  obtain ⟨hfrontier, -, hsettles⟩ := hready.settles_of_solved hresult hsolved
  obtain ⟨before, hanswer⟩ := hsettles.scanned hstart hfrontier
  rw [hready.buffer_perform]
  exact (hpure.acceptsUpTo_of_scan hanswer).accepts hready.problem

/-- Without a variable to bind, the run is over at once. -/
theorem Ready.run_of_start_eq (hstart : search.start = search.problem.domains.size)
    (log : Array Message) : search.run buffer memory log =
      { ending := .ok .solved, state := search.initial buffer memory log } :=
  Machine.run_of_ended (if_pos hstart)

/-- **Soundness of solved searches.**  Let the checkers answer by the whole assignment, be it by
variables outside their tuples.  If the search for at least one variable is solved, whatever limits
and signals it had, then the scan of the whole problem accepts the assignment that is left, and so
does every constraint, those on given values included.  Each variable from the start on has a value
in its domain, the others have the given values, and the greatest depth is the number of variables.

A search that has no variable to bind is solved with no tried value and no call, and it leaves the
buffer as it was. -/
theorem perform_sound (hready : search.Ready buffer build library) (memory : σ) :
    let count := search.problem.domains.size
    let report := search.perform buffer memory build library
    (search.start < count → search.problem.Pure search.context →
      ∀ result, report.outcome = .ok result → result.status = .solved →
        (∀ later, (search.problem.scan report.buffer search.context count later).answer =
          .ok true) ∧
        search.problem.Accepts search.context report.buffer ∧
        (∀ v, search.start ≤ v → v < count → ∃ value size, report.buffer[v]? = some value ∧
          search.problem.domains[v]? = some size ∧ value < size) ∧
        (∀ v < search.start, report.buffer[v]? = buffer[v]?) ∧
        result.stats.maxDepth = count) ∧
      (search.start = count → ∃ result, report.outcome = .ok result ∧ result.status = .solved ∧
        result.stats.nodes = 0 ∧ report.buffer = buffer ∧
        (search.recording.perform buffer { own := memory } build library).memory.calls = []) := by
  intro count report
  constructor
  · intro hstart hpure result hresult hsolved
    -- The last scan asked every constraint about the buffer as it stays; a pure checker says the
    -- same ever after.
    have haccepts := hready.accepts_of_solved hpure hstart hresult hsolved
    obtain ⟨hfrontier, hinv, hsettles⟩ := hready.settles_of_solved hresult hsolved
    have hbuffer : report.buffer = (search.run buffer memory library.log).state.buffer :=
      hready.buffer_perform memory
    have hfilled := Problem.none_notMem_of_valid hready.problem
    refine ⟨Problem.scan_of_acceptsUpTo hfilled (haccepts.upTo count), haccepts, ?_, ?_,
      (hready.maxDepth_eq_iff hresult).2 hsolved⟩
    · intro v hv hlt
      obtain ⟨value, size, hvalue, hsize, hless, -⟩ := hinv.bound v hv (hfrontier ▸ hlt)
      exact ⟨value, size, hbuffer ▸ hvalue, hsize, hless⟩
    · intro v hv
      rw [hbuffer]
      exact hsettles.kept v hv
  · intro hstart
    -- The frontier is behind all variables from the beginning, so the first turn ends the search,
    -- and no checker is called.
    have hrun : search.run buffer memory library.log =
        { ending := .ok .solved, state := search.initial buffer memory library.log } :=
      Ready.run_of_start_eq hstart library.log
    have hreport : report = search.report library.activations
        { ending := .ok .solved, state := search.initial buffer memory library.log } := by
      rw [← hrun]
      exact hready.perform_eq memory
    have hresult : report.outcome =
        .ok ⟨.solved, (search.initial buffer memory library.log).stats (search.elapsed 0)⟩ :=
      congrArg Report.outcome hreport
    refine ⟨_, hresult, rfl, rfl, congrArg Report.buffer hreport, ?_⟩
    exact List.eq_nil_of_length_eq_zero (hready.calls_of_outcome hresult)

/-- A search with a checker that looks at the second variable, though its tuple is the first one. -/
def farsighted : Search Nat Unit where
  problem :=
    { domains := #[2, 2]
      slots := #[some
        { scope := [0]
          checker :=
            { identity := 0
              check := fun _ assignment _ calls => .ok (assignment.getD 1 0 = 1) (calls + 1) } }] }
  context := ()

theorem farsighted_pure : farsighted.problem.Pure () := by
  intro constraint hattached
  simp only [Problem.Attached, farsighted, List.mem_toArray, List.mem_singleton,
    Option.some.injEq] at hattached
  subst hattached
  exact ⟨fun assignment => .ok (assignment.getD 1 0 = 1), fun _ calls => ⟨calls + 1, rfl⟩⟩

/-- The first variable is accepted for what the buffer holds beyond it, and the constraint accepts
all the same when the search is solved.  A search from behind the second variable does not ask it. -/
theorem perform_sound_farsighted :
    (farsighted.Ready #[0, 1] .unchecked {} ∧ farsighted.problem.Pure ()) ∧
    ((farsighted.perform #[0, 1] 0 .unchecked {}).outcome = .ok ⟨.solved, ⟨3, 3, 0, 2, 0⟩⟩ ∧
      farsighted.problem.Accepts () (farsighted.perform #[0, 1] 0 .unchecked {}).buffer) ∧
    ∃ result,
      ({ farsighted with start := 2 }.perform #[0, 0] 0 .unchecked {}).outcome = .ok result ∧
        result.status = .solved := by
  have hready : farsighted.Ready #[0, 1] .unchecked {} := ⟨by decide, rfl, rfl, rfl, by decide⟩
  have hready' : { farsighted with start := 2 }.Ready #[0, 0] .unchecked {} :=
    ⟨by decide, rfl, rfl, rfl, by decide⟩
  have hresult : (farsighted.perform #[0, 1] 0 .unchecked {}).outcome =
      .ok ⟨.solved, ⟨3, 3, 0, 2, 0⟩⟩ := outcome_of_toOption (by decide +kernel)
  obtain ⟨-, haccepts, -⟩ :=
    (perform_sound hready 0).1 (by decide) farsighted_pure _ hresult rfl
  obtain ⟨result, hsolved, hstatus, -⟩ := (perform_sound hready' 0).2 rfl
  exact ⟨⟨hready, farsighted_pure⟩, ⟨hresult, haccepts⟩, result, hsolved, hstatus⟩

end Search

end ConstraintSearch
