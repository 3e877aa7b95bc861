import ConstraintSearch.Proofs.Search.Moves
import ConstraintSearch.Proofs.Search.Words

/-!
# Between two turns of a search

However its checkers answer and whatever its limits are, a search comes to every turn with its
parts in order: the frontier lies between the start and the number of variables, the stack has one
entry for each bound variable and one for the variable in turn, and the entries say which values
are tried next (`StackInvariant`, which every turn keeps).  With local checkers the bound variables
are consistent as well (`Consistent`).

So each read of a turn finds what it reads, and none of the sums and differences that it works out
leaves the range of words.  This needs no bound on the domains but that their sizes are words: a
value is increased only while it is below the size of its domain (`StackInvariant.turn_inBounds`).
-/

namespace ConstraintSearch

variable {σ κ : Type}

namespace Machine

variable {machine : Machine σ} {state : SearchState σ}

/-- A turn with a variable in turn reads within bounds and works out words: the place on the stack,
the entry there, the size of the domain, the frontier one lower when a variable before it comes in
turn again, and, when a value is tried, the next value, the slot to write and the frontier one
higher. -/
structure TurnInBounds (machine : Machine σ) (build : Build) (state : SearchState σ)
    (value size : Nat) : Prop where
  depth : build.subtract state.frontier machine.start = .ok (state.frontier - machine.start)
  candidate :
    Checker.valueAt state.candidates (state.frontier - machine.start) = .ok value
  domain : Checker.valueAt machine.domains state.frontier = .ok size
  back : machine.start < state.frontier →
    build.subtract state.frontier 1 = .ok (state.frontier - 1)
  nextValue : value < size → build.add value 1 = .ok (value + 1)
  slot : ∃ old, Checker.valueAt state.buffer state.frontier = .ok old
  nextFrontier : build.add state.frontier 1 = .ok (state.frontier + 1)

/-- The top entry of the stack belongs to the variable in turn. -/
theorem StackInvariant.back?_candidates (hinv : StackInvariant machine state) :
    state.candidates.back? = state.candidates[state.frontier - machine.start]? := by
  rw [Array.back?, hinv.candidates_size]
  rfl

/-- The entry of a bound variable is one more than its value. -/
theorem StackInvariant.entry (hinv : StackInvariant machine state) {depth : Nat}
    (hdepth : depth < state.frontier - machine.start) :
    ∃ value size, state.buffer[machine.start + depth]? = some value ∧
      machine.domains[machine.start + depth]? = some size ∧
      state.candidates[depth]? = some (value + 1) ∧ value + 1 ≤ size := by
  obtain ⟨value, size, hvalue, hsize, hless, hcandidate⟩ :=
    hinv.bound (machine.start + depth) (Nat.le_add_right _ _) (by omega)
  rw [Nat.add_sub_cancel_left] at hcandidate
  exact ⟨value, size, hvalue, hsize, hcandidate, hless⟩

/-- The entry of the variable in turn is at most the size of its domain. -/
theorem StackInvariant.top (hinv : StackInvariant machine state)
    (hlt : state.frontier < machine.domains.size) :
    ∃ value size, state.candidates.back? = some value ∧
      machine.domains[state.frontier]? = some size ∧ value ≤ size := by
  have hsize : machine.domains[state.frontier]? = some machine.domains[state.frontier] :=
    Array.getElem?_eq_getElem hlt
  obtain ⟨value, hle, hcandidate⟩ := hinv.inTurn _ hsize
  exact ⟨value, _, hinv.back?_candidates.trans hcandidate, hsize, hle⟩

theorem StackInvariant.turn_inBounds (hinv : StackInvariant machine state)
    (hcount : machine.domains.size < wordCount)
    (hsizes : ∀ size ∈ machine.domains, size < wordCount)
    (hlt : state.frontier < machine.domains.size) {value size : Nat}
    (hvalue : state.candidates.back? = some value)
    (hsize : machine.domains[state.frontier]? = some size) (build : Build) :
    machine.TurnInBounds build state value size := by
  have hbuffer : state.frontier < state.buffer.size := hinv.buffer_size ▸ hlt
  have hword : size < wordCount := hsizes size (Array.mem_of_getElem? hsize)
  refine ⟨build.subtract_of_le hinv.start_le, ?_, Checker.valueAt_of_getElem? hsize, ?_, ?_, ?_, ?_⟩
  · exact Checker.valueAt_of_getElem? (hinv.back?_candidates.symm.trans hvalue)
  · intro hstart
    exact build.subtract_of_le (by omega)
  · intro hless
    exact build.add_of_lt (by omega)
  · exact ⟨_, Checker.valueAt_of_getElem? (Array.getElem?_eq_getElem hbuffer)⟩
  · exact build.add_of_lt (by omega)

end Machine

namespace Search

variable {search : Search σ κ} {state next : SearchState σ} {value : Nat} {buffer : Array Nat}
  {build : Build} {library : Library}

/-! ## Consistency of the bound variables -/

/-- If the search has bound a variable, then all constraints on variables below the frontier accept
the assignment. -/
def Consistent (search : Search σ κ) (state : SearchState σ) : Prop :=
  search.start < state.frontier →
    search.problem.AcceptsUpTo search.context state.frontier state.buffer

/-- A step back leaves the assignment as it is, and fewer constraints lie below the frontier. -/
private theorem Consistent.back (h : search.Consistent state)
    (hstart : search.start < state.frontier) : search.Consistent state.steppedBack :=
  fun _ => (h hstart).mono (Nat.sub_le _ _)

private theorem Consistent.rejected (h : search.Consistent state)
    (hlocal : search.problem.Local search.context) (hinv : search.machine.StackInvariant state)
    (value : Nat) : search.Consistent (search.machine.tested state value) :=
  fun hstart => acceptsUpTo_assign hlocal hinv value (h hstart)

/-- A value is accepted by all constraints that it makes applicable and by those before them. -/
private theorem consistent_descended (hvalid : search.problem.flaw? = none)
    (hlocal : search.problem.Local search.context) (hinv : search.machine.StackInvariant state)
    (hanswer : (search.machine.probe state value).answer = .ok true) :
    search.Consistent (search.machine.descended state value) := by
  intro _
  obtain ⟨accepted, hok, haccepted⟩ :=
    test_of_local hvalid hlocal (hinv.size_assign value) (state.frontier + 1) state.memory
  have htrue : accepted = true := Except.ok.inj (hok.symm.trans hanswer)
  exact haccepted.1 htrue

private theorem Consistent.step (h : search.Consistent state)
    (hvalid : search.problem.flaw? = none) (hlocal : search.problem.Local search.context)
    (hinv : search.machine.StackInvariant state)
    (hnext : search.machine.step state = .onward next) : search.Consistent next := by
  cases hinv.step_eq_onward_iff.1 hnext with
  | back _ hstart _ => exact h.back hstart
  | rejected value _ _ _ => exact h.rejected hlocal hinv value
  | accepted value _ _ hanswer => exact consistent_descended hvalid hlocal hinv hanswer

/-- With local checkers the bound variables are consistent before every turn. -/
theorem Ready.consistent (hready : search.Ready buffer build library)
    (hlocal : search.problem.Local search.context) {memory : σ}
    (hreaches : search.machine.Reaches (search.initial buffer memory library.log) state) :
    search.Consistent state := by
  have hinv := hready.stackInvariant memory library.log
  induction hreaches with
  | refl =>
      intro hstart
      exact absurd hstart (Nat.lt_irrefl _)
  | tail hbefore hnext ih =>
      exact ih.step hready.problem hlocal (hinv.of_reaches hbefore) hnext

/-! ## Every turn of a search -/

/-- **The state between two turns.**  Let a search begin, with any checkers, limits and signals, and
let its machine come to a state.  The search is what the machine makes of this state.  There, the
frontier lies between the start and the number of variables, and the stack has one entry more than
variables are bound.  The entry of each bound variable is one more than its value and at most the
size of its domain, and the entry of the variable in turn, the top one, is at most the size of its
domain.  If the checkers are local and a variable is bound, the scan at the frontier accepts.

If the number of variables and the sizes of the domains are words, the turn reads within bounds, and
all that it works out from these numbers are words, in either build. -/
theorem between_turns (hready : search.Ready buffer build library) (memory : σ)
    (hreaches : search.machine.Reaches (search.initial buffer memory library.log) state) :
    let count := search.problem.domains.size
    search.perform buffer memory build library =
      search.report library.activations (search.machine.run state) ∧
    search.start ≤ state.frontier ∧ state.frontier ≤ count ∧ state.buffer.size = count ∧
    state.candidates.size = state.frontier - search.start + 1 ∧
    (∀ depth < state.frontier - search.start, ∃ value size,
      state.buffer[search.start + depth]? = some value ∧
      search.problem.domains[search.start + depth]? = some size ∧
      state.candidates[depth]? = some (value + 1) ∧ value + 1 ≤ size) ∧
    (state.frontier < count → ∃ value size, state.candidates.back? = some value ∧
      search.problem.domains[state.frontier]? = some size ∧ value ≤ size ∧
      (count < wordCount → (∀ size ∈ search.problem.domains, size < wordCount) →
        ∀ build, search.machine.TurnInBounds build state value size)) ∧
    (search.problem.Local search.context → search.start < state.frontier → ∀ later,
      (search.problem.scan state.buffer search.context state.frontier later).answer =
        .ok true) := by
  intro count
  have hinv := (hready.stackInvariant memory library.log).of_reaches hreaches
  refine ⟨?_, hinv.start_le, hinv.frontier_le, hinv.buffer_size, hinv.candidates_size,
    fun _ hdepth => hinv.entry hdepth, ?_, ?_⟩
  · rw [hready.perform_eq, run, Machine.run_of_reaches hreaches]
  · intro hlt
    obtain ⟨value, size, hvalue, hsize, hle⟩ := hinv.top hlt
    exact ⟨value, size, hvalue, hsize, hle,
      fun hcount hsizes => hinv.turn_inBounds hcount hsizes hlt hvalue hsize⟩
  · intro hlocal hstart
    exact Problem.scan_of_acceptsUpTo (Problem.none_notMem_of_valid hready.problem)
      (hready.consistent hlocal hreaches hstart)

/-- Two variables that must differ.  The first one has as many values as a domain can have. -/
def vast : Search Unit Unit where
  problem :=
    { domains := #[wordCount - 1, 2]
      slots := #[some
        { scope := [1, 0]
          checker := .byValues 0 fun values => values.getD 0 0 ≠ values.getD 1 0 }] }
  context := ()

/-- After its first turn the vast search has bound one variable, and the second one is in turn. -/
theorem between_turns_vast :
    let library : Library := { activations := 1 }
    let first := vast.initial #[7, 7] () library.log
    let second := vast.machine.descended first 0
    vast.Ready #[7, 7] .checked library ∧ vast.machine.Reaches first second ∧
      second.candidates.size = 2 ∧ second.candidates[0]? = some 1 ∧
      (vast.problem.scan second.buffer () 1 ()).answer = .ok true ∧
      vast.machine.TurnInBounds .checked first 0 (wordCount - 1) := by
  intro library first second
  have hready : vast.Ready #[7, 7] .checked library :=
    ⟨fun _ => rfl, rfl, by decide +kernel, rfl, Nat.zero_le _⟩
  have hfirst : vast.machine.Reaches first first := .refl
  have hinv := hready.stackInvariant () library.log
  have hanswer : (vast.machine.probe first 0).answer = .ok true := by decide +kernel
  have hsecond : vast.machine.Reaches first second :=
    .single ((Machine.Onward.accepted 0 (by decide +kernel) rfl hanswer).step hinv)
  have hlocal : vast.problem.Local () := by
    refine Problem.local_of_byValues fun constraint hattached => ?_
    simp only [Problem.Attached, vast, List.mem_toArray, List.mem_singleton,
      Option.some.injEq] at hattached
    subst hattached
    exact ⟨0, fun values => values.getD 0 0 ≠ values.getD 1 0, rfl⟩
  obtain ⟨-, -, -, -, hsize, hentries, -, hscan⟩ := between_turns hready () hsecond
  obtain ⟨-, -, -, -, -, -, hturn, -⟩ := between_turns hready () hfirst
  obtain ⟨value, -, hvalue, -, hcandidate, -⟩ := hentries 0 (Nat.zero_lt_one)
  obtain ⟨top, size, htop, hdomain, -, hbounds⟩ := hturn Nat.zero_lt_two
  obtain rfl : 0 = value := Option.some.inj hvalue
  obtain rfl : 0 = top := Option.some.inj htop
  obtain rfl : wordCount - 1 = size := Option.some.inj hdomain
  exact ⟨hready, hsecond, hsize, hcandidate, hscan hlocal Nat.zero_lt_one (),
    hbounds (by decide) (by decide) .checked⟩

end Search

end ConstraintSearch
