import ConstraintSearch.Proofs.Search.Attempts
import Mathlib.Data.List.Forall2

/-!
# Two machines in lockstep

Two machines over the same variables make the same turns as long as their tests give the same
answers and they have the same reasons to stop.  Whether this is so may depend on how their states
are linked.  `Lockstep` says which links are good for that: linked states, of the same course, are
answered alike, and each of the three ways to go on leads to linked states again.

Then whole runs keep in step (`Lockstep.run`).  If one is not broken off, the other ends with the same
status, their last turns begin in linked states, and their attempts are linked one by one.

The link is a parameter.  Each of its uses says what has to be known besides the course: that the
buffers are equal, or that they agree below the frontier.  The course itself (frontier, stack, and
the counters of tried values, steps back and depth) is kept by `Lockstep.step`, so no use has to speak
of it.
-/

namespace ConstraintSearch

variable {σ : Type}

/-- Both searches have come to the same variable with the same candidates, after as many tried values
and steps back, and have come as deep. -/
structure SearchState.SameCourse (state twin : SearchState σ) : Prop where
  frontier : twin.frontier = state.frontier
  candidates : twin.candidates = state.candidates
  nodes : twin.nodes = state.nodes
  backtracks : twin.backtracks = state.backtracks
  maxDepth : twin.maxDepth = state.maxDepth

namespace Machine

open SearchState (SameCourse)

variable {machine other : Machine σ} {link : SearchState σ → SearchState σ → Prop}
  {state twin next last : SearchState σ} {value : Nat} {status : Status}

/-- States between two turns that are of the same course and are linked. -/
structure Linked (machine other : Machine σ) (link : SearchState σ → SearchState σ → Prop)
    (state twin : SearchState σ) : Prop where
  stackInvariant : StackInvariant machine state
  stackInvariant' : StackInvariant other twin
  sameCourse : SameCourse state twin
  link : link state twin

/-- Linked states are answered alike, and what they lead to is linked again. -/
structure Lockstep (machine other : Machine σ) (link : SearchState σ → SearchState σ → Prop) :
    Prop where
  domains : other.domains = machine.domains
  start : other.start = machine.start
  interruption? : ∀ {state twin value}, Linked machine other link state twin →
    machine.nextValue? state = some value →
    other.interruption? twin.nodes twin.memory = machine.interruption? state.nodes state.memory
  answer : ∀ {state twin value}, Linked machine other link state twin →
    machine.nextValue? state = some value →
    (other.probe twin value).answer = (machine.probe state value).answer
  back : ∀ {state twin}, Linked machine other link state twin →
    machine.start < state.frontier → machine.nextValue? state = none →
    machine.step state = .onward state.steppedBack →
    other.step twin = .onward twin.steppedBack → link state.steppedBack twin.steppedBack
  rejected : ∀ {state twin value}, Linked machine other link state twin →
    machine.nextValue? state = some value → (machine.probe state value).answer = .ok false →
    machine.step state = .onward (machine.tested state value) →
    other.step twin = .onward (other.tested twin value) →
    link (machine.tested state value) (other.tested twin value)
  accepted : ∀ {state twin value}, Linked machine other link state twin →
    machine.nextValue? state = some value → (machine.probe state value).answer = .ok true →
    machine.step state = .onward (machine.descended state value) →
    other.step twin = .onward (other.descended twin value) →
    link (machine.descended state value) (other.descended twin value)

/-! ## Turns -/

theorem nextValue?_of_sameCourse (hdomains : other.domains = machine.domains)
    (hstart : other.start = machine.start) (h : SameCourse state twin) :
    other.nextValue? twin = machine.nextValue? state := by
  unfold nextValue?
  rw [hdomains, hstart, h.frontier, h.candidates]

theorem Lockstep.nextValue? (hlock : Lockstep machine other link)
    (hlinked : Linked machine other link state twin) :
    other.nextValue? twin = machine.nextValue? state :=
  nextValue?_of_sameCourse hlock.domains hlock.start hlinked.sameCourse

theorem Lockstep.tries (hlock : Lockstep machine other link)
    (hlinked : Linked machine other link state twin) : other.tries twin = machine.tries state := by
  unfold Machine.tries
  rw [hlock.nextValue? hlinked]
  cases hvalue : machine.nextValue? state with
  | none => rfl
  | some value => rw [hlock.interruption? hlinked hvalue]

private theorem sameCourse_steppedBack (h : SameCourse state twin) :
    SameCourse state.steppedBack twin.steppedBack where
  frontier := congrArg (· - 1) h.frontier
  candidates := congrArg Array.pop h.candidates
  nodes := h.nodes
  backtracks := congrArg (· + 1) h.backtracks
  maxDepth := h.maxDepth

private theorem sameCourse_tested (hstart : other.start = machine.start)
    (h : SameCourse state twin) :
    SameCourse (machine.tested state value) (other.tested twin value) where
  frontier := h.frontier
  candidates := by simp only [tested, assign, h.candidates, h.frontier, hstart]
  nodes := congrArg (· + 1) h.nodes
  backtracks := h.backtracks
  maxDepth := h.maxDepth

private theorem sameCourse_descended (hstart : other.start = machine.start)
    (h : SameCourse state twin) :
    SameCourse (machine.descended state value) (other.descended twin value) where
  frontier := congrArg (· + 1) h.frontier
  candidates := congrArg (Array.push · 0) (sameCourse_tested hstart h).candidates
  nodes := congrArg (· + 1) h.nodes
  backtracks := h.backtracks
  maxDepth := by simp only [descended, h.maxDepth, h.frontier]

/-- If the one machine goes on, so does the other one, and to a linked state. -/
theorem Lockstep.step (hlock : Lockstep machine other link)
    (hlinked : Linked machine other link state twin) (hnext : machine.step state = .onward next) :
    ∃ next', other.step twin = .onward next' ∧ Linked machine other link next next' := by
  have hinv := hlinked.stackInvariant
  have hinv' := hlinked.stackInvariant'
  have hsame := hlinked.sameCourse
  have hvalue' := hlock.nextValue? hlinked
  -- Whatever the first machine does, the second finds the same candidate, the same reasons to stop
  -- and the same answer, so it has the same way to go on; its new state is linked by `hlock`.
  cases hinv.step_eq_onward_iff.1 hnext with
  | back hlt hstart hvalue =>
      have hlt' : twin.frontier < other.domains.size := by
        rw [hsame.frontier, hlock.domains]
        exact hlt
      have hstart' : other.start < twin.frontier := by
        rw [hsame.frontier, hlock.start]
        exact hstart
      have hnext' := (Onward.back hlt' hstart' (hvalue'.trans hvalue)).step hinv'
      exact ⟨_, hnext', hinv.step hnext, hinv'.step hnext', sameCourse_steppedBack hsame,
        hlock.back hlinked hstart hvalue hnext hnext'⟩
  | rejected value hvalue hfree hanswer =>
      have hfree' := (hlock.interruption? hlinked hvalue).trans hfree
      have hanswer' := (hlock.answer hlinked hvalue).trans hanswer
      have hnext' := (Onward.rejected value (hvalue'.trans hvalue) hfree' hanswer').step hinv'
      exact ⟨_, hnext', hinv.step hnext, hinv'.step hnext', sameCourse_tested hlock.start hsame,
        hlock.rejected hlinked hvalue hanswer hnext hnext'⟩
  | accepted value hvalue hfree hanswer =>
      have hfree' := (hlock.interruption? hlinked hvalue).trans hfree
      have hanswer' := (hlock.answer hlinked hvalue).trans hanswer
      have hnext' := (Onward.accepted value (hvalue'.trans hvalue) hfree' hanswer').step hinv'
      exact ⟨_, hnext', hinv.step hnext, hinv'.step hnext', sameCourse_descended hlock.start hsame,
        hlock.accepted hlinked hvalue hanswer hnext hnext'⟩

/-- If the one machine ends the search, so does the other one, and in the same way. -/
theorem Lockstep.ended (hlock : Lockstep machine other link)
    (hlinked : Linked machine other link state twin) (hlast : Ending machine state status last) :
    ∃ last', Ending other twin status last' := by
  have hsame := hlinked.sameCourse
  have hvalue' := hlock.nextValue? hlinked
  cases hlast with
  | solved hfrontier =>
      refine ⟨twin, .solved ?_⟩
      rw [hsame.frontier, hlock.domains]
      exact hfrontier
  | exhausted hlt hfrontier hvalue =>
      refine ⟨_, .exhausted ?_ ?_ (hvalue'.trans hvalue)⟩
      · rw [hsame.frontier, hlock.domains]
        exact hlt
      · rw [hsame.frontier, hlock.start]
        exact hfrontier
  | interrupted value _ hvalue hreason =>
      exact ⟨twin, .interrupted value status (hvalue'.trans hvalue)
        ((hlock.interruption? hlinked hvalue).trans hreason)⟩

/-! ## Runs -/

/-- Both runs end with the status, and their last turns begin in linked states. -/
structure EndLinked (machine other : Machine σ) (link : SearchState σ → SearchState σ → Prop)
    (status : Status) (one two : Ended σ) : Prop where
  ending : one.ending = .ok status
  ending' : two.ending = .ok status
  lastTurn : ∃ last last', Linked machine other link last last' ∧
    Ending machine last status one.state ∧ Ending other last' status two.state

private theorem forall₂_own {link : SearchState σ → SearchState σ → Prop} (h : link state twin)
    (own : Bool) : List.Forall₂ link (if own then [state] else []) (if own then [twin] else []) := by
  cases own with
  | false => exact .nil
  | true => exact .cons h .nil

/-- Runs from linked states make linked attempts, and if the one is not broken off, they end in the
same way. -/
theorem Lockstep.run (hlock : Lockstep machine other link)
    (hlinked : Linked machine other link state twin)
    (hending : (machine.run state).ending = .ok status) :
    EndLinked machine other link status (machine.run state) (other.run twin) ∧
      List.Forall₂ (Linked machine other link) (machine.attempts state) (other.attempts twin) := by
  -- Along the run of the first machine.  The second follows turn by turn, and a run that is broken
  -- off is excluded by `hending`.
  induction state using Machine.run.induct machine generalizing twin with
  | case1 state next hnext ih =>
      obtain ⟨next', hnext', hlinked'⟩ := hlock.step hlinked hnext
      rw [run_of_onward hnext] at hending ⊢
      rw [run_of_onward hnext', attempts_of_onward hnext, attempts_of_onward hnext',
        hlock.tries hlinked]
      obtain ⟨hend, hattempts⟩ := ih hlinked' hending
      exact ⟨hend, List.rel_append (forall₂_own hlinked _) hattempts⟩
  | case2 state other' last hlast =>
      rw [run_of_ended hlast] at hending ⊢
      obtain rfl : other' = status := Except.ok.inj hending
      have hended := hlinked.stackInvariant.step_eq_ended_iff.1 hlast
      obtain ⟨last', hended'⟩ := hlock.ended hlinked hended
      have hlast' := hended'.step hlinked.stackInvariant'
      rw [run_of_ended hlast', attempts_of_ended hlast, attempts_of_ended hlast',
        hlock.tries hlinked]
      exact ⟨⟨rfl, rfl, state, twin, hlinked, hended, hended'⟩, forall₂_own hlinked _⟩
  | case3 state fault last hlast =>
      rw [run_of_broken hlast] at hending
      cases hending

variable {one two : Ended σ}

/-- Runs that end linked have tried as many values and stepped back as often, and have come as
deep. -/
theorem EndLinked.counters (h : EndLinked machine other link status one two) :
    one.state.nodes = two.state.nodes ∧ one.state.backtracks = two.state.backtracks ∧
      one.state.maxDepth = two.state.maxDepth := by
  obtain ⟨last, last', hlinked, hended, hended'⟩ := h.lastTurn
  obtain ⟨candidates, heq⟩ := hended.exists_candidates
  obtain ⟨candidates', heq'⟩ := hended'.exists_candidates
  have hsame := hlinked.sameCourse
  rw [heq, heq']
  exact ⟨hsame.nodes.symm, hsame.backtracks.symm, hsame.maxDepth.symm⟩

end Machine

end ConstraintSearch
