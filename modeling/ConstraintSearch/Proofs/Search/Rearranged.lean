import ConstraintSearch.Proofs.Search.Accounting
import ConstraintSearch.Proofs.Search.Incremental
import ConstraintSearch.Proofs.Search.Lockstep

/-!
# The order of the constraints does not matter

A problem is rearranged by putting its constraints into other slots and some of them into additional
slots.  If the checkers answer by the assignment alone and never give up, the test accepts exactly
what all applicable constraints accept, and those are the same as before.  So the search of the
rearranged problem keeps in step: the buffer is the same between any two turns
(`Rearranged.lockstep`).

Only the checks may differ.  A scan that rejects stops at the first constraint that does, and this
may come earlier or later in another order.  A scan that accepts asks all applicable constraints, so
without additional slots it makes as many calls as before.

## Strategy

* The slots of the rearranged problem are a permutation of the old ones and the additional ones, so
  the constraints that are attached are the same (`Rearranged.attached_iff`), and with them the
  flaws, the purity of the checkers and what is accepted up to a frontier.
* The scans of the two problems therefore give the same answer, whatever the memories are
  (`probe_rearranged`), which is what `Lockstep` asks for.  The link is nothing but the same buffer.
* The calls of accepting scans are counted by the applicable constraints, of which there are as many
  if nothing was added (`sameAttempt_of_linked`).
-/

namespace ConstraintSearch

variable {σ κ : Type}

namespace Problem

variable {problem other : Problem σ κ} {extra : List (Option (Constraint σ κ))} {context : κ}
  {assignment : Array Nat} {frontier : Nat}

/-- The other problem has the same constraints in any order, and some of them once more in additional
slots. -/
structure Rearranged (problem : Problem σ κ) (extra : List (Option (Constraint σ κ)))
    (other : Problem σ κ) : Prop where
  domains : other.domains = problem.domains
  slots : other.slots.toList.Perm (problem.slots.toList ++ extra)
  again : ∀ slot ∈ extra, slot ∈ problem.slots

namespace Rearranged

theorem mem_slots_iff (h : problem.Rearranged extra other) {slot : Option (Constraint σ κ)} :
    slot ∈ other.slots ↔ slot ∈ problem.slots := by
  rw [← Array.mem_toList_iff, h.slots.mem_iff, List.mem_append, Array.mem_toList_iff]
  exact or_iff_left_of_imp (h.again slot)

theorem attached_iff (h : problem.Rearranged extra other) {constraint : Constraint σ κ} :
    other.Attached constraint ↔ problem.Attached constraint :=
  h.mem_slots_iff

theorem flaw? (h : problem.Rearranged extra other) (hvalid : problem.flaw? = none) :
    other.flaw? = none := by
  rw [flaw?_eq_none_iff] at hvalid ⊢
  intro index slot hslot
  obtain ⟨own, hown⟩ := Array.getElem?_of_mem (h.mem_slots_iff.1 (Array.mem_of_getElem? hslot))
  obtain ⟨constraint, heq, hscope⟩ := hvalid own slot hown
  rw [h.domains]
  exact ⟨constraint, heq, hscope⟩

theorem pure (h : problem.Rearranged extra other) (hpure : problem.Pure context) :
    other.Pure context :=
  fun constraint hattached => hpure constraint (h.attached_iff.1 hattached)

theorem steady (h : problem.Rearranged extra other) (hsteady : problem.Steady context) :
    other.Steady context := by
  intro constraint hattached assignment memory hsize
  exact hsteady constraint (h.attached_iff.1 hattached) assignment memory
    (hsize.trans (congrArg Array.size h.domains))

theorem acceptsUpTo_iff (h : problem.Rearranged extra other) :
    other.AcceptsUpTo context frontier assignment ↔
      problem.AcceptsUpTo context frontier assignment := by
  constructor
  · intro haccepts constraint hattached
    exact haccepts constraint (h.attached_iff.2 hattached)
  · intro haccepts constraint hattached
    exact haccepts constraint (h.attached_iff.1 hattached)

/-- The scan gives the same answer, and without additional slots it makes as many calls to accept. -/
theorem scan (h : problem.Rearranged extra other) (hvalid : problem.flaw? = none)
    (hpure : problem.Pure context) (hsteady : problem.Steady context)
    (hsize : assignment.size = problem.domains.size) (memory memory' : σ) :
    (other.scan assignment context frontier memory').answer =
        (problem.scan assignment context frontier memory).answer ∧
      (extra = [] → (problem.scan assignment context frontier memory).answer = .ok true →
        (problem.scan assignment context frontier memory).calls =
          (other.scan assignment context frontier memory').calls) := by
  have hsize' : assignment.size = other.domains.size := by rw [h.domains, hsize]
  obtain ⟨accepted, hanswer, haccepts⟩ := hpure.answer_scan hvalid hsteady hsize memory
  obtain ⟨accepted', hanswer', haccepts'⟩ :=
    (h.pure hpure).answer_scan (h.flaw? hvalid) (h.steady hsteady) hsize' memory'
  have hsame : accepted' = accepted :=
    Bool.eq_iff_iff.2 (haccepts'.trans (h.acceptsUpTo_iff.trans haccepts.symm))
  subst hsame
  refine ⟨hanswer'.trans hanswer.symm, ?_⟩
  intro hextra haccepting
  have hperm : problem.slots.toList.Perm other.slots.toList := by
    have hslots := h.slots.symm
    rwa [hextra, List.append_nil] at hslots
  rw [calls_scan_of_accepting haccepting,
    calls_scan_of_accepting (hanswer'.trans (hanswer.symm.trans haccepting)), hperm.countP_eq]

end Rearranged

end Problem

namespace Search

open Machine (Linked Lockstep EndLinked)

variable {search : Search σ κ} {other : Problem σ κ} {extra : List (Option (Constraint σ κ))}
  {buffer : Array Nat} {build : Build} {library : Library}

theorem Ready.withProblem (hready : search.Ready buffer build library)
    (h : search.problem.Rearranged extra other) :
    (search.withProblem other).Ready buffer build library where
  active := hready.active
  config := hready.config
  problem := h.flaw? hready.problem
  length := hready.length.trans (congrArg Array.size h.domains).symm
  start_le := Nat.le_trans hready.start_le (Nat.le_of_eq (congrArg Array.size h.domains).symm)

/-- The buffers of both searches are the same. -/
def SameBuffer (state twin : SearchState σ) : Prop := twin.buffer = state.buffer

/-- What is found of a value does not depend on the order of the constraints. -/
theorem probe_rearranged (h : search.problem.Rearranged extra other)
    (hvalid : search.problem.flaw? = none) (hpure : search.problem.Pure search.context)
    (hsteady : search.problem.Steady search.context) {state twin : SearchState σ}
    (hlinked : Linked search.machine (search.withProblem other).machine SameBuffer state twin)
    (value : Nat) :
    ((search.withProblem other).machine.probe twin value).answer =
        (search.machine.probe state value).answer ∧
      (extra = [] → (search.machine.probe state value).answer = .ok true →
        (search.machine.probe state value).calls =
          ((search.withProblem other).machine.probe twin value).calls) := by
  have hprobe : (search.withProblem other).machine.probe twin value =
      other.scan (search.machine.assign state value).buffer search.context (state.frontier + 1)
        twin.memory := by
    have hbuffer : twin.buffer = state.buffer := hlinked.link
    simp only [Machine.probe, Machine.assign, hbuffer, hlinked.sameCourse.frontier]
    rfl
  rw [hprobe]
  exact h.scan hvalid hpure hsteady (hlinked.stackInvariant.size_assign value) state.memory
    twin.memory

theorem lockstep_rearranged (h : search.problem.Rearranged extra other)
    (hvalid : search.problem.flaw? = none) (hpure : search.problem.Pure search.context)
    (hsteady : search.problem.Steady search.context) (hsignals : search.SignalsApart) :
    Lockstep search.machine (search.withProblem other).machine SameBuffer where
  domains := h.domains
  start := rfl
  interruption? := by
    intro state twin value hlinked _
    rw [hlinked.sameCourse.nodes]
    exact hsignals.interruption? state.nodes twin.memory state.memory
  answer := fun hlinked _ => (probe_rearranged h hvalid hpure hsteady hlinked _).1
  back := fun hlinked _ _ _ _ => hlinked.link
  rejected := by
    intro state twin value hlinked _ _ _ _
    exact congrArg₂ (Array.setIfInBounds · · value) hlinked.link hlinked.sameCourse.frontier
  accepted := by
    intro state twin value hlinked _ _ _ _
    exact congrArg₂ (Array.setIfInBounds · · value) hlinked.link hlinked.sameCourse.frontier

/-- Two attempts, in the search of a problem and in that of another one, try the same value for the
same variable, and both are rejected or none is. -/
structure SameAttempt (machine machine' : Machine σ) (attempt attempt' : SearchState σ) :
    Prop where
  written : machine.written attempt = machine'.written attempt'
  rejects : machine.rejects attempt = machine'.rejects attempt'

/-- Linked attempts are the same, and without additional slots they differ in their calls only if they
are rejected. -/
private theorem sameAttempt_of_linked (h : search.problem.Rearranged extra other)
    (hvalid : search.problem.flaw? = none) (hpure : search.problem.Pure search.context)
    (hsteady : search.problem.Steady search.context) {attempt attempt' : SearchState σ}
    (hlinked : Linked search.machine (search.withProblem other).machine SameBuffer attempt
      attempt') :
    SameAttempt search.machine (search.withProblem other).machine attempt attempt' ∧
      (extra = [] → search.machine.rejects attempt = false →
        search.machine.callsAt attempt =
          (search.withProblem other).machine.callsAt attempt') := by
  have hvalue : (search.withProblem other).machine.nextValue? attempt' =
      search.machine.nextValue? attempt :=
    Machine.nextValue?_of_sameCourse h.domains rfl hlinked.sameCourse
  have hwritten : search.machine.written attempt =
      (search.withProblem other).machine.written attempt' := by
    rw [Machine.written, Machine.written, hvalue, hlinked.sameCourse.frontier]
  obtain ⟨hanswer, hcalls⟩ := probe_rearranged h hvalid hpure hsteady hlinked
    (search.machine.written attempt).2
  refine ⟨⟨hwritten, ?_⟩, ?_⟩
  · rw [Machine.rejects, Machine.rejects, ← hwritten, hanswer]
  · intro hextra hnot
    rw [Machine.callsAt, Machine.callsAt, ← hwritten]
    apply hcalls hextra
    obtain ⟨accepted, haccepted⟩ := Problem.scan_of_steady hvalid hsteady
      (hlinked.stackInvariant.size_assign (search.machine.written attempt).2)
      (attempt.frontier + 1) attempt.memory
    have hprobe : (search.machine.probe attempt (search.machine.written attempt).2).answer =
        .ok accepted := haccepted
    cases accepted with
    | true => exact hprobe
    | false =>
        rw [Machine.rejects, hprobe] at hnot
        cases hnot

/-- **The order of the constraints.**  Let the checkers answer by the assignment alone and never give
up, and let no flag hang on what they remember.  Then the search of a rearranged problem ends with the
same status, buffer, tried values, steps back and greatest depth, whatever the limits are.  The
attempts are the same one by one, and the checks are the calls that are made in them.  If there are no
additional slots, only those attempts can differ in their calls that are rejected. -/
theorem perform_rearranged (hready : search.Ready buffer build library)
    (h : search.problem.Rearranged extra other) (hpure : search.problem.Pure search.context)
    (hsteady : search.problem.Steady search.context) (hsignals : search.SignalsApart) (memory : σ) :
    let twin := search.withProblem other
    let report := search.perform buffer memory build library
    let report' := twin.perform buffer memory build library
    let attempts := search.attempts buffer memory library.log
    let attempts' := twin.attempts buffer memory library.log
    ∃ result result', report.outcome = .ok result ∧ report'.outcome = .ok result' ∧
      result.status = result'.status ∧ report.buffer = report'.buffer ∧
      result.stats.nodes = result'.stats.nodes ∧
      result.stats.backtracks = result'.stats.backtracks ∧
      result.stats.maxDepth = result'.stats.maxDepth ∧
      result.stats.checks = (attempts.map search.machine.callsAt).sum ∧
      result'.stats.checks = (attempts'.map twin.machine.callsAt).sum ∧
      List.Forall₂ (fun attempt attempt' =>
        SameAttempt search.machine twin.machine attempt attempt' ∧
          (extra = [] → search.machine.rejects attempt = false →
            search.machine.callsAt attempt = twin.machine.callsAt attempt')) attempts attempts' := by
  intro twin report report' attempts attempts'
  have hready' : twin.Ready buffer build library := hready.withProblem h
  have hinv := hready.stackInvariant memory library.log
  have hinv' := hready'.stackInvariant memory library.log
  have hlock := lockstep_rearranged h hready.problem hpure hsteady hsignals
  have hfirst : Linked search.machine twin.machine SameBuffer
      (search.initial buffer memory library.log) (twin.initial buffer memory library.log) :=
    ⟨hinv, hinv', ⟨rfl, rfl, rfl, rfl, rfl⟩, rfl⟩
  obtain ⟨status, hending⟩ := hinv.exists_status (hready.steady_machine hsteady)
  obtain ⟨hend, hattempts⟩ := hlock.run hfirst hending
  obtain ⟨hnodes, hbacktracks, hdepth⟩ := hend.counters
  -- The last turns begin with the same buffer, and none of the endings writes.
  have hbuffer : report.buffer = report'.buffer := by
    obtain ⟨last, last', hlinked, hended, hended'⟩ := hend.lastTurn
    obtain ⟨candidates, hlast⟩ := hended.exists_candidates
    obtain ⟨candidates', hlast'⟩ := hended'.exists_candidates
    calc report.buffer
        = (search.run buffer memory library.log).state.buffer := hready.buffer_perform memory
      _ = last.buffer := by rw [Search.run, hlast]
      _ = last'.buffer := hlinked.link.symm
      _ = (twin.run buffer memory library.log).state.buffer := by rw [Search.run, hlast']
      _ = report'.buffer := (hready'.buffer_perform memory).symm
  refine ⟨_, _, hready.outcome_of_ending hend.ending, hready'.outcome_of_ending hend.ending', rfl,
    hbuffer, hnodes, hbacktracks, hdepth, ?_, ?_, ?_⟩
  · exact (hinv.checks_run hend.ending).trans (Nat.zero_add _)
  · exact (hinv'.checks_run hend.ending').trans (Nat.zero_add _)
  · exact hattempts.imp fun _ _ hlinked =>
      sameAttempt_of_linked h hready.problem hpure hsteady hlinked

/-- Two variables that take different values, and a constraint that accepts any value of the second
one. -/
def lenient : Search Unit Unit where
  problem :=
    { domains := #[2, 2]
      slots := #[
        some { scope := [0, 1], checker := .byValues 0 fun values => values[0]? != values[1]? },
        some { scope := [1], checker := .byValues 1 fun _ => true }] }
  context := ()

/-- The other way round, the constraint that rejects is asked last, and this costs one more call. -/
theorem perform_rearranged_lenient :
    let other := { lenient.problem with slots := lenient.problem.slots.reverse }
    let report := lenient.perform #[9, 9] () .unchecked {}
    let report' := (lenient.withProblem other).perform #[9, 9] () .unchecked {}
    (lenient.Ready #[9, 9] .unchecked {} ∧ lenient.problem.Rearranged [] other ∧
        lenient.problem.Pure () ∧ lenient.problem.Steady () ∧ lenient.SignalsApart) ∧
      report.outcome = .ok ⟨.solved, ⟨3, 3, 0, 2, 0⟩⟩ ∧
      report'.outcome = .ok ⟨.solved, ⟨3, 4, 0, 2, 0⟩⟩ ∧ report.buffer = report'.buffer := by
  intro other report report'
  have hready : lenient.Ready #[9, 9] .unchecked {} := ⟨by decide, rfl, rfl, rfl, by decide⟩
  have hattached : ∀ constraint, lenient.problem.Attached constraint →
      ∃ identity verdict, constraint.checker = .byValues identity verdict := by
    intro constraint hattached
    simp only [Problem.Attached, lenient, List.mem_toArray, List.mem_cons, Option.some.injEq,
      List.not_mem_nil, or_false] at hattached
    rcases hattached with rfl | rfl
    · exact ⟨0, fun values => values[0]? != values[1]?, rfl⟩
    · exact ⟨1, fun _ => true, rfl⟩
  have hpure : lenient.problem.Pure () := by
    intro constraint h
    obtain ⟨identity, verdict, hchecker⟩ := hattached constraint h
    refine ⟨fun assignment => .ok (verdict (constraint.values assignment)),
      fun assignment memory => ⟨memory, ?_⟩⟩
    rw [Constraint.check, hchecker]
    rfl
  have hsteady : lenient.problem.Steady () := (Problem.local_of_byValues hattached).steady
  have hsignals : lenient.SignalsApart := fun _ _ _ => rfl
  have hslots : other.slots.toList.Perm (lenient.problem.slots.toList ++ []) := by
    rw [List.append_nil, Array.toList_reverse]
    exact List.reverse_perm _
  have hother : lenient.problem.Rearranged [] other :=
    ⟨rfl, hslots, fun _ hmem => absurd hmem List.not_mem_nil⟩
  obtain ⟨-, -, -, -, -, hbuffer, -⟩ := perform_rearranged hready hother hpure hsteady hsignals ()
  exact ⟨⟨hready, hother, hpure, hsteady, hsignals⟩, outcome_of_toOption (by decide +kernel),
    outcome_of_toOption (by decide +kernel), hbuffer⟩

end Search

end ConstraintSearch
