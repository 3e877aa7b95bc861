import ConstraintSearch.Proofs.Search.Applicable

/-!
# The recursive search, call by call

`Search.depthFirst` is a search written as a recursion: the values of a variable are tried in
ascending order, and after each the applicable constraints are asked, slot by slot, up to the first
one that rejects.  It keeps a record of the checker calls, each with the whole buffer that the
checker saw.

A search without limits and without a flag is this recursion (`perform_eq_depthFirst`): it ends in
the same way, with the same buffer, counters and memory.  And it makes the same checker calls: this
is what checkers record that note each of their calls (`Search.recording`).  Nothing is asked of
the checkers, which may read the whole buffer, remember earlier calls and give up.
-/

namespace ConstraintSearch

/-- A call of a checker: the slot of its constraint, and the buffer it saw. -/
structure Call where
  slot : Nat
  buffer : Array Nat
  deriving DecidableEq, Repr

/-- A memory along with a record of the calls so far. -/
structure Recorded (σ : Type) where
  own : σ
  calls : List Call := []

variable {σ κ : Type}

/-! ## The reference -/

namespace Exploration

/-- Asks the constraint in a slot.  The call counts and is recorded, whatever comes of it. -/
def ask (context : κ) (slot : Nat) (constraint : Constraint σ κ) :
    Exploration (Recorded σ) Bool := fun trail =>
  let calls := trail.memory.calls ++ [{ slot, buffer := trail.buffer }]
  match constraint.check trail.buffer context trail.memory.own with
  | .ok accepted own =>
      .ok accepted { trail with checks := trail.checks + 1, memory := { own, calls } }
  | .error fault own =>
      .error fault { trail with checks := trail.checks + 1, memory := { own, calls } }

end Exploration

/-- The search as a recursion, with a record of its calls. -/
def Search.depthFirst (search : Search σ κ) (buffer : Array Nat) (memory : σ) :
    Outcome (Recorded σ) :=
  let ask (frontier : Nat) : Exploration (Recorded σ) Bool :=
    (search.problem.applicable frontier).allM fun (slot, constraint) =>
      Exploration.ask search.context slot constraint
  Exploration.outcome
    (Exploration.explore ask (search.problem.domains.toList.drop search.start) search.start
      (search.firstTrail buffer { own := memory }))

/-! ## Checkers that note their calls -/

/-- The checker, as the checker of the constraint in a slot, with its calls noted. -/
def Constraint.recording (constraint : Constraint σ κ) (slot : Nat) :
    Constraint (Recorded σ) κ where
  scope := constraint.scope
  checker :=
    { identity := constraint.checker.identity
      check := fun scope assignment context memory =>
        let calls := memory.calls ++ [{ slot, buffer := assignment }]
        match constraint.checker.check scope assignment context memory.own with
        | .ok accepted own => .ok accepted { own, calls }
        | .error fault own => .error fault { own, calls } }

/-- The problem with checkers that note their calls. -/
def Problem.recording (problem : Problem σ κ) : Problem (Recorded σ) κ where
  domains := problem.domains
  slots := problem.slots.mapIdx fun slot => Option.map (·.recording slot)

/-- The search with checkers that note their calls. -/
def Search.recording (search : Search σ κ) : Search (Recorded σ) κ where
  problem := search.problem.recording
  context := search.context
  config := search.config
  start := search.start
  cancelled nodes memory := search.cancelled nodes memory.own
  elapsed := search.elapsed

/-! ## Asking and testing -/

namespace Exploration

/-- Asking is testing, but for the record. -/
theorem ask_seenAs_test (context : κ) (slot : Nat) (constraint : Constraint σ κ) :
    SeenAs Recorded.own (ask context slot constraint) (test context constraint) := by
  intro trail
  show test context constraint (trail.map Recorded.own) = _
  unfold ask test
  simp only [Trail.map]
  cases constraint.check trail.buffer context trail.memory.own <;> rfl

/-- Asking is testing a checker that notes its calls. -/
theorem test_recording (context : κ) (slot : Nat) (constraint : Constraint σ κ) :
    test context (constraint.recording slot) = ask context slot constraint := by
  funext trail
  unfold ask test
  simp only [Constraint.check, Constraint.recording]
  cases constraint.checker.check constraint.scope trail.buffer context trail.memory.own <;> rfl

end Exploration

/-! ## The problem with noting checkers -/

private theorem zipIdx_recording (problem : Problem σ κ) :
    problem.recording.slots.toList.zipIdx =
      problem.slots.toList.zipIdx.map fun entry =>
        (entry.1.map (·.recording entry.2), entry.2) := by
  apply List.ext_getElem?
  intro index
  rw [List.getElem?_zipIdx, List.getElem?_map, List.getElem?_zipIdx]
  simp only [Problem.recording, Array.toList_mapIdx, List.getElem?_mapIdx, Option.map_map,
    Nat.zero_add]
  rfl

theorem Problem.flaw?_recording (problem : Problem σ κ) :
    problem.recording.flaw? = problem.flaw? := by
  unfold flaw?
  rw [zipIdx_recording, List.findSome?_map]
  congr 1
  funext ⟨slot, index⟩
  cases slot with
  | none => rfl
  | some constraint => rfl

theorem Problem.applicable_recording (problem : Problem σ κ) (frontier : Nat) :
    problem.recording.applicable frontier =
      (problem.applicable frontier).map fun entry => (entry.1, entry.2.recording entry.1) := by
  unfold applicable
  rw [zipIdx_recording, List.filterMap_map, List.map_filterMap]
  congr 1
  funext ⟨slot, index⟩
  cases slot with
  | none => rfl
  | some constraint =>
      have hsame : (constraint.recording index).isApplicable frontier
          = constraint.isApplicable frontier := rfl
      by_cases happlicable : constraint.isApplicable frontier
      · simp [Option.filter, happlicable, hsame]
      · simp [Option.filter, happlicable, hsame]

namespace Search

variable {search : Search σ κ} {buffer : Array Nat} {build : Build} {library : Library}

theorem Ready.recording (hready : search.Ready buffer build library) :
    search.recording.Ready buffer build library :=
  ⟨hready.active, hready.config, (Problem.flaw?_recording _).trans hready.problem, hready.length,
    hready.start_le⟩

theorem Unlimited.recording (hunlimited : search.Unlimited) : search.recording.Unlimited :=
  ⟨hunlimited.nodeLimit, hunlimited.timeLimit, fun _ _ => hunlimited.cancelled _ _⟩

/-! ## The search is the recursion -/

/-- With noting checkers, the search is the recursion. -/
theorem Ready.outcome_recording (hready : search.Ready buffer build library)
    (hunlimited : search.Unlimited) (memory : σ) (log : Array Message) :
    (search.recording.run buffer { own := memory } log).outcome =
      search.depthFirst buffer memory := by
  -- The scan of the noting problem asks slot by slot what the recursion asks, and notes the same.
  have hask : ∀ frontier, search.recording.machine.judge frontier =
      (search.problem.applicable frontier).allM fun entry =>
        Exploration.ask search.context entry.1 entry.2 := by
    intro frontier
    rw [judge_eq hready.recording.problem]
    show ((search.problem.recording.applicable frontier).allM fun entry =>
      Exploration.test search.context entry.2) = _
    rw [Problem.applicable_recording, Exploration.allM_map]
    congr 1
    funext entry
    exact Exploration.test_recording search.context entry.1 entry.2
  rw [hready.recording.outcome_run hunlimited.recording, funext hask]
  rfl

/-- The search is the recursion, but for the record. -/
theorem Ready.outcome_eq_depthFirst (hready : search.Ready buffer build library)
    (hunlimited : search.Unlimited) (memory : σ) (log : Array Message) :
    (search.run buffer memory log).outcome =
      (search.depthFirst buffer memory).map Recorded.own := by
  have hscan : ∀ frontier, Exploration.SeenAs Recorded.own
      ((search.problem.applicable frontier).allM fun entry =>
        Exploration.ask search.context entry.1 entry.2)
      ((search.problem.applicable frontier).allM fun entry =>
        Exploration.test search.context entry.2) := by
    intro frontier
    apply Exploration.SeenAs.allM
    intro entry
    exact Exploration.ask_seenAs_test search.context entry.1 entry.2
  rw [hready.outcome_run hunlimited, funext (judge_eq hready.problem), depthFirst,
    ← Exploration.outcome_mapResult]
  exact congrArg Exploration.outcome (Exploration.SeenAs.explore hscan _ _
    (search.firstTrail buffer ({ own := memory } : Recorded σ)))

/-- **The search is a recursion.**  A search without limits and without a flag ends as the
recursion over its variables does: with the same status or fault, with the same buffer down to the
values that are left over from branches given up, with the same counters and the same memory.  And
the calls that its checkers note, each with the whole buffer, are those of the recursion. -/
theorem perform_eq_depthFirst (search : Search σ κ) (buffer : Array Nat) (memory : σ)
    (build : Build) (library : Library) (hready : search.Ready buffer build library)
    (hunlimited : search.Unlimited) :
    let reference := search.depthFirst buffer memory
    let report := search.perform buffer memory build library
    let noting := search.recording.perform buffer { own := memory } build library
    report = search.report library.activations (search.run buffer memory library.log) ∧
      (search.run buffer memory library.log).outcome = reference.map Recorded.own ∧
      report.outcome = reference.answer search.elapsed ∧
      report.buffer = reference.trail.buffer ∧ report.memory = reference.trail.memory.own ∧
      noting.outcome = report.outcome ∧ noting.buffer = report.buffer ∧
      noting.memory.own = report.memory ∧ noting.memory.calls = reference.trail.memory.calls := by
  intro reference report noting
  have hrun := hready.outcome_eq_depthFirst hunlimited memory library.log
  have hrecord := hready.outcome_recording hunlimited memory library.log
  obtain ⟨houtcome, hbuffer, hmemory⟩ := hready.perform_of_outcome hrun
  obtain ⟨hanswer, hlast, hnoted⟩ := hready.recording.perform_of_outcome hrecord
  exact ⟨hready.perform_eq memory, hrun, houtcome, hbuffer, hmemory, hanswer.trans houtcome.symm,
    hlast.trans hbuffer.symm, (congrArg Recorded.own hnoted).trans hmemory.symm,
    congrArg Recorded.calls hnoted⟩

/-- The fickle search steps back once, and its second branch starts from a buffer that still holds
what the first has left. -/
theorem perform_eq_depthFirst_fickle :
    fickle.Ready #[0, 7] .unchecked {} ∧ fickle.Unlimited ∧
      (fickle.perform #[0, 7] 0 .unchecked {}).buffer = #[1, 0] ∧
      (fickle.recording.perform #[0, 7] { own := 0 } .unchecked {}).memory.calls =
        [⟨0, #[0, 7]⟩, ⟨0, #[0, 0]⟩, ⟨0, #[0, 1]⟩, ⟨0, #[1, 1]⟩, ⟨0, #[1, 0]⟩] := by
  have hready : fickle.Ready #[0, 7] .unchecked {} := ⟨by decide, rfl, rfl, rfl, by decide⟩
  have hunlimited : fickle.Unlimited := ⟨rfl, rfl, fun _ _ => rfl⟩
  obtain ⟨-, -, -, hbuffer, -, -, -, -, hcalls⟩ :=
    perform_eq_depthFirst fickle #[0, 7] 0 .unchecked {} hready hunlimited
  refine ⟨hready, hunlimited, hbuffer.trans ?_, hcalls.trans ?_⟩
  · decide +kernel
  · decide +kernel

end Search

end ConstraintSearch
