import ConstraintSearch.Proofs.Search.Objections
import ConstraintSearch.Proofs.Search.Words
import ConstraintSearch.Search.Watched
import Mathlib.Data.Nat.Find

/-!
# When a watched search ends in a fault

A checker that ends the last activation of the library brings a checked search to its end, but not at
once.  The fault comes with the next question for an active library: the start of the next scan, or
the next slot of the scan that the checker was called in.

## Strategy

* *Scans.*  `Lapses` says that a scan comes to such a question with a memory that is barred.  If it
  does, the watched scan breaks off, and if it does not, it is the scan of `Problem.scan`
  (`watchedScan_of_lapses`, `watchedScan_of_not_lapses`).  Both are read off the first stop of the
  scan, slot by slot.
* *Runs.*  A run is broken off by the test of one of its attempts.  So a watched search to which
  nothing can be objected ends in a fault exactly if the scan of one of its attempts lapses
  (`performWatched_fault_iff`).
* *Checkers that leave the activations alone.*  With them no scan lapses, and a watched search is the
  search that `Search.perform` makes (`performWatched_eq_perform`).
-/

namespace ConstraintSearch

variable {σ κ : Type} {build : Build}

theorem Build.lacks_iff {activations : Nat} :
    build.lacks activations = true ↔ build = .checked ∧ activations = 0 := by
  simp [lacks]

/-! ## Scans -/

namespace Problem

variable {problem : Problem σ κ} {barred : σ → Bool} {assignment : Array Nat} {context : κ}
  {frontier : Nat} {memory : σ}

/-- The memory is barred when the scan starts, or when it comes to one of the slots that it looks
at. -/
def Lapses (problem : Problem σ κ) (barred : σ → Bool) (assignment : Array Nat) (context : κ)
    (frontier : Nat) (memory : σ) : Prop :=
  barred memory = true ∨ ∃ slot < problem.reach assignment context frontier memory,
    barred (problem.memoryAfter assignment context frontier memory slot) = true

/-- No checker gives up on an assignment to all variables, unless its memory is barred. -/
def SteadyWhile (problem : Problem σ κ) (barred : σ → Bool) (context : κ) : Prop :=
  ∀ constraint, problem.Attached constraint →
    ∀ (assignment : Array Nat) (memory : σ), assignment.size = problem.domains.size →
      barred memory = false →
        ∃ accepted after, constraint.check assignment context memory = .ok accepted after

/-- A slot that is set is not looked at with a memory that is barred. -/
theorem watchedScanFrom_of_barred {slot calls : Nat} {constraint : Constraint σ κ}
    (hslot : problem.slots[slot]? = some (some constraint)) (hbarred : barred memory = true) :
    problem.watchedScanFrom barred assignment context frontier slot calls memory =
      { answer := .error .inactive, calls, memory } := by
  obtain ⟨hlt, hget⟩ := Array.getElem?_eq_some_iff.1 hslot
  rw [watchedScanFrom, dif_pos hlt, hget]
  exact if_pos hbarred

/-- With another memory, a scan that nothing stops at a slot goes on behind it. -/
theorem watchedScanFrom_of_passed {slot calls : Nat} (hslot : slot < problem.slots.size)
    (hopen : barred (problem.memoryAfter assignment context frontier memory slot) = false)
    (hpassed : problem.stopAt? assignment context frontier memory slot = none) :
    problem.watchedScanFrom barred assignment context frontier slot calls
        (problem.memoryAfter assignment context frontier memory slot) =
      problem.watchedScanFrom barred assignment context frontier (slot + 1)
        (calls + (problem.applicableAt? frontier slot).toList.length)
        (problem.memoryAfter assignment context frontier memory (slot + 1)) := by
  have hget := Array.getElem?_eq_getElem hslot
  rw [memoryAfter_succ, watchedScanFrom, dif_pos hslot, hopen]
  cases hown : problem.slots[slot] with
  | none =>
      rw [stopAt?_of_unset (hget.trans (congrArg some hown))] at hpassed
      cases hpassed
  | some constraint =>
      rw [hown] at hget
      by_cases happlicable : constraint.isApplicable frontier = true
      · obtain ⟨after, hcheck⟩ := exists_check_of_stopAt?_none hget happlicable hpassed
        rw [applicableAt?_eq_some_iff.2 ⟨hget, happlicable⟩]
        simp only [if_pos happlicable, Constraint.memoryAfter, hcheck]
        rfl
      · have hnone : problem.applicableAt? frontier slot = none := by
          simp [applicableAt?, hget, happlicable]
        simp only [if_neg happlicable, hnone]
        rfl

/-- And one that something stops there ends as an unwatched scan does. -/
theorem watchedScanFrom_of_stopped {slot calls : Nat} {stop : Stop}
    (hopen : barred (problem.memoryAfter assignment context frontier memory slot) = false)
    (hstop : problem.stopAt? assignment context frontier memory slot = some stop) :
    problem.watchedScanFrom barred assignment context frontier slot calls
        (problem.memoryAfter assignment context frontier memory slot) =
      problem.scanFrom assignment context frontier slot calls
        (problem.memoryAfter assignment context frontier memory slot) := by
  rw [watchedScanFrom, scanFrom]
  obtain ⟨hslot, -⟩ | ⟨constraint, after, hslot, happlicable, hanswer⟩ := stopAt?_cases hstop
  · obtain ⟨hlt, hget⟩ := Array.getElem?_eq_some_iff.1 hslot
    rw [dif_pos hlt, dif_pos hlt, hget]
  · obtain ⟨hlt, hget⟩ := Array.getElem?_eq_some_iff.1 hslot
    rw [dif_pos hlt, dif_pos hlt, hget, hopen]
    simp only [if_pos happlicable]
    obtain ⟨hcheck, -⟩ | ⟨fault, hcheck, -⟩ := hanswer
    · rw [hcheck]
      rfl
    · rw [hcheck]
      rfl

/-- A watched scan that nothing stops at the first `count` slots, and that comes to none of them with
a memory that is barred, comes to the one behind them. -/
theorem watchedScanFrom_of_passes {count : Nat} (hcount : count ≤ problem.slots.size)
    (hpasses : ∀ slot < count, problem.stopAt? assignment context frontier memory slot = none)
    (hopen : ∀ slot < count,
      barred (problem.memoryAfter assignment context frontier memory slot) = false)
    (calls : Nat) :
    problem.watchedScanFrom barred assignment context frontier 0 calls memory =
      problem.watchedScanFrom barred assignment context frontier count
        (calls + (problem.applicableBelow frontier count).length)
        (problem.memoryAfter assignment context frontier memory count) := by
  induction count with
  | zero => rfl
  | succ count ih =>
      have hbefore := ih (Nat.le_of_succ_le hcount)
        (fun slot hslot => hpasses slot (Nat.lt_succ_of_lt hslot))
        (fun slot hslot => hopen slot (Nat.lt_succ_of_lt hslot))
      rw [hbefore, watchedScanFrom_of_passed hcount (hopen count (Nat.lt_succ_self count))
          (hpasses count (Nat.lt_succ_self count)),
        length_applicableBelow_succ, Nat.add_assoc]

/-- Nothing stops a scan before the last slot that it looks at. -/
theorem stopAt?_of_lt_reach {slot later : Nat} (hlt : slot < later)
    (hlater : later < problem.reach assignment context frontier memory) :
    problem.stopAt? assignment context frontier memory slot = none := by
  unfold reach at hlater
  cases hfirst : problem.firstStop? assignment context frontier memory with
  | none =>
      rw [hfirst] at hlater
      exact firstStop?_eq_none_iff.1 hfirst slot (Nat.lt_trans hlt hlater)
  | some stop =>
      rw [hfirst] at hlater
      exact (firstStop?_eq_some_iff.1 hfirst).2 slot
        (Nat.lt_of_lt_of_le hlt (Nat.le_of_lt_succ hlater))

/-- If a scan does not lapse, it makes no difference to watch it. -/
theorem watchedScan_of_not_lapses
    (hkept : ¬problem.Lapses barred assignment context frontier memory) :
    problem.watchedScan barred assignment context frontier memory =
      problem.scan assignment context frontier memory := by
  obtain ⟨hstart, hslots⟩ := not_or.1 hkept
  have hopen : ∀ slot < problem.reach assignment context frontier memory,
      barred (problem.memoryAfter assignment context frontier memory slot) = false := by
    intro slot hslot
    exact Bool.eq_false_iff.2 fun hbarred => hslots ⟨slot, hslot, hbarred⟩
  unfold watchedScan scan
  rw [if_neg hstart]
  cases hfirst : problem.firstStop? assignment context frontier memory with
  | none =>
      have hpasses := firstStop?_eq_none_iff.1 hfirst
      simp only [reach, hfirst] at hopen
      rw [watchedScanFrom_of_passes (Nat.le_refl _) hpasses hopen,
        scanFrom_of_passes (Nat.le_refl _) hpasses, watchedScanFrom, scanFrom,
        dif_neg (Nat.lt_irrefl _), dif_neg (Nat.lt_irrefl _)]
  | some stop =>
      obtain ⟨hstop, hpasses⟩ := firstStop?_eq_some_iff.1 hfirst
      have hle := Nat.le_of_lt (slot_of_stopAt? hstop).1
      simp only [reach, hfirst] at hopen
      rw [watchedScanFrom_of_passes hle hpasses fun slot hslot => hopen slot (Nat.lt_succ_of_lt hslot),
        scanFrom_of_passes hle hpasses, watchedScanFrom_of_stopped (hopen _ (Nat.lt_succ_self _)) hstop]

/-- If all slots are set, a watched scan that lapses breaks off. -/
theorem watchedScan_of_lapses (hfilled : none ∉ problem.slots)
    (h : problem.Lapses barred assignment context frontier memory) :
    (problem.watchedScan barred assignment context frontier memory).answer = .error .inactive := by
  unfold watchedScan
  by_cases hstart : barred memory = true
  · rw [if_pos hstart]
  · rw [if_neg hstart]
    have hlapse := h.resolve_left hstart
    -- The first slot to which the scan comes with a memory that is barred: it passes those before.
    let slot := Nat.find hlapse
    obtain ⟨hslot, hbarred⟩ : slot < problem.reach assignment context frontier memory ∧
        barred (problem.memoryAfter assignment context frontier memory slot) = true :=
      Nat.find_spec hlapse
    have hlt : slot < problem.slots.size := Nat.lt_of_lt_of_le hslot reach_le
    have hopen : ∀ earlier < slot,
        barred (problem.memoryAfter assignment context frontier memory earlier) = false := by
      intro earlier hearlier
      have hnone := Nat.find_min hlapse hearlier
      exact Bool.eq_false_iff.2 fun hbarred' => hnone ⟨Nat.lt_trans hearlier hslot, hbarred'⟩
    rw [watchedScanFrom_of_passes (Nat.le_of_lt hlt)
      (fun earlier hearlier => stopAt?_of_lt_reach hearlier hslot) hopen]
    cases hown : problem.slots[slot] with
    | none => exact absurd (hown ▸ Array.getElem_mem hlt) hfilled
    | some constraint =>
        rw [watchedScanFrom_of_barred (Array.getElem?_eq_some_iff.2 ⟨hlt, hown⟩) hbarred]

/-- What breaks a watched scan off, if no checker gives up. -/
theorem answer_watchedScan_eq_error_iff (hvalid : problem.flaw? = none)
    (hsteady : problem.SteadyWhile barred context) (hsize : assignment.size = problem.domains.size)
    {fault : Fault} :
    (problem.watchedScan barred assignment context frontier memory).answer = .error fault ↔
      fault = .inactive ∧ problem.Lapses barred assignment context frontier memory := by
  have hfilled := none_notMem_of_valid hvalid
  by_cases h : problem.Lapses barred assignment context frontier memory
  · rw [watchedScan_of_lapses hfilled h]
    exact ⟨fun heq => ⟨(Except.error.inj heq).symm, h⟩, fun ⟨heq, _⟩ => heq ▸ rfl⟩
  · rw [watchedScan_of_not_lapses h]
    refine ⟨fun hanswer => ?_, fun ⟨_, h'⟩ => absurd h' h⟩
    obtain ⟨slot, constraint, after, hfirst, hslot, -, hcheck⟩ := exists_gaveUp hfilled hanswer
    have hreach : slot < problem.reach assignment context frontier memory := by
      rw [reach, hfirst]
      exact Nat.lt_succ_self slot
    have hopen : barred (problem.memoryAfter assignment context frontier memory slot) = false :=
      Bool.eq_false_iff.2 fun hbarred => h (.inr ⟨slot, hreach, hbarred⟩)
    obtain ⟨accepted, after', hok⟩ :=
      hsteady constraint (attached_of_getElem? hslot) assignment _ hsize hopen
    cases hcheck.symm.trans hok

/-! ### Checkers that leave the activations alone -/

/-- No checker changes the number of activations. -/
def KeepsActivations (problem : Problem σ κ) (activations : σ → Nat) (context : κ) : Prop :=
  ∀ constraint, problem.Attached constraint → ∀ assignment memory,
    activations (constraint.memoryAfter assignment context memory) = activations memory

variable {activations : σ → Nat}

theorem KeepsActivations.memoryAfter (h : problem.KeepsActivations activations context)
    (assignment : Array Nat) (frontier : Nat) (memory : σ) (count : Nat) :
    activations (problem.memoryAfter assignment context frontier memory count) =
      activations memory := by
  induction count with
  | zero => rfl
  | succ count ih =>
      rw [memoryAfter_succ]
      cases happlicable : problem.applicableAt? frontier count with
      | none => exact ih
      | some constraint =>
          have hattached := attached_of_getElem? (applicableAt?_eq_some_iff.1 happlicable).1
          exact (h constraint hattached _ _).trans ih

theorem KeepsActivations.not_lapses (h : problem.KeepsActivations activations context)
    (hactive : build.lacks (activations memory) = false) :
    ¬problem.Lapses (fun memory => build.lacks (activations memory)) assignment context frontier
      memory := by
  rintro (hbarred | ⟨slot, -, hbarred⟩)
  · exact Bool.false_ne_true (hactive.symm.trans hbarred)
  · have hkept := congrArg build.lacks (h.memoryAfter assignment frontier memory slot)
    exact Bool.false_ne_true ((hkept.trans hactive).symm.trans hbarred)

end Problem

/-! ## Searches -/

namespace Search

variable {search : Search σ κ} {barred : σ → Bool} {activations : σ → Nat} {buffer : Array Nat}
  {memory : σ} {log : Array Message} {state : SearchState σ}

/-- The scan that an attempt makes lapses. -/
def LapsesAt (search : Search σ κ) (barred : σ → Bool) (attempt : SearchState σ) : Prop :=
  search.problem.Lapses barred (search.machine.afterWrite attempt).buffer search.context
    (attempt.frontier + 1) attempt.memory

/-- A watched search that meets no objection is the run of its machine. -/
theorem performWatched_of_ready
    (hready : search.Ready buffer build { activations := activations memory, log }) :
    search.performWatched activations buffer memory build log =
      let ended := (search.watchedMachine fun memory => build.lacks (activations memory)).run
        (search.initial buffer memory log)
      search.report (activations ended.state.memory) ended := by
  rw [performWatched, hready.objection?_eq_none]

/-- A watched search to which something is objected leaves everything as it is. -/
theorem performWatched_of_objection {fault : Fault}
    (hfirst : search.firstObjection? build { activations := activations memory, log } buffer.size =
      some fault) :
    search.performWatched activations buffer memory build log =
      { outcome := .error fault
        buffer
        memory
        library := { activations := activations memory, log } } := by
  rw [performWatched, objection?_eq_first, hfirst]

theorem outcome_report_eq_error_iff {ended : Machine.Ended σ} {count : Nat} {fault : Fault} :
    (search.report count ended).outcome = .error fault ↔ ended.ending = .error fault := by
  obtain ⟨ending, state⟩ := ended
  cases ending with
  | ok status => exact ⟨nofun, nofun⟩
  | error other =>
      show Except.error other = .error fault ↔ Except.error other = .error fault
      rw [Except.error.injEq, Except.error.injEq]

/-- The run of a watched search is broken off exactly if the scan of one of its attempts lapses. -/
theorem ending_watched_eq_error_iff (hinv : search.machine.StackInvariant state)
    (hvalid : search.problem.flaw? = none)
    (hsteady : search.problem.SteadyWhile barred search.context) {fault : Fault} :
    ((search.watchedMachine barred).run state).ending = .error fault ↔
      fault = .inactive ∧
        ∃ attempt ∈ (search.watchedMachine barred).attempts state,
          search.LapsesAt barred attempt := by
  have hinv' : (search.watchedMachine barred).StackInvariant state := hinv.withTest _
  -- Each attempt writes within the buffer, so its scan has an assignment to all variables.
  have hscan : ∀ attempt ∈ (search.watchedMachine barred).attempts state, ∀ value,
      (search.watchedMachine barred).nextValue? attempt = some value →
        (((search.watchedMachine barred).probe attempt value).answer = .error fault ↔
          fault = .inactive ∧ search.LapsesAt barred attempt) := by
    intro attempt hattempt value hvalue
    have hwritten : (search.machine.written attempt).2 = value := congrArg (·.getD 0) hvalue
    have hsize : (search.machine.afterWrite attempt).buffer.size = search.problem.domains.size :=
      Array.size_setIfInBounds.trans (hinv'.of_mem_attempts hattempt).buffer_size
    unfold LapsesAt
    rw [Machine.afterWrite, hwritten]
    exact Problem.answer_watchedScan_eq_error_iff hvalid hsteady (hwritten ▸ hsize)
  rw [hinv'.ending_eq_error_iff]
  constructor
  · rintro ⟨attempt, hattempt, value, hvalue, hanswer⟩
    obtain ⟨hfault, hlapse⟩ := (hscan attempt hattempt value hvalue).1 hanswer
    exact ⟨hfault, attempt, hattempt, hlapse⟩
  · rintro ⟨hfault, attempt, hattempt, hlapse⟩
    obtain ⟨value, hvalue⟩ := Machine.exists_nextValue_of_mem_attempts hattempt
    exact ⟨attempt, hattempt, value, hvalue, (hscan attempt hattempt value hvalue).2 ⟨hfault, hlapse⟩⟩

/-! ### Checkers that leave the activations alone -/

/-- A turn leaves the activations alone if the checkers do. -/
theorem activations_of_onward {next : SearchState σ} (hinv : search.machine.StackInvariant state)
    (hkeeps : search.problem.KeepsActivations activations search.context)
    (hnext : search.machine.step state = .onward next) :
    activations next.memory = activations state.memory := by
  have hprobe : ∀ value, activations (search.machine.probe state value).memory =
      activations state.memory := by
    intro value
    show activations (search.problem.scan _ _ _ _).memory = _
    rw [Problem.scan, Problem.scanFrom_eq]
    exact hkeeps.memoryAfter _ _ _ _
  cases hinv.step_eq_onward_iff.1 hnext with
  | back _ _ _ => rfl
  | rejected value _ _ _ => exact hprobe value
  | accepted value _ _ _ => exact hprobe value

/-- The watched machine takes the turn of the other one, unless the library is lacking. -/
theorem step_watched (hinv : search.machine.StackInvariant state)
    (hkeeps : search.problem.KeepsActivations activations search.context)
    (hactive : build.lacks (activations state.memory) = false) :
    (search.watchedMachine fun memory => build.lacks (activations memory)).step state =
      search.machine.step state :=
  hinv.step_withTest fun _ _ => Problem.watchedScan_of_not_lapses (hkeeps.not_lapses hactive)

/-- So their runs are the same, and the activations are kept to the end. -/
theorem run_watched (hinv : search.machine.StackInvariant state)
    (hkeeps : search.problem.KeepsActivations activations search.context)
    (hactive : build.lacks (activations state.memory) = false) :
    (search.watchedMachine fun memory => build.lacks (activations memory)).run state =
        search.machine.run state ∧
      activations (search.machine.run state).state.memory = activations state.memory := by
  have hstep := step_watched hinv hkeeps hactive
  -- Along the run.  While the activations are what they were, a watched turn is a turn, and a turn
  -- leaves the activations alone.
  induction state using Machine.run.induct search.machine with
  | case1 state next hnext ih =>
      have hkept := activations_of_onward hinv hkeeps hnext
      have hactive' : build.lacks (activations next.memory) = false := hkept ▸ hactive
      have hinv' := hinv.step hnext
      obtain ⟨hrun, hend⟩ := ih hinv' hactive' (step_watched hinv' hkeeps hactive')
      rw [Machine.run_of_onward (hstep.trans hnext), Machine.run_of_onward hnext]
      exact ⟨hrun, hend.trans hkept⟩
  | case2 state status last hlast =>
      rw [Machine.run_of_ended (hstep.trans hlast), Machine.run_of_ended hlast]
      obtain ⟨candidates, rfl⟩ := (hinv.step_eq_ended_iff.1 hlast).exists_candidates
      exact ⟨rfl, rfl⟩
  | case3 state fault last hlast =>
      rw [Machine.run_of_broken (hstep.trans hlast), Machine.run_of_broken hlast]
      obtain ⟨value, -, -, -, rfl⟩ := hinv.broken_by_test hlast
      refine ⟨rfl, ?_⟩
      show activations (search.problem.scan _ _ _ _).memory = _
      rw [Problem.scan, Problem.scanFrom_eq]
      exact hkeeps.memoryAfter _ _ _ _

/-- And no scan of an attempt lapses. -/
theorem not_lapsesAt_of_keeps (hinv : search.machine.StackInvariant state)
    (hkeeps : search.problem.KeepsActivations activations search.context)
    (hactive : build.lacks (activations state.memory) = false) {attempt : SearchState σ}
    (hattempt : attempt ∈ (search.watchedMachine fun memory =>
      build.lacks (activations memory)).attempts state) :
    ¬search.LapsesAt (fun memory => build.lacks (activations memory)) attempt := by
  obtain ⟨j, hj⟩ := List.getElem?_of_mem hattempt
  obtain ⟨-, hactive'⟩ := Machine.attempt_induction
    (motive := fun _ later => search.machine.StackInvariant later ∧
      build.lacks (activations later.memory) = false)
    (by
      rintro _ later next ⟨hlater, hactive⟩ hnext
      rw [step_watched hlater hkeeps hactive] at hnext
      exact ⟨hlater.step hnext, activations_of_onward hlater hkeeps hnext ▸ hactive⟩)
    ⟨hinv, hactive⟩ hj
  exact hkeeps.not_lapses hactive'

theorem Ready.not_lacks
    (hready : search.Ready buffer build { activations := activations memory, log }) :
    build.lacks (activations memory) = false := by
  rw [Bool.eq_false_iff, ne_eq, Build.lacks_iff]
  rintro ⟨hchecked, hnone⟩
  have hsome : 0 < activations memory := of_decide_eq_true (hready.active hchecked)
  exact Nat.ne_of_gt hsome hnone

/-- With checkers that leave the activations alone, to watch a search makes no difference. -/
theorem performWatched_eq_perform
    (hkeeps : search.problem.KeepsActivations activations search.context) (buffer : Array Nat)
    (memory : σ) (build : Build) (log : Array Message) :
    search.performWatched activations buffer memory build log =
      search.perform buffer memory build { activations := activations memory, log } := by
  let library : Library := { activations := activations memory, log }
  cases hfirst : search.firstObjection? build library buffer.size with
  | some fault => rw [performWatched_of_objection hfirst, perform_of_objection hfirst]
  | none =>
      have hready := ready_of_objection?_eq_none ((objection?_eq_first ..).trans hfirst)
      obtain ⟨hrun, hkept⟩ := run_watched (hready.stackInvariant memory log) hkeeps
        hready.not_lacks
      rw [performWatched_of_ready hready, hready.perform_eq, run]
      show search.report _ _ = _
      rw [hrun, hkept]
      rfl

/-! ## Faults, exactly -/

/-- A scan lapses in the checked build only. -/
theorem LapsesAt.checked {attempt : SearchState σ}
    (h : search.LapsesAt (fun memory => build.lacks (activations memory)) attempt) :
    build = .checked := by
  obtain hbarred | ⟨slot, -, hbarred⟩ := h
  · exact (Build.lacks_iff.1 hbarred).1
  · exact (Build.lacks_iff.1 hbarred).1

/-- Once a watched search has begun, only the test of an attempt can break it off. -/
theorem Ready.outcome_performWatched_eq_error_iff
    (hready : search.Ready buffer build { activations := activations memory, log })
    (hsteady : search.problem.SteadyWhile (fun memory => build.lacks (activations memory))
      search.context) {fault : Fault} :
    (search.performWatched activations buffer memory build log).outcome = .error fault ↔
      fault = .inactive ∧
        ∃ attempt ∈ (search.watchedMachine fun memory =>
            build.lacks (activations memory)).attempts (search.initial buffer memory log),
          search.LapsesAt (fun memory => build.lacks (activations memory)) attempt := by
  rw [performWatched_of_ready hready, outcome_report_eq_error_iff]
  exact ending_watched_eq_error_iff (hready.stackInvariant memory log) hready.problem hsteady

/-- A watched search ends in its first objection, or in the question that a scan lapses at. -/
theorem outcome_performWatched_eq_error_iff
    (hsteady : search.problem.flaw? = none →
      search.problem.SteadyWhile (fun memory => build.lacks (activations memory)) search.context)
    {fault : Fault} :
    (search.performWatched activations buffer memory build log).outcome = .error fault ↔
      search.firstObjection? build { activations := activations memory, log } buffer.size =
          some fault ∨
        search.firstObjection? build { activations := activations memory, log } buffer.size =
            none ∧
          (∃ attempt ∈ (search.watchedMachine fun memory =>
              build.lacks (activations memory)).attempts (search.initial buffer memory log),
            search.LapsesAt (fun memory => build.lacks (activations memory)) attempt) ∧
          fault = .inactive := by
  cases hfirst : search.firstObjection? build { activations := activations memory, log }
      buffer.size with
  | some other =>
      rw [performWatched_of_objection hfirst]
      constructor
      · exact fun h => .inl (congrArg some (Except.error.inj h))
      · rintro (h | ⟨h, -⟩)
        · exact congrArg Except.error (Option.some.inj h)
        · cases h
  | none =>
      have hready := ready_of_objection?_eq_none ((objection?_eq_first ..).trans hfirst)
      rw [hready.outcome_performWatched_eq_error_iff (hsteady hready.problem)]
      constructor
      · rintro ⟨hfault, hlapse⟩
        exact .inr ⟨rfl, hlapse, hfault⟩
      · rintro (h | ⟨-, hlapse, hfault⟩)
        · cases h
        · exact ⟨hfault, hlapse⟩

theorem solveWatched_eq_error_iff {fault : Fault} :
    search.solveWatched activations buffer memory build log = .error fault ↔
      (search.performWatched activations buffer memory build log).outcome = .error fault := by
  rw [solveWatched]
  cases (search.performWatched activations buffer memory build log).outcome with
  | ok result => exact ⟨nofun, nofun⟩
  | error other =>
      show Except.error other = .error fault ↔ Except.error other = .error fault
      rw [Except.error.injEq, Except.error.injEq]

/-- No turn of a watched search leaves the words, if what it counts in all does not. -/
theorem Ready.stepInWords_watched (hready : search.Ready buffer build
      { activations := activations memory, log })
    (hwords : InWords search.problem.domains)
    (hnodes : ((search.watchedMachine barred).run
      (search.initial buffer memory log)).state.nodes < wordCount)
    (hchecks : ((search.watchedMachine barred).run
      (search.initial buffer memory log)).state.checks < wordCount)
    (hreaches : (search.watchedMachine barred).Reaches (search.initial buffer memory log) state) :
    (search.watchedMachine barred).stepInWords build state =
      .ok ((search.watchedMachine barred).step state) := by
  have hinv : (search.watchedMachine barred).StackInvariant (search.initial buffer memory log) :=
    (hready.stackInvariant memory log).withTest _
  have hbound : (search.initial buffer memory log).backtracks +
      ((search.initial buffer memory log).frontier - (search.watchedMachine barred).start) ≤
        (search.initial buffer memory log).nodes := by
    show 0 + (search.start - search.start) ≤ 0
    omega
  have hbacktracks := Nat.lt_of_le_of_lt (hinv.backtracks_run_le hbound) hnodes
  exact hinv.stepInWords_of_reaches hwords hnodes hchecks hbacktracks build hreaches

/-- **The faults of a watched search.**  Let no checker give up that is asked while the library is
active, or in a build that does not ask for this; the checkers may activate and deactivate it.  There
are two cases in which the search ends in a fault.

* One of the five things can be objected to it.  It ends in the first that can, no checker was called,
  and everything is as it was.
* Nothing can be objected, but the scan of an attempt lapses.  The search breaks off there and reports
  the inactive library.  This takes the checked build, and a checker that changes the number of
  activations.

In all other cases it has a result.  Whether a search finds an assignment is answered, or not, in the
same cases.  Every turn of a search that has begun is a turn in words, if the tried values and the calls
are fewer than there are words.

The checkers of a session do not reach the library, so a session knows the first case only. -/
theorem performWatched_fault_iff (search : Search σ κ) (activations : σ → Nat) (build : Build)
    (hsteady : search.problem.flaw? = none →
      search.problem.SteadyWhile (fun memory => build.lacks (activations memory)) search.context)
    (buffer : Array Nat) (memory : σ) (log : Array Message) :
    let library : Library := { activations := activations memory, log }
    let report := search.performWatched activations buffer memory build log
    let first := search.firstObjection? build library buffer.size
    let machine := search.watchedMachine fun memory => build.lacks (activations memory)
    let initial := search.initial buffer memory log
    let lapses := ∃ attempt ∈ machine.attempts initial,
      search.LapsesAt (fun memory => build.lacks (activations memory)) attempt
    (∀ fault, report.outcome = .error fault ↔
      first = some fault ∨ first = none ∧ lapses ∧ fault = .inactive) ∧
    (∀ fault, search.solveWatched activations buffer memory build log = .error fault ↔
      report.outcome = .error fault) ∧
    (∀ fault, first = some fault →
      report = { outcome := .error fault, buffer, memory, library } ∧
        (search.recording.performWatched (fun memory => activations memory.own) buffer
          { own := memory } build log).memory.calls = []) ∧
    (first = none → ¬lapses → ∃ result, report.outcome = .ok result) ∧
    (first = none → InWords search.problem.domains →
      (machine.run initial).state.nodes < wordCount →
        (machine.run initial).state.checks < wordCount →
          machine.stackRoomInWords build =
              .ok (search.problem.domains.size - search.start + 1) ∧
            ∀ state, machine.Reaches initial state →
              machine.stepInWords build state = .ok (machine.step state)) ∧
    (first = none → lapses → build = .checked ∧
      ¬search.problem.KeepsActivations activations search.context) ∧
    ∀ (τ : Type) (session : Session τ κ) (p : Nat) (posed : PosedProblem τ κ)
      (order : SearchOrder κ) (operation : Operation τ κ),
      session.problems[p]? = some posed →
      (operation = .search p order ∨ operation = .solve p order) →
      (posed.problem.flaw? = none → posed.problem.Steady order.context) →
        let first := (order.search posed.problem).firstObjection? build session.library
          session.buffer.size
        let after := (session.step build operation).2
        (∀ fault, (session.step build operation).1 = .error (.failed (.fault fault)) ↔
          first = some fault) ∧
        (∀ fault, first = some fault →
          after.buffer = session.buffer ∧ after.memory.own = session.memory.own ∧
            after.memory.callCount = 0 ∧ after.library.activations = session.library.activations) ∧
        (first = none → ∃ answer, (session.step build operation).1 = .ok answer) ∧
        after.problems = session.problems ∧ after.constraints = session.constraints := by
  intro library report first machine initial lapses
  have hbegun : first = none → search.Ready buffer build library := fun hfirst =>
    ready_of_objection?_eq_none ((objection?_eq_first ..).trans hfirst)
  refine ⟨?_, ?_, ?_, ?_, ?_, ?_, ?_⟩
  · intro fault
    exact outcome_performWatched_eq_error_iff hsteady
  · intro fault
    exact solveWatched_eq_error_iff
  · intro fault hfirst
    have hrecording : search.recording.firstObjection? build library buffer.size = some fault :=
      (search.firstObjection?_recording build library buffer.size).trans hfirst
    refine ⟨performWatched_of_objection hfirst, ?_⟩
    rw [performWatched_of_objection hrecording]
  · intro hfirst hkept
    have hready := hbegun hfirst
    cases houtcome : report.outcome with
    | ok result => exact ⟨result, rfl⟩
    | error fault =>
        obtain ⟨-, hlapse⟩ :=
          (hready.outcome_performWatched_eq_error_iff (hsteady hready.problem)).1 houtcome
        exact absurd hlapse hkept
  · intro hfirst hwords hnodes hchecks
    have hready := hbegun hfirst
    exact ⟨Machine.stackRoomInWords_eq hready.start_le hwords build, fun state hreaches =>
      hready.stepInWords_watched hwords hnodes hchecks hreaches⟩
  · rintro hfirst ⟨attempt, hattempt, hlapse⟩
    refine ⟨hlapse.checked, fun hkeeps => ?_⟩
    have hready := hbegun hfirst
    exact not_lapsesAt_of_keeps (hready.stackInvariant memory log) hkeeps hready.not_lacks hattempt
      hlapse
  · intro τ session p posed order operation hposed hoperation hsteady'
    exact Session.step_search_faults hposed hoperation hsteady'

/-- A search over two variables whose only checker ends an activation and accepts.  Its memory is the
number of activations. -/
def deserted : Search Nat Unit where
  problem :=
    { domains := #[1, 1]
      slots := #[some
        { scope := [0]
          checker :=
            { identity := 0
              check := fun _ _ _ activations => .ok true (activations - 1) } }] }
  context := ()

theorem deserted_steadyWhile (barred : Nat → Bool) :
    deserted.problem.SteadyWhile barred () := by
  intro constraint hattached assignment memory _ _
  simp only [Problem.Attached, deserted, List.mem_toArray, List.mem_singleton,
    Option.some.injEq] at hattached
  subst hattached
  exact ⟨_, _, rfl⟩

/-- Nothing can be objected to the search, no checker gives up, and yet it ends in a fault of the
checked build, with its buffer written and its checker called: the second scan finds the library
inactive.  So it is not so that only the five objections bring about a fault. -/
theorem deserted_breaks_off :
    let library : Library := { activations := 1 }
    let report := deserted.performWatched id #[5, 5] 1 .checked #[]
    deserted.problem.Steady () ∧
      deserted.firstObjection? .checked library 2 = none ∧
      report.outcome = .error .inactive ∧ report.buffer = #[0, 0] ∧ report.memory = 0 ∧
      ¬∀ fault, report.outcome = .error fault ↔
        deserted.firstObjection? .checked library 2 = some fault := by
  intro library report
  have hnone : deserted.firstObjection? .checked library 2 = none := by decide +kernel
  have houtcome : report.outcome = .error .inactive := by decide +kernel
  refine ⟨?_, hnone, houtcome, by decide +kernel, by decide +kernel, fun h => ?_⟩
  · intro constraint hattached assignment memory hsize
    exact deserted_steadyWhile (fun _ => false) constraint hattached assignment memory hsize rfl
  · cases hnone.symm.trans ((h .inactive).1 houtcome)

/-- In the checked build the scan of an attempt lapses.  In the build that does not ask, the same
search has a result, or it ends in the first objection. -/
theorem performWatched_fault_iff_deserted :
    (∃ attempt ∈ (deserted.watchedMachine fun memory => Build.checked.lacks (id memory)).attempts
        (deserted.initial #[5, 5] 1 #[]),
      deserted.LapsesAt (fun memory => Build.checked.lacks (id memory)) attempt) ∧
    (∃ result, (deserted.performWatched id #[5, 5] 1 .unchecked #[]).outcome = .ok result) ∧
    (deserted.performWatched id #[5] 0 .unchecked #[]).outcome =
      .error (.wrongLength .assignment 1 2) ∧
    deserted.solveWatched id #[5] 0 .unchecked #[] = .error (.wrongLength .assignment 1 2) := by
  refine ⟨?_, ?_, ?_⟩
  · obtain ⟨hfault, -⟩ := performWatched_fault_iff deserted id .checked
      (fun _ => deserted_steadyWhile _) #[5, 5] 1 #[]
    have hnone : deserted.firstObjection? .checked { activations := 1 } 2 = none := by
      decide +kernel
    have houtcome :
        (deserted.performWatched id #[5, 5] 1 .checked #[]).outcome = .error .inactive := by
      decide +kernel
    obtain hfirst | ⟨-, hlapse, -⟩ := (hfault .inactive).1 houtcome
    · cases hnone.symm.trans hfirst
    · exact hlapse
  · obtain ⟨-, -, -, hresult, -, hlapse, -⟩ := performWatched_fault_iff deserted id .unchecked
      (fun _ => deserted_steadyWhile _) #[5, 5] 1 #[]
    have hnone : deserted.firstObjection? .unchecked { activations := 1 } 2 = none := by
      decide +kernel
    exact hresult hnone fun h => nomatch (hlapse hnone h).1
  · obtain ⟨hfault, hsolve, -⟩ := performWatched_fault_iff deserted id .unchecked
      (fun _ => deserted_steadyWhile _) #[5] 0 #[]
    have houtcome := (hfault (.wrongLength .assignment 1 2)).2 (.inl (by decide +kernel))
    exact ⟨houtcome, (hsolve _).2 houtcome⟩

end Search

end ConstraintSearch
