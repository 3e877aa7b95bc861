import ConstraintSearch.Proofs.Problem.Scan
import ConstraintSearch.Proofs.Search.Branch
import ConstraintSearch.Proofs.Search.Turn
import Mathlib.Algebra.GroupWithZero.Nat

/-!
# What a run counts

Every tried value is rejected, or it is one that the search steps back from later, or it belongs to
a variable that is still bound.  So the tried values of a run are the rejected ones, the steps back
and the variables bound at its end (`perform_accounts`).  The last step from the first variable is
not a step back: it ends the search.

The other counters are bounded along the way: each scan makes at most one call for each slot, and a
scan that rejects makes at least one.  The checks count the calls that noting checkers note, and the
steps back are the messages that tell of them.

## The balances

`Accounts` is the invariant, between two turns, over the attempts of the past:

| turn | tried | rejected | steps back | bound |
|---|---|---|---|---|
| step back | | | +1 | -1 |
| rejected value | +1 | +1 | | |
| accepted value | +1 | | | +1 |

So "tried = rejected + steps back + bound" is preserved by each of the three.  Checks and depth are
bounded by the same turns.
-/

namespace ConstraintSearch

variable {σ κ : Type}

/-! ## Messages -/

/-- The message tells, as a detail, that the search went back to a variable. -/
def Message.tellsStepBack (message : Message) : Bool :=
  message.level = .trace && "backtrack to variable ".toList.isPrefixOf message.text.toList

@[simp]
theorem Message.tellsStepBack_steppedBack (index : Nat) :
    (Message.steppedBack index).tellsStepBack = true := by
  have htext : (Message.steppedBack index).text.toList =
      "backtrack to variable ".toList ++ (toString index).toList := String.toList_append
  rw [tellsStepBack, htext, List.isPrefixOf_iff_prefix.2 (List.prefix_append _ _)]
  rfl

@[simp]
theorem Message.tellsStepBack_searchStarted (domains slots start : Nat) :
    (Message.searchStarted domains slots start).tellsStepBack = false := rfl

@[simp]
theorem Message.tellsStepBack_searchFinished (status : Status) (stats : Stats) :
    (Message.searchFinished status stats).tellsStepBack = false := rfl

namespace Machine

variable {machine : Machine σ} {state last : SearchState σ} {past : List (SearchState σ)}
  {value most : Nat} {status : Status}

/-! ## The balance -/

/-- Whether the test rejects the value that an attempt tries. -/
def rejects (machine : Machine σ) (attempt : SearchState σ) : Bool :=
  match (machine.probe attempt (machine.written attempt).2).answer with
  | .ok false => true
  | _ => false

theorem rejects_of_answer {accepted : Bool} (hvalue : machine.nextValue? state = some value)
    (hanswer : (machine.probe state value).answer = .ok accepted) :
    machine.rejects state = !accepted := by
  simp only [rejects, written, hvalue, Option.getD_some, hanswer]
  cases accepted <;> rfl

/-- The calls that the test makes in an attempt. -/
def callsAt (machine : Machine σ) (attempt : SearchState σ) : Nat :=
  (machine.probe attempt (machine.written attempt).2).calls

/-- The checks are the calls of all attempts. -/
theorem StackInvariant.checks_run (hinv : StackInvariant machine state)
    (hending : (machine.run state).ending = .ok status) :
    (machine.run state).state.checks =
      state.checks + ((machine.attempts state).map machine.callsAt).sum := by
  -- Whether a tried value is rejected or accepted, its calls are added to the counter; a step back
  -- leaves the counter and the attempts as they are.
  have htried : ∀ {past later value}, machine.nextValue? later = some value →
      later.checks = state.checks + (past.map machine.callsAt).sum →
      (machine.tested later value).checks =
        state.checks + ((past ++ [later]).map machine.callsAt).sum := by
    intro past later value hvalue hchecks
    calc (machine.tested later value).checks
        = later.checks + (machine.probe later value).calls := rfl
      _ = state.checks + ((past ++ [later]).map machine.callsAt).sum := by
          simp [hchecks, callsAt, written, hvalue, Nat.add_assoc]
  obtain ⟨last, -, hchecks, hlast⟩ :=
    run_induction (motive := fun past later =>
        later.checks = state.checks + (past.map machine.callsAt).sum)
      (fun _ _ _ _ _ _ h => h) (fun _ _ _ _ hvalue _ _ h => htried hvalue h)
      (fun _ _ _ _ hvalue _ _ h => htried hvalue h) hinv rfl hending
  obtain ⟨candidates, heq⟩ := hlast.exists_candidates
  rw [heq]
  exact hchecks

/-- The test makes at most so many calls, and at least one to reject. -/
structure CallsAtMost (machine : Machine σ) (most : Nat) : Prop where
  le : ∀ assignment frontier memory, (machine.test assignment frontier memory).calls ≤ most
  pos : ∀ assignment frontier memory,
    (machine.test assignment frontier memory).answer = .ok false →
      0 < (machine.test assignment frontier memory).calls

/-- What the counters say after some attempts. -/
structure Accounts (machine : Machine σ) (most : Nat) (past : List (SearchState σ))
    (state : SearchState σ) : Prop where
  nodes : state.nodes = past.length
  balance : state.nodes =
    past.countP machine.rejects + state.backtracks + (state.frontier - machine.start)
  rejected_le : past.countP machine.rejects ≤ state.checks
  checks_le : state.checks ≤ state.nodes * most
  frontier_le : state.frontier ≤ state.maxDepth
  maxDepth_le : state.maxDepth ≤ machine.domains.size
  maxDepth_le_nodes : state.maxDepth ≤ machine.start + state.nodes
  maxDepth_lt : state.frontier < machine.domains.size → state.maxDepth < machine.domains.size

private theorem Accounts.back (h : Accounts machine most past state)
    (hstart : machine.start < state.frontier) (hlt : state.frontier < machine.domains.size) :
    Accounts machine most past state.steppedBack where
  nodes := h.nodes
  balance := by
    have hbalance := h.balance
    simp only [SearchState.steppedBack]
    omega
  rejected_le := h.rejected_le
  checks_le := h.checks_le
  frontier_le := Nat.le_trans (Nat.sub_le _ _) h.frontier_le
  maxDepth_le := h.maxDepth_le
  maxDepth_le_nodes := h.maxDepth_le_nodes
  maxDepth_lt := fun _ => h.maxDepth_lt hlt

/-- A tried value adds the calls of one test. -/
private theorem Accounts.tested_checks_le (h : Accounts machine most past state)
    (hcalls : machine.CallsAtMost most) (value : Nat) :
    (machine.tested state value).checks ≤ (state.nodes + 1) * most := by
  have hle : (machine.probe state value).calls ≤ most := hcalls.le _ _ _
  calc (machine.tested state value).checks
      = state.checks + (machine.probe state value).calls := rfl
    _ ≤ state.nodes * most + most := Nat.add_le_add h.checks_le hle
    _ = (state.nodes + 1) * most := (Nat.succ_mul _ _).symm

private theorem Accounts.rejected (h : Accounts machine most past state)
    (hcalls : machine.CallsAtMost most) (hvalue : machine.nextValue? state = some value)
    (hanswer : (machine.probe state value).answer = .ok false) :
    Accounts machine most (past ++ [state]) (machine.tested state value) := by
  have hcount : (past ++ [state]).countP machine.rejects = past.countP machine.rejects + 1 := by
    simp [rejects_of_answer hvalue hanswer]
  have hbalance := h.balance
  refine ⟨?_, ?_, ?_, h.tested_checks_le hcalls value, h.frontier_le, h.maxDepth_le, ?_,
    h.maxDepth_lt⟩
  · rw [List.length_append, ← h.nodes]
    rfl
  · simp only [tested, assign, hcount]
    omega
  · rw [hcount]
    exact Nat.add_le_add h.rejected_le (hcalls.pos _ _ _ hanswer)
  · exact Nat.le_succ_of_le h.maxDepth_le_nodes

private theorem Accounts.accepted (h : Accounts machine most past state)
    (hcalls : machine.CallsAtMost most) (hinv : StackInvariant machine state)
    (hvalue : machine.nextValue? state = some value)
    (hanswer : (machine.probe state value).answer = .ok true) :
    Accounts machine most (past ++ [state]) (machine.descended state value) := by
  -- The attempt is not among the rejected ones; the variable that it binds makes up for it in the
  -- balance.
  have hcount : (past ++ [state]).countP machine.rejects = past.countP machine.rejects := by
    simp [rejects_of_answer hvalue hanswer]
  have hbalance := h.balance
  have hstart := hinv.start_le
  obtain ⟨-, size, hsize, -⟩ := nextValue?_eq_some hvalue
  have hlt : state.frontier < machine.domains.size := (Array.getElem?_eq_some_iff.1 hsize).1
  have hshallow := h.maxDepth_lt hlt
  have hdepth := h.maxDepth_le_nodes
  have hreached := h.frontier_le
  refine ⟨?_, ?_, ?_, h.tested_checks_le hcalls value, ?_, ?_, ?_, ?_⟩
  · rw [List.length_append, ← h.nodes]
    rfl
  · simp only [descended, tested, assign, hcount]
    omega
  · rw [hcount]
    exact Nat.le_trans h.rejected_le (Nat.le_add_right _ _)
  · simp only [descended]
    omega
  · simp only [descended]
    omega
  · simp only [descended, tested, assign]
    omega
  · simp only [descended]
    omega

/-- The counters of a run that is not broken off, as they are before its last turn. -/
theorem Accounts.run (h : Accounts machine most [] state) (hcalls : machine.CallsAtMost most)
    (hinv : StackInvariant machine state) (hending : (machine.run state).ending = .ok status) :
    ∃ last, StackInvariant machine last ∧ Accounts machine most (machine.attempts state) last ∧
      Ending machine last status (machine.run state).state := by
  refine StackInvariant.run_induction ?_ ?_ ?_ hinv h hending
  · intro _ _ _ hstart hlt _ haccounts
    exact haccounts.back hstart hlt
  · intro _ _ _ _ hvalue _ hanswer haccounts
    exact haccounts.rejected hcalls hvalue hanswer
  · intro _ _ _ hinv hvalue _ hanswer haccounts
    exact haccounts.accepted hcalls hinv hvalue hanswer

/-- The last turn changes no counter. -/
theorem Ending.accounts (hlast : Ending machine state status last)
    (h : Accounts machine most past state) : Accounts machine most past last := by
  obtain ⟨candidates, rfl⟩ := hlast.exists_candidates
  exact ⟨h.nodes, h.balance, h.rejected_le, h.checks_le, h.frontier_le, h.maxDepth_le,
    h.maxDepth_le_nodes, h.maxDepth_lt⟩

/-! ## The messages -/

/-- The messages of a run tell of its steps back, one by one. -/
def Tells (start : List Message) (state : SearchState σ) : Prop :=
  ∃ indices : List Nat, state.log.toList = start ++ indices.map .steppedBack ∧
    indices.length = state.backtracks

private theorem Tells.back {start : List Message} (h : Tells start state) :
    Tells start state.steppedBack := by
  obtain ⟨indices, hlog, hlength⟩ := h
  refine ⟨indices ++ [state.frontier - 1], ?_, ?_⟩
  · simp [SearchState.steppedBack, hlog]
  · simp [SearchState.steppedBack, hlength]

theorem Tells.run {start : List Message} (h : Tells start state)
    (hinv : StackInvariant machine state) (hending : (machine.run state).ending = .ok status) :
    Tells start (machine.run state).state := by
  obtain ⟨last, -, htells, hlast⟩ := StackInvariant.run_induction
    (motive := fun _ later => Tells start later) (fun _ _ _ _ _ _ htells => htells.back)
    (fun _ _ _ _ _ _ _ htells => htells) (fun _ _ _ _ _ _ _ htells => htells) hinv h hending
  obtain ⟨candidates, hfinal⟩ := hlast.exists_candidates
  rw [hfinal]
  exact htells

/-! ## The calls -/

/-- The test notes as many calls as it counts. -/
def NotesCalls (machine : Machine (Recorded σ)) : Prop :=
  ∀ assignment frontier memory,
    (machine.test assignment frontier memory).memory.calls.length =
      memory.calls.length + (machine.test assignment frontier memory).calls

/-- The calls of a run are as many as its checks. -/
theorem NotesCalls.run {machine : Machine (Recorded σ)} {state : SearchState (Recorded σ)}
    (hnotes : machine.NotesCalls) (h : state.memory.calls.length = state.checks)
    (hinv : StackInvariant machine state) (hending : (machine.run state).ending = .ok status) :
    (machine.run state).state.memory.calls.length = (machine.run state).state.checks := by
  have htested : ∀ (state : SearchState (Recorded σ)) (value : Nat),
      state.memory.calls.length = state.checks →
      (machine.probe state value).memory.calls.length =
        state.checks + (machine.probe state value).calls := by
    intro state value h
    rw [probe, hnotes, h]
  obtain ⟨last, -, hcalls, hlast⟩ := StackInvariant.run_induction
    (motive := fun _ (later : SearchState (Recorded σ)) =>
      later.memory.calls.length = later.checks)
    (fun _ _ _ _ _ _ hcalls => hcalls) (fun _ state value _ _ _ _ => htested state value)
    (fun _ state value _ _ _ _ => htested state value) hinv h hending
  obtain ⟨candidates, hfinal⟩ := hlast.exists_candidates
  rw [hfinal]
  exact hcalls

end Machine

namespace Search

variable {search : Search σ κ} {buffer : Array Nat} {memory : σ} {build : Build}
  {library : Library} {result : Result}

theorem notesCalls_recording (search : Search σ κ) : search.recording.machine.NotesCalls := by
  intro assignment frontier memory
  have hscan : search.recording.machine.test assignment frontier memory = _ :=
    Problem.scanFrom_recording 0 memory
  rw [hscan, Problem.scanFrom_eq]
  simp only [Problem.callsBelow, Problem.asked, List.length_append, List.length_map, Nat.zero_add]

theorem callsAtMost (search : Search σ κ) :
    search.machine.CallsAtMost search.problem.slots.size where
  le assignment frontier memory :=
    search.problem.calls_scan_le assignment search.context frontier memory
  pos _ _ _ hanswer := Problem.calls_scan_pos hanswer

theorem Ready.accounts_initial (hready : search.Ready buffer build library) (memory : σ)
    (log : Array Message) :
    search.machine.Accounts search.problem.slots.size [] (search.initial buffer memory log) where
  nodes := rfl
  balance := by simp [initial, machine]
  rejected_le := Nat.zero_le _
  checks_le := Nat.zero_le _
  frontier_le := Nat.le_refl _
  maxDepth_le := hready.start_le
  maxDepth_le_nodes := Nat.le_refl _
  maxDepth_lt := id

/-- The counters of a search that has a result, and the turn that ended it. -/
theorem Ready.accounts_of_outcome (hready : search.Ready buffer build library)
    (hresult : (search.perform buffer memory build library).outcome = .ok result) :
    ∃ before, search.machine.StackInvariant before ∧
      search.machine.Accounts search.problem.slots.size (search.attempts buffer memory library.log)
        (search.run buffer memory library.log).state ∧
      search.machine.Ending before result.status (search.run buffer memory library.log).state := by
  obtain ⟨hending, -⟩ := hready.ending_of_outcome hresult
  obtain ⟨before, hinv, hbefore, hlast⟩ := (hready.accounts_initial memory library.log).run
    search.callsAtMost (hready.stackInvariant memory library.log) hending
  exact ⟨before, hinv, hlast.accounts hbefore, hlast⟩

/-- The search has been behind all variables just if it is solved. -/
theorem Ready.maxDepth_eq_iff (hready : search.Ready buffer build library)
    (hresult : (search.perform buffer memory build library).outcome = .ok result) :
    result.stats.maxDepth = search.problem.domains.size ↔ result.status = .solved := by
  obtain ⟨before, -, haccounts, hlast⟩ := hready.accounts_of_outcome hresult
  obtain ⟨-, hsolved, -, hless⟩ := frontier_of_ending hlast
  rw [(hready.ending_of_outcome hresult).2]
  constructor
  · intro hdepth
    refine Decidable.byContradiction fun hne => ?_
    exact Nat.ne_of_lt (haccounts.maxDepth_lt (hless hne)) hdepth
  · intro hstatus
    exact Nat.le_antisymm haccounts.maxDepth_le
      (Nat.le_trans (Nat.le_of_eq (hsolved hstatus).symm) haccounts.frontier_le)

theorem Ready.calls_of_outcome (hready : search.Ready buffer build library)
    (hresult : (search.perform buffer memory build library).outcome = .ok result) :
    (search.recording.perform buffer { own := memory } build library).memory.calls.length =
      result.stats.checks := by
  have hsame := search.perform_recording buffer memory build library
  have hnoting : (search.recording.perform buffer { own := memory } build library).outcome =
      .ok result := (congrArg Report.outcome hsame).trans hresult
  obtain ⟨hending, hstats⟩ := hready.recording.ending_of_outcome hnoting
  rw [hready.recording.perform_eq, memory_report, hstats]
  exact search.notesCalls_recording.run rfl
    (hready.recording.stackInvariant { own := memory } library.log) hending

theorem Ready.messages_of_outcome (hready : search.Ready buffer build library)
    (hresult : (search.perform buffer memory build library).outcome = .ok result) :
    ∃ new, (search.perform buffer memory build library).library.log.toList =
        library.log.toList ++ new ∧
      new.countP Message.tellsStepBack = result.stats.backtracks := by
  obtain ⟨hending, hstats⟩ := hready.ending_of_outcome hresult
  have htells : Machine.Tells (search.initial buffer memory library.log).log.toList
      (search.initial buffer memory library.log) := ⟨[], by simp, rfl⟩
  obtain ⟨indices, hlog, hlength⟩ :=
    htells.run (hready.stackInvariant memory library.log) hending
  have hlog' : (search.run buffer memory library.log).state.log.toList =
      library.log.toList ++
        .searchStarted search.problem.domains.size search.problem.slots.size search.start ::
          indices.map .steppedBack := by
    rw [run, hlog]
    simp [initial]
  have hall : (indices.map Message.steppedBack).countP Message.tellsStepBack = indices.length := by
    rw [List.countP_map, List.countP_eq_length]
    exact fun index _ => Message.tellsStepBack_steppedBack index
  refine ⟨.searchStarted search.problem.domains.size search.problem.slots.size search.start ::
    indices.map .steppedBack ++ [.searchFinished result.status result.stats], ?_, ?_⟩
  · rw [hready.perform_eq]
    simp only [report, hending, ← hstats, Array.toList_push, hlog', List.append_assoc]
  · rw [hstats]
    simp [hall, hlength, run, SearchState.stats]

/-- **The accounts of a run.**  Whatever the checkers do, whatever the limits are and whatever stops
the search, if it has a result then its counters are in balance.  Let the last frontier be the one
that the run leaves: behind all variables if the search is solved, at the first one if it is
exhausted, and otherwise behind those that are bound when it stops.  The tried values are the
rejected ones, the steps back, and the variables from the start up to the last frontier.  The checks
are the calls that noting checkers note; there are at least as many as rejected values, and at most
as many as slots for each tried value.  The greatest depth lies between the start and the number of
variables, it is the latter just if the search is solved, and every step down to it took a tried
value.  And the messages tell of as many steps back as are counted. -/
theorem perform_accounts (search : Search σ κ) (buffer : Array Nat) (memory : σ) (build : Build)
    (library : Library) (result : Result)
    (hresult : (search.perform buffer memory build library).outcome = .ok result) :
    let count := search.problem.domains.size
    let report := search.perform buffer memory build library
    let noting := search.recording.perform buffer { own := memory } build library
    let attempts := search.attempts buffer memory library.log
    let rejected := attempts.countP search.machine.rejects
    let last := (search.run buffer memory library.log).state
    let { nodes, checks, backtracks, maxDepth, .. } := result.stats
    (nodes = attempts.length ∧ search.start ≤ last.frontier ∧
        (result.status = .solved → last.frontier = count) ∧
        (result.status = .exhausted → last.frontier = search.start) ∧
        nodes = rejected + backtracks + (last.frontier - search.start)) ∧
      (noting.map Recorded.own = report ∧ noting.memory.calls.length = checks ∧
        rejected ≤ checks ∧ checks ≤ nodes * search.problem.slots.size) ∧
      (search.start ≤ maxDepth ∧ maxDepth ≤ count ∧ maxDepth - search.start ≤ nodes ∧
        (maxDepth = count ↔ result.status = .solved)) ∧
      ∃ new, report.library.log.toList = library.log.toList ++ new ∧
        new.countP Message.tellsStepBack = backtracks := by
  intro count report noting attempts rejected last
  have hready := ready_of_outcome hresult
  obtain ⟨-, hstats⟩ := hready.ending_of_outcome hresult
  have hcalls := hready.calls_of_outcome hresult
  have hmessages := hready.messages_of_outcome hresult
  have hdepth := hready.maxDepth_eq_iff hresult
  -- The balances hold before the last turn, and this one changes the frontier of none of the
  -- endings.
  obtain ⟨before, hinv, haccounts, hlast⟩ := hready.accounts_of_outcome hresult
  obtain ⟨hsame, hsolved, hexhausted, -⟩ := frontier_of_ending hlast
  have hstart : search.start ≤ last.frontier := hsame ▸ hinv.start_le
  rw [hstats] at hcalls hmessages hdepth ⊢
  exact ⟨⟨haccounts.nodes, hstart, hsolved, hexhausted, haccounts.balance⟩,
    ⟨search.perform_recording buffer memory build library, hcalls, haccounts.rejected_le,
      haccounts.checks_le⟩,
    ⟨Nat.le_trans hstart haccounts.frontier_le, haccounts.maxDepth_le,
      Nat.sub_le_iff_le_add'.2 haccounts.maxDepth_le_nodes, hdepth⟩, hmessages⟩

/-- The fickle search, stopped before its fifth attempt: two values are rejected, one is stepped
back from, and one variable is bound. -/
theorem perform_accounts_fickle :
    let search := { fickle with config := { nodeLimit := some 4 } }
    (search.perform #[0, 7] 0 .unchecked {}).outcome = .ok ⟨.nodeLimit, ⟨4, 4, 1, 1, 0⟩⟩ ∧
      (search.attempts #[0, 7] 0 #[]).countP search.machine.rejects = 2 ∧
      (search.recording.perform #[0, 7] { own := 0 } .unchecked {}).memory.calls.length = 4 := by
  intro search
  have hresult : (search.perform #[0, 7] 0 .unchecked {}).outcome =
      .ok ⟨.nodeLimit, ⟨4, 4, 1, 1, 0⟩⟩ := outcome_of_toOption (by decide +kernel)
  have hfrontier : (search.run #[0, 7] 0 #[]).state.frontier = 1 := by decide +kernel
  obtain ⟨⟨-, -, -, -, hbalance⟩, ⟨-, hcalls, -⟩, -⟩ :=
    perform_accounts search #[0, 7] 0 .unchecked {} _ hresult
  refine ⟨hresult, ?_, hcalls⟩
  have hcount : 4 = (search.attempts #[0, 7] 0 #[]).countP search.machine.rejects + 1 + (1 - 0) :=
    hfrontier ▸ hbalance
  omega

end Search

end ConstraintSearch
