import ConstraintSearch.Proofs.Search.Ready
import Mathlib.Data.Nat.Find
import Mathlib.Order.Bounds.Defs

/-!
# Limits and cancellation

A limit only ever cuts a search short.  With a limit of `L` tried values a search is the search
without it if that tries at most `L` values, and otherwise it is the same up to the attempt before
which `L` values were tried, and stops there (`perform_of_nodeLimit`).

The cancellation flag is looked at only at multiples of the check interval.  If the flag is raised
while the `m`-th value is tested, the search is cut at the first multiple of the interval that is
at least `m`, unless it is over by then (`perform_of_flag`).

Both are instances of `run_interruptedBy_at`: the search without the limit or the flag has fewer
reasons to stop.

## Strategy

* An attempt of the unlimited search is numbered by the values tried before it, so "the attempt with
  number `n`" is an index in the list of attempts, and `run_interruptedBy_at` cuts the run there.
* For the node limit this index is the limit itself.
* For the flag it is the least multiple of the interval that is not below the raising of the flag.  A
  flag that stays set once it is set is raised at some attempt or at none (`FlagKept.raised`).
* What a cut run reports is read off the state before the attempt (`Ready.stoppedAt`).
-/

namespace ConstraintSearch

/-- The node limit, if there is one, allows so many tried values. -/
def Config.Allows (config : Config) (nodes : Nat) : Prop :=
  ∀ limit, config.nodeLimit = some limit → nodes ≤ limit

namespace Search

variable {σ κ : Type} {search : Search σ κ} {buffer : Array Nat} {memory : σ} {build : Build}
  {library : Library}

/-- The same search without limits and without a cancellation flag. -/
def uninterrupted (search : Search σ κ) : Search σ κ :=
  { search with config := {}, cancelled := fun _ _ => false }

/-- The same search without a limit on the number of tried values. -/
def withoutNodeLimit (search : Search σ κ) : Search σ κ :=
  { search with config := { search.config with nodeLimit := none } }

/-- The same search with another check interval. -/
def withCheckInterval (search : Search σ κ) (interval : Nat) : Search σ κ :=
  { search with config := { search.config with checkInterval := interval } }

/-- The same search without a cancellation flag. -/
def withoutFlag (search : Search σ κ) : Search σ κ :=
  { search with cancelled := fun _ _ => false }

/-- The search stopped with the status as it was about to make the attempt, and has left
everything as it was then. -/
structure StoppedAt (search : Search σ κ) (report : Report σ) (status : Status)
    (attempt : SearchState σ) : Prop where
  outcome : report.outcome =
    .ok { status, stats := attempt.stats (search.elapsed attempt.nodes) }
  buffer : report.buffer = attempt.buffer
  memory : report.memory = attempt.memory

/-- The flag is raised while the value of number `m` is tested, or before the search if `m` is 0,
and it is never lowered: up to then no attempt finds it set, and from then on every attempt does.
The flag itself has no part in this: the attempts are those of the search without it. -/
structure FlagRaised (search : Search σ κ) (buffer : Array Nat) (memory : σ)
    (log : Array Message) (m : Nat) : Prop where
  before : ∀ attempt ∈ search.withoutFlag.attempts buffer memory log, attempt.nodes < m →
    search.cancelled attempt.nodes attempt.memory = false
  after : ∀ attempt ∈ search.withoutFlag.attempts buffer memory log, m ≤ attempt.nodes →
    search.cancelled attempt.nodes attempt.memory = true

/-- The flag is never lowered: the attempts after one that finds it set find it set too. -/
def FlagKept (search : Search σ κ) (buffer : Array Nat) (memory : σ) (log : Array Message) :
    Prop :=
  ∀ attempt ∈ search.withoutFlag.attempts buffer memory log,
    ∀ later ∈ search.withoutFlag.attempts buffer memory log, attempt.nodes ≤ later.nodes →
      search.cancelled attempt.nodes attempt.memory = true →
      search.cancelled later.nodes later.memory = true

/-- A flag that is never lowered is raised at some time, or no attempt finds it set. -/
theorem FlagKept.raised {log : Array Message} (hkept : search.FlagKept buffer memory log) :
    (∃ m, search.FlagRaised buffer memory log m) ∨
      ∀ attempt ∈ search.withoutFlag.attempts buffer memory log,
        search.cancelled attempt.nodes attempt.memory = false := by
  classical
  -- Either no attempt ever finds the flag set, or there is a first number of tried values with
  -- which one does, and that is where it is raised.
  by_cases hset : ∃ m, ∃ attempt ∈ search.withoutFlag.attempts buffer memory log,
      attempt.nodes = m ∧ search.cancelled attempt.nodes attempt.memory = true
  · left
    obtain ⟨first, hfirst, hnodes, hraised⟩ := Nat.find_spec hset
    refine ⟨Nat.find hset, ?_, ?_⟩
    · intro attempt hattempt hlt
      have hearly := Nat.find_min hset hlt
      rw [← Bool.not_eq_true]
      intro hcancelled
      exact hearly ⟨attempt, hattempt, rfl, hcancelled⟩
    · intro attempt hattempt hle
      exact hkept first hfirst attempt hattempt (Nat.le_trans (Nat.le_of_eq hnodes) hle) hraised
  · right
    intro attempt hattempt
    rw [← Bool.not_eq_true]
    intro hcancelled
    exact hset ⟨attempt.nodes, attempt, hattempt, rfl, hcancelled⟩

/-! ## Reasons to stop -/

/-- With time to spare, the flag counts at multiples of the interval, and the node limit wins. -/
theorem interruption?_of_timeLimit_none (search : Search σ κ)
    (htime : search.config.timeLimit = none) (nodes : Nat) (memory : σ) :
    search.interruption? nodes memory =
      if search.config.nodeLimit.any (· ≤ nodes) then some .nodeLimit
      else if search.config.checkInterval ∣ nodes ∧ search.cancelled nodes memory then
        some .cancelled
      else none := by
  unfold interruption?
  by_cases hmod : nodes % search.config.checkInterval = 0
  · simp [htime, hmod, Nat.dvd_iff_mod_eq_zero]
  · simp [hmod, Nat.dvd_iff_mod_eq_zero]

@[simp]
theorem interruption?_uninterrupted (nodes : Nat) (memory : σ) :
    search.uninterrupted.interruption? nodes memory = none := by
  rw [interruption?_of_timeLimit_none search.uninterrupted rfl]
  simp [uninterrupted]

theorem Ready.uninterrupted (hready : search.Ready buffer build library) :
    search.uninterrupted.Ready buffer build library :=
  ⟨hready.active, rfl, hready.problem, hready.length, hready.start_le⟩

theorem Ready.withoutNodeLimit (hready : search.Ready buffer build library) :
    search.withoutNodeLimit.Ready buffer build library := by
  obtain ⟨hinterval, -, htime⟩ := (Config.flaw?_eq_none_iff _).1 hready.config
  exact ⟨hready.active, (Config.flaw?_eq_none_iff _).2 ⟨hinterval, by simp [Search.withoutNodeLimit],
    htime⟩, hready.problem, hready.length, hready.start_le⟩

theorem Ready.withCheckInterval (hready : search.Ready buffer build library) {interval : Nat}
    (hpos : 0 < interval) : (search.withCheckInterval interval).Ready buffer build library := by
  obtain ⟨-, hnode, htime⟩ := (Config.flaw?_eq_none_iff _).1 hready.config
  exact ⟨hready.active, (Config.flaw?_eq_none_iff _).2 ⟨hpos, hnode, htime⟩, hready.problem,
    hready.length, hready.start_le⟩

theorem Ready.withoutFlag (hready : search.Ready buffer build library) :
    search.withoutFlag.Ready buffer build library :=
  ⟨hready.active, hready.config, hready.problem, hready.length, hready.start_le⟩

/-! ## The node limit -/

/-- A flag that is never found set leaves only the node limit. -/
private theorem Ready.run_of_limit (hready : search.Ready buffer build library)
    (htime : search.config.timeLimit = none)
    (hflag : ∀ attempt ∈ search.uninterrupted.attempts buffer memory library.log,
      search.cancelled attempt.nodes attempt.memory = false) {limit : Nat}
    (hlimit : search.config.nodeLimit = some limit) :
    search.run buffer memory library.log =
      match (search.uninterrupted.attempts buffer memory library.log)[limit]? with
      | some attempt => ⟨.ok .nodeLimit, attempt⟩
      | none => search.uninterrupted.run buffer memory library.log := by
  have hinv := hready.uninterrupted.stackInvariant memory library.log
  refine hinv.run_interruptedBy_at search.interruption? ?_ ?_ ?_
  · intro nodes memory status hstatus
    cases (interruption?_uninterrupted nodes memory).symm.trans hstatus
  · intro attempt hattempt hlt
    have hnodes : ¬limit ≤ attempt.nodes :=
      Nat.not_le.2 (Nat.lt_of_lt_of_eq hlt (Nat.zero_add limit))
    rw [interruption?_of_timeLimit_none search htime, hflag attempt hattempt, hlimit]
    simp [hnodes]
  · intro attempt _ heq
    have hnodes : limit ≤ attempt.nodes := Nat.le_of_eq ((Nat.zero_add limit).symm.trans heq.symm)
    rw [interruption?_of_timeLimit_none search htime, hlimit]
    simp [hnodes]

/-- Without a node limit, a flag that is never found set leaves no reason to stop. -/
private theorem Ready.run_of_flag_unset (hready : search.Ready buffer build library)
    (htime : search.config.timeLimit = none) (hlimit : search.config.nodeLimit = none)
    (hflag : ∀ attempt ∈ search.uninterrupted.attempts buffer memory library.log,
      search.cancelled attempt.nodes attempt.memory = false) :
    search.run buffer memory library.log =
      search.uninterrupted.run buffer memory library.log := by
  have hinv := hready.uninterrupted.stackInvariant memory library.log
  refine hinv.run_interruptedBy_of_none search.interruption? ?_ ?_
  · intro nodes memory status hstatus
    cases (interruption?_uninterrupted nodes memory).symm.trans hstatus
  · intro attempt hattempt
    rw [interruption?_of_timeLimit_none search htime, hflag attempt hattempt, hlimit]
    simp

/-- What becomes of a search that is cut at the attempt at position `stop`. -/
private theorem Ready.stoppedAt (hready : search.Ready buffer build library) {status : Status}
    {attempt : SearchState σ}
    (hrun : search.run buffer memory library.log = ⟨.ok status, attempt⟩) :
    search.StoppedAt (search.perform buffer memory build library) status attempt := by
  rw [hready.perform_eq memory, hrun]
  exact ⟨rfl, rfl, rfl⟩

/-- **The node limit.**  Let no checker give up, let time not be limited, and let the flag be
absent or never found set.  A limit changes nothing for a search that tries no more values than
that; any other search stops with exactly as many tried values as the limit says, and leaves
everything as it was before the attempt that came next.  So the limit is never exceeded, and the
check interval has no part in it. -/
theorem perform_of_nodeLimit (search : Search σ κ) (buffer : Array Nat) (memory : σ)
    (build : Build) (library : Library) (limit : Nat)
    (hready : search.Ready buffer build library)
    (hlimit : search.config.nodeLimit = some limit) (htime : search.config.timeLimit = none)
    (hsteady : search.problem.Steady search.context)
    (hflag : ∀ attempt ∈ search.uninterrupted.attempts buffer memory library.log,
      search.cancelled attempt.nodes attempt.memory = false) :
    let limited := search.perform buffer memory build library
    let whole := search.withoutNodeLimit.perform buffer memory build library
    whole = search.uninterrupted.perform buffer memory build library ∧
    ∃ result, whole.outcome = .ok result ∧
      (result.stats.nodes ≤ limit → limited = whole) ∧
      (limit < result.stats.nodes →
        ∃ attempt, (search.uninterrupted.attempts buffer memory library.log)[limit]? = some attempt ∧
          attempt.nodes = limit ∧ search.StoppedAt limited .nodeLimit attempt) ∧
      (∃ result, limited.outcome = .ok result ∧ result.stats.nodes ≤ limit) ∧
      (∀ interval, 0 < interval →
        (search.withCheckInterval interval).perform buffer memory build library = limited) := by
  intro limited whole
  have hinv := hready.uninterrupted.stackInvariant memory library.log
  have hwhole : whole = search.uninterrupted.perform buffer memory build library :=
    hready.withoutNodeLimit.perform_congr hready.uninterrupted rfl
      (hready.withoutNodeLimit.run_of_flag_unset htime rfl hflag)
  obtain ⟨result, hresult, hnodes⟩ := hready.uninterrupted.exists_result hsteady memory
  have hrun := hready.run_of_limit htime hflag hlimit
  -- Up to the limit there is no attempt with that number, so nothing is cut.
  have hsame : result.stats.nodes ≤ limit → limited = whole := by
    intro hle
    have hnone : (search.uninterrupted.attempts buffer memory library.log)[limit]? = none :=
      List.getElem?_eq_none (hnodes ▸ hle)
    rw [hwhole]
    apply hready.perform_congr hready.uninterrupted rfl
    rw [hrun, hnone]
  -- Beyond the limit there is one, and the search stops before it.
  have hcut : limit < result.stats.nodes →
      ∃ attempt, (search.uninterrupted.attempts buffer memory library.log)[limit]? = some attempt ∧
        attempt.nodes = limit ∧ search.StoppedAt limited .nodeLimit attempt := by
    intro hlt
    have hattempt := List.getElem?_eq_getElem (hnodes ▸ hlt)
    refine ⟨_, hattempt, (hinv.nodes_of_attempt hattempt).trans (Nat.zero_add limit), ?_⟩
    rw [hattempt] at hrun
    exact hready.stoppedAt hrun
  refine ⟨hwhole, result, hwhole ▸ hresult, hsame, hcut, ?_, ?_⟩
  · rcases Nat.lt_or_ge limit result.stats.nodes with hlt | hle
    · obtain ⟨attempt, -, heq, hstopped⟩ := hcut hlt
      exact ⟨_, hstopped.outcome, Nat.le_of_eq heq⟩
    · exact ⟨result, (congrArg Report.outcome (hsame hle)).trans (hwhole ▸ hresult), hle⟩
  · intro interval hpos
    have hother := (hready.withCheckInterval hpos).run_of_limit htime hflag hlimit
    exact (hready.withCheckInterval hpos).perform_congr hready rfl (hother.trans hrun.symm)

/-- The fickle search makes five attempts; a limit of two cuts it in the middle of a domain. -/
theorem perform_of_nodeLimit_fickle :
    let search := { fickle with config := { nodeLimit := some 2, checkInterval := 3 } }
    (search.Ready #[0, 0] .unchecked {} ∧ search.problem.Steady ()) ∧
      ∃ attempt, (search.uninterrupted.attempts #[0, 0] 0 #[])[2]? = some attempt ∧
        attempt.nodes = 2 ∧
        search.StoppedAt (search.perform #[0, 0] 0 .unchecked {}) .nodeLimit attempt := by
  intro search
  have hready : search.Ready #[0, 0] .unchecked {} := ⟨by decide, rfl, rfl, rfl, by decide⟩
  obtain ⟨-, result, hresult, -, hcut, -⟩ := perform_of_nodeLimit search #[0, 0] 0 .unchecked {} 2
    hready rfl rfl fickle_steady (fun _ _ => rfl)
  have hwhole : (search.withoutNodeLimit.perform #[0, 0] 0 .unchecked {}).outcome.toOption.map
      (·.stats.nodes) = some 5 := by decide +kernel
  rw [hresult] at hwhole
  have hnodes : result.stats.nodes = 5 := Option.some.inj hwhole
  exact ⟨⟨hready, fickle_steady⟩, hcut (by rw [hnodes]; decide)⟩

section Limited

variable (hready : search.Ready buffer build library) (htime : search.config.timeLimit = none)
  (hflag : ∀ nodes memory, search.cancelled nodes memory = false) {whole : Result}
  (hwhole : (search.uninterrupted.perform buffer memory build library).outcome = .ok whole)

include hready htime hflag hwhole

/-- A search that may try as many values as it needs is the search without limits. -/
theorem Ready.perform_of_allows (hallows : search.config.Allows whole.stats.nodes) :
    search.perform buffer memory build library =
      search.uninterrupted.perform buffer memory build library := by
  apply hready.perform_congr hready.uninterrupted rfl
  cases hlimit : search.config.nodeLimit with
  | none => exact hready.run_of_flag_unset htime hlimit fun _ _ => hflag _ _
  | some limit =>
      have hnone : (search.uninterrupted.attempts buffer memory library.log)[limit]? = none :=
        List.getElem?_eq_none (hready.uninterrupted.nodes_of_outcome hwhole ▸ hallows limit hlimit)
      rw [hready.run_of_limit htime (fun _ _ => hflag _ _) hlimit, hnone]

/-- A search that needs to try more values than it may is stopped. -/
theorem Ready.outcome_of_not_allows (hnot : ¬search.config.Allows whole.stats.nodes) :
    ∃ result, (search.perform buffer memory build library).outcome = .ok result ∧
      result.status = .nodeLimit := by
  simp only [Config.Allows, not_forall, Nat.not_le] at hnot
  obtain ⟨limit, hlimit, hlt⟩ := hnot
  have hrun : search.run buffer memory library.log = _ :=
    hready.run_of_limit htime (fun _ _ => hflag _ _) hlimit
  rw [List.getElem?_eq_getElem (hready.uninterrupted.nodes_of_outcome hwhole ▸ hlt)] at hrun
  exact ⟨_, (hready.stoppedAt hrun).outcome, rfl⟩

end Limited

/-! ## The cancellation flag -/

theorem interruption?_withoutFlag (htime : search.config.timeLimit = none) (nodes : Nat)
    (memory : σ) :
    search.withoutFlag.interruption? nodes memory =
      if search.config.nodeLimit.any (· ≤ nodes) then some .nodeLimit else none := by
  rw [interruption?_of_timeLimit_none search.withoutFlag htime]
  simp [withoutFlag]

/-- The flag adds a reason to stop and takes none away. -/
theorem interruption?_of_withoutFlag (htime : search.config.timeLimit = none) {nodes : Nat}
    {memory : σ} {status : Status}
    (hstatus : search.withoutFlag.interruption? nodes memory = some status) :
    status = .nodeLimit ∧ search.interruption? nodes memory = some status := by
  rw [interruption?_withoutFlag htime] at hstatus
  split at hstatus
  · rename_i hlimit
    injection hstatus with hstatus
    subst hstatus
    exact ⟨rfl, by rw [interruption?_of_timeLimit_none search htime, if_pos hlimit]⟩
  · cases hstatus

/-- At an attempt of the search without the flag, the flag is the only reason to stop. -/
private theorem interruption?_of_attempt (htime : search.config.timeLimit = none)
    {log : Array Message} {attempt : SearchState σ}
    (hattempt : attempt ∈ search.withoutFlag.attempts buffer memory log) :
    search.interruption? attempt.nodes attempt.memory =
      if search.config.checkInterval ∣ attempt.nodes ∧
          search.cancelled attempt.nodes attempt.memory then some .cancelled
      else none := by
  have hfree := Machine.interruption?_of_mem_attempts hattempt
  have hbelow : ¬search.config.nodeLimit.any (· ≤ attempt.nodes) := by
    intro hlimit
    have hstop := interruption?_withoutFlag htime attempt.nodes attempt.memory
    rw [if_pos hlimit] at hstop
    cases hfree.symm.trans hstop
  rw [interruption?_of_timeLimit_none search htime, if_neg hbelow]

/-- A flag that is raised cuts the search at the first look at it. -/
private theorem Ready.run_of_flagRaised (hready : search.Ready buffer build library)
    (htime : search.config.timeLimit = none) {m last : Nat}
    (hraised : search.FlagRaised buffer memory library.log m)
    (hlast : IsLeast {count | search.config.checkInterval ∣ count ∧ m ≤ count} last) :
    search.run buffer memory library.log =
      match (search.withoutFlag.attempts buffer memory library.log)[last]? with
      | some attempt => ⟨.ok .cancelled, attempt⟩
      | none => search.withoutFlag.run buffer memory library.log := by
  have hinv := hready.withoutFlag.stackInvariant memory library.log
  refine hinv.run_interruptedBy_at search.interruption? ?_ ?_ ?_
  · intro nodes memory status hstatus
    exact (interruption?_of_withoutFlag htime hstatus).2
  · -- Before `last` the search looks at the flag too early or not at all.
    intro attempt hattempt hlt
    have hlt' : attempt.nodes < last := Nat.lt_of_lt_of_eq hlt (Nat.zero_add last)
    rw [interruption?_of_attempt htime hattempt, if_neg]
    rintro ⟨hlook, hset⟩
    rcases Nat.lt_or_ge attempt.nodes m with hearly | hlate
    · cases (hraised.before attempt hattempt hearly).symm.trans hset
    · exact absurd (hlast.2 ⟨hlook, hlate⟩) (Nat.not_le.2 hlt')
  · -- At `last` it looks, and the flag has been raised.
    intro attempt hattempt heq
    have heq' : attempt.nodes = last := heq.trans (Nat.zero_add last)
    rw [interruption?_of_attempt htime hattempt, if_pos]
    exact ⟨heq' ▸ hlast.1.1, hraised.after attempt hattempt (heq' ▸ hlast.1.2)⟩

/-- **Cancellation.**  Let no checker give up and let time not be limited; there may be a node
limit.  Let the flag be raised while the `m`-th value is tested, or before the search if `m` is 0,
and let `last` be the least multiple of the check interval that is at least `m`.  If the search
without the flag tries no more than `last` values, the flag changes nothing, so solving,
exhausting and reaching a node limit win over it.  Otherwise the search is cancelled with exactly
`last` tried values, and leaves everything as it was before the attempt that came next.  A flag
that is never found set, or no flag, changes nothing and cancels nothing.  Any flag that is never
lowered is of one of these two kinds. -/
theorem perform_of_flag (search : Search σ κ) (buffer : Array Nat) (memory : σ) (build : Build)
    (library : Library) (hready : search.Ready buffer build library)
    (htime : search.config.timeLimit = none)
    (hsteady : search.problem.Steady search.context) :
    let flagged := search.perform buffer memory build library
    let flagless := search.withoutFlag.perform buffer memory build library
    let attempts := search.withoutFlag.attempts buffer memory library.log
    ∃ result, flagless.outcome = .ok result ∧
      (∀ m last, search.FlagRaised buffer memory library.log m →
        IsLeast {count | search.config.checkInterval ∣ count ∧ m ≤ count} last →
          (result.stats.nodes ≤ last → flagged = flagless) ∧
          (last < result.stats.nodes → ∃ attempt, attempts[last]? = some attempt ∧
            attempt.nodes = last ∧ search.StoppedAt flagged .cancelled attempt)) ∧
      ((∀ attempt ∈ attempts, search.cancelled attempt.nodes attempt.memory = false) →
        flagged = flagless ∧ result.status ≠ .cancelled) ∧
      (search.FlagKept buffer memory library.log →
        (∃ m, search.FlagRaised buffer memory library.log m) ∨
          ∀ attempt ∈ attempts, search.cancelled attempt.nodes attempt.memory = false) := by
  intro flagged flagless attempts
  have hinv := hready.withoutFlag.stackInvariant memory library.log
  obtain ⟨result, hresult, hnodes⟩ := hready.withoutFlag.exists_result hsteady memory
  have hsame : search.run buffer memory library.log =
      search.withoutFlag.run buffer memory library.log → flagged = flagless :=
    hready.perform_congr hready.withoutFlag rfl
  refine ⟨result, hresult, ?_, ?_, FlagKept.raised⟩
  · intro m last hraised hlast
    have hrun := hready.run_of_flagRaised htime hraised hlast
    constructor
    · intro hle
      apply hsame
      rw [hrun, List.getElem?_eq_none (hnodes ▸ hle)]
    · intro hlt
      have hattempt := List.getElem?_eq_getElem (hnodes ▸ hlt)
      refine ⟨_, hattempt, (hinv.nodes_of_attempt hattempt).trans (Nat.zero_add last), ?_⟩
      rw [hattempt] at hrun
      exact hready.stoppedAt hrun
  · intro hunset
    constructor
    · apply hsame
      refine hinv.run_interruptedBy_of_none search.interruption? ?_ ?_
      · intro nodes memory status hstatus
        exact (interruption?_of_withoutFlag htime hstatus).2
      · intro attempt hattempt
        rw [interruption?_of_attempt htime hattempt, hunset attempt hattempt]
        simp
    · obtain ⟨status, hstatus⟩ := hinv.exists_status (hready.withoutFlag.steady_machine hsteady)
      have hanswer := hready.withoutFlag.outcome_of_ending hstatus
      have heq : result.status = status := by
        cases hanswer.symm.trans hresult
        rfl
      rw [heq]
      rcases hinv.status_run hstatus with rfl | rfl | ⟨nodes, memory, hreason⟩
      · exact Status.noConfusion
      · exact Status.noConfusion
      · rw [(interruption?_of_withoutFlag htime hreason).1]
        exact Status.noConfusion

/-- The checker raises the flag in its first call, and it is seen at the next multiple of two. -/
theorem perform_of_flag_fickle :
    let search := { fickle with
      config := { checkInterval := 2 }, cancelled := fun _ calls => 1 ≤ calls }
    (search.Ready #[0, 0] .unchecked {} ∧ search.problem.Steady () ∧
        search.FlagRaised #[0, 0] 0 #[] 1) ∧
      ∃ attempt, (search.withoutFlag.attempts #[0, 0] 0 #[])[2]? = some attempt ∧
        attempt.nodes = 2 ∧
        search.StoppedAt (search.perform #[0, 0] 0 .unchecked {}) .cancelled attempt := by
  intro search
  have hready : search.Ready #[0, 0] .unchecked {} := ⟨by decide, rfl, rfl, rfl, by decide⟩
  have hraised : search.FlagRaised #[0, 0] 0 #[] 1 := ⟨by decide +kernel, by decide +kernel⟩
  have hlast : IsLeast {count | search.config.checkInterval ∣ count ∧ 1 ≤ count} 2 :=
    ⟨⟨by decide, by decide⟩, fun count h => Nat.le_of_dvd h.2 h.1⟩
  obtain ⟨result, hresult, hcut, -⟩ := perform_of_flag search #[0, 0] 0 .unchecked {}
    hready rfl fickle_steady
  have hwhole : (search.withoutFlag.perform #[0, 0] 0 .unchecked {}).outcome.toOption.map
      (·.stats.nodes) = some 5 := by decide +kernel
  rw [hresult] at hwhole
  have hnodes : result.stats.nodes = 5 := Option.some.inj hwhole
  exact ⟨⟨hready, fickle_steady, hraised⟩, (hcut 1 2 hraised hlast).2 (by rw [hnodes]; decide)⟩

end Search

end ConstraintSearch
