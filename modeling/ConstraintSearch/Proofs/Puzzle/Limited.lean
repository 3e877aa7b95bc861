import ConstraintSearch.Proofs.Puzzle.Model
import ConstraintSearch.Proofs.Search.Limits

/-!
# Solving a model with a limit

The search for a solution of a model needs some number of tried values (`Model.triedValues`), which
depends neither on the messages reported before nor on the clock.  If the node limit allows as many,
the search is solved or exhausted as without it, and otherwise it is stopped.  So a search that is
stopped says nothing about the solutions, even if it might have found out at the very next value
(`Fit.yields_verdict`).
-/

namespace ConstraintSearch.Model

variable {κ : Type} {model : Model κ} {context : κ} {build : Build} {config : Config}
  {elapsed : Nat → Nat}

/-- The number of values that a search for a solution tries if nothing stops it. -/
def triedValues (model : Model κ) (context : κ) : Nat :=
  (({ problem := model.made, context } : Search Unit κ).run
    (Array.replicate model.variableCount 0) () #[]).state.nodes

/-- What a search with limits finds out about the solutions of a model. -/
inductive Verdict (model : Model κ) (context : κ) (config : Config)
    (found : Result × Array Nat) : Prop where
  /-- The least solution is found. -/
  | solved (hallows : config.Allows (model.triedValues context))
      (hstatus : found.1.status = .solved)
      (hleast : IsLeast {values | model.Solves context values} found.2.toList)
  /-- There is no solution. -/
  | exhausted (hallows : config.Allows (model.triedValues context))
      (hstatus : found.1.status = .exhausted) (hnone : ∀ values, ¬model.Solves context values)
  /-- The limit is reached first. -/
  | stopped (hnot : ¬config.Allows (model.triedValues context))
      (hstatus : found.1.status = .nodeLimit)

/-- The search for a solution of the model, with limits and a clock. -/
def limited (model : Model κ) (context : κ) (config : Config) (elapsed : Nat → Nat) :
    Search Unit κ :=
  { problem := model.made, context, config, elapsed }

theorem unlimited (model : Model κ) (context : κ) (elapsed : Nat → Nat) :
    (model.limited context {} elapsed).Unlimited :=
  ⟨rfl, rfl, fun _ _ => rfl⟩

section Fit

variable (hfit : model.Fit)

include hfit

theorem Fit.ready_limited (hconfig : config.flaw? = none) {library : Library}
    (hactive : library.isActive = true) :
    (model.limited context config elapsed).Ready (Array.replicate model.variableCount 0) build
      library :=
  have hready : ({ problem := model.made, context } : Search Unit κ).Ready
      (Array.replicate model.variableCount 0) build library := hfit.ready hactive
  ⟨hready.active, hconfig, hready.problem, hready.length, hready.start_le⟩

/-- Without limits, the search tries the same number of values by any clock and whatever was reported
before. -/
theorem Fit.nodes_run (elapsed : Nat → Nat) (log : Array Message) :
    ((model.limited context {} elapsed).run (Array.replicate model.variableCount 0) ()
      log).state.nodes = model.triedValues context := by
  have hready : ∀ elapsed, (model.limited context {} elapsed).Ready
      (Array.replicate model.variableCount 0) .checked { activations := 1 } :=
    fun _ => hfit.ready_limited rfl rfl
  have houtcome : ∀ elapsed log, ((model.limited context {} elapsed).run
      (Array.replicate model.variableCount 0) () log).outcome = _ :=
    fun elapsed log => (hready elapsed).outcome_run (model.unlimited context elapsed) () log
  have hsame := (houtcome elapsed log).trans (houtcome (fun _ => 0) #[]).symm
  exact congrArg (fun outcome => outcome.trail.nodes) hsame

variable (hlocal : model.Local context)

include hlocal

/-- Without limits, the search finds the least solution, or there is none. -/
theorem Fit.result_unlimited (elapsed : Nat → Nat) {library : Library}
    (hactive : library.isActive = true) :
    ∃ result, ((model.limited context {} elapsed).perform (Array.replicate model.variableCount 0) ()
        build library).outcome = .ok result ∧
      result.stats.nodes = model.triedValues context ∧
      ((result.status = .solved ∧ IsLeast {values | model.Solves context values}
          ((model.limited context {} elapsed).perform (Array.replicate model.variableCount 0) ()
            build library).buffer.toList) ∨
        (result.status = .exhausted ∧ ∀ values, ¬model.Solves context values)) := by
  have hready : (model.limited context {} elapsed).Ready (Array.replicate model.variableCount 0)
      build library := hfit.ready_limited rfl hactive
  have hpos : 0 < (model.limited context {} elapsed).problem.domains.size :=
    lt_of_lt_of_eq hfit.variables_pos Array.size_replicate.symm
  have hsolves : ∀ values, values ∈ {values | model.made.Completes context [] values} ↔
      model.Solves context values := fun values => completes_made_iff
  obtain ⟨result, hresult, hfound⟩ := hready.perform_of_localWithin
    (model.unlimited context elapsed) hlocal.localWithin rfl hpos ()
  refine ⟨result, hresult, ?_, ?_⟩
  · rw [(hready.ending_of_outcome hresult).2]
    exact hfit.nodes_run elapsed library.log
  · rcases hfound with ⟨hsolved, hleast⟩ | ⟨hexhausted, hnone⟩
    · exact .inl ⟨hsolved, Set.ext hsolves ▸ hleast⟩
    · exact .inr ⟨hexhausted, fun values hvalues => hnone values ((hsolves values).2 hvalues)⟩

theorem Fit.yields_unlimited (elapsed : Nat → Nat) :
    ((model.limited context {} elapsed).within (Array.replicate model.variableCount 0)).Yields build
      (·.1.stats.nodes = model.triedValues context) := by
  intro library hactive
  have hready : (model.limited context {} elapsed).Ready (Array.replicate model.variableCount 0)
      build library := hfit.ready_limited rfl hactive
  obtain ⟨result, hresult, hnodes, -⟩ := hfit.result_unlimited hlocal elapsed hactive
  exact ⟨_, _, Search.within_of_ok hresult, hready.isActive_perform hactive, hnodes⟩

/-- With a node limit, the search finds out the same if it may try as many values as it needs, and
otherwise it is stopped. -/
theorem Fit.yields_verdict (hconfig : config.flaw? = none) (htime : config.timeLimit = none)
    (elapsed : Nat → Nat) :
    ((model.limited context config elapsed).within (Array.replicate model.variableCount 0)).Yields
      build (model.Verdict context config) := by
  intro library hactive
  have hready : (model.limited context config elapsed).Ready (Array.replicate model.variableCount 0)
      build library := hfit.ready_limited hconfig hactive
  obtain ⟨whole, hwhole, hnodes, hfound⟩ := hfit.result_unlimited hlocal elapsed hactive
  -- The limit allows what the unlimited search needs, and then they are the same; or it does not,
  -- and then the search is stopped.
  by_cases hallows : config.Allows (model.triedValues context)
  · have hsame := hready.perform_of_allows htime (fun _ _ => rfl) hwhole (hnodes ▸ hallows)
    refine ⟨_, _, Search.within_of_ok ((congrArg Report.outcome hsame).trans hwhole),
      hready.isActive_perform hactive, ?_⟩
    rw [hsame]
    rcases hfound with ⟨hsolved, hleast⟩ | ⟨hexhausted, hnone⟩
    · exact .solved hallows hsolved hleast
    · exact .exhausted hallows hexhausted hnone
  · obtain ⟨result, hresult, hstatus⟩ :=
      hready.outcome_of_not_allows htime (fun _ _ => rfl) hwhole (hnodes ▸ hallows)
    exact ⟨_, _, Search.within_of_ok hresult, hready.isActive_perform hactive,
      .stopped hallows hstatus⟩

end Fit

end ConstraintSearch.Model
