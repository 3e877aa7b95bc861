import ConstraintSearch.Proofs.Session.Step

/-!
# Operations that only look

All but ten operations leave the constraints and the problems of a session as they are, however they
end (`keepsHoldings_perform`).  They are put together of steps that do so.
-/

namespace ConstraintSearch

variable {τ κ : Type}

/-- The operation may change what a session holds. -/
def Operation.isChange : Operation τ κ → Bool
  | .newConstraint .. | .withVariables .. | .setVariable .. | .dropConstraint _ | .newProblem ..
  | .setDomain .. | .setDomains .. | .setAllDomains .. | .setConstraint .. | .dropProblem _ => true
  | _ => false

namespace SessionStep

variable {α β : Type}

/-- The session that a step leaves, be it with a value or with an objection. -/
def left : EStateM.Result Objection (Session τ κ) α → Session τ κ
  | .ok _ after => after
  | .error _ after => after

/-- The step leaves the problems and the constraints of a session as they are. -/
def KeepsHoldings (step : SessionStep τ κ α) : Prop :=
  ∀ build session, (left (step build session)).problems = session.problems ∧
    (left (step build session)).constraints = session.constraints

theorem KeepsHoldings.bind {step : SessionStep τ κ α} {next : α → SessionStep τ κ β}
    (h : step.KeepsHoldings) (hnext : ∀ value, (next value).KeepsHoldings) :
    KeepsHoldings (step >>= next) := by
  intro build session
  have hfirst := h build session
  rw [bind_apply]
  cases hstep : step build session with
  | ok value after =>
      rw [hstep] at hfirst
      obtain ⟨hproblems, hconstraints⟩ := hnext value build after
      exact ⟨hproblems.trans hfirst.1, hconstraints.trans hfirst.2⟩
  | error objection after =>
      rw [hstep] at hfirst
      exact hfirst

theorem KeepsHoldings.pure (value : α) : KeepsHoldings (Pure.pure value : SessionStep τ κ α) :=
  fun _ _ => ⟨rfl, rfl⟩

theorem keepsHoldings_call (action : Action α) :
    (call action : SessionStep τ κ α).KeepsHoldings := by
  intro build session
  unfold call
  cases action build session.library <;> exact ⟨rfl, rfl⟩

theorem keepsHoldings_judge (verdict : EStateM Fault (SessionMemory τ) α) :
    (judge verdict : SessionStep τ κ α).KeepsHoldings := by
  intro build session
  unfold judge
  cases verdict session.memory <;> exact ⟨rfl, rfl⟩

theorem keepsHoldings_get : (get : SessionStep τ κ (Session τ κ)).KeepsHoldings :=
  fun _ _ => ⟨rfl, rfl⟩

theorem keepsHoldings_constraint (c : Nat) :
    (constraint c : SessionStep τ κ _).KeepsHoldings := by
  refine keepsHoldings_get.bind fun session => ?_
  cases session.constraints[c]? with
  | none => exact fun _ _ => ⟨rfl, rfl⟩
  | some held => exact .pure held

theorem keepsHoldings_problem (p : Nat) : (problem p : SessionStep τ κ _).KeepsHoldings := by
  refine keepsHoldings_get.bind fun session => ?_
  cases session.problems[p]? with
  | none => exact fun _ _ => ⟨rfl, rfl⟩
  | some posed => exact .pure posed

theorem keepsHoldings_shown (answer : Answer) :
    (shown answer : SessionStep τ κ Answer).KeepsHoldings :=
  (keepsHoldings_call _).bind fun _ => .pure _

theorem keepsHoldings_searchBuffer (search : Search (SessionMemory τ) κ) :
    (searchBuffer search).KeepsHoldings := by
  intro build session
  unfold searchBuffer
  generalize search.perform session.buffer session.memory build session.library = report
  obtain ⟨outcome, buffer, memory, library⟩ := report
  cases outcome with
  | ok result => exact ⟨rfl, rfl⟩
  | error fault => exact ⟨rfl, rfl⟩

theorem keepsHoldings_search (p : Nat) (order : SearchOrder κ) :
    (search p order : SessionStep τ κ Result).KeepsHoldings := by
  refine (keepsHoldings_problem p).bind fun posed => ?_
  exact KeepsHoldings.bind (fun _ _ => ⟨rfl, rfl⟩) fun _ => keepsHoldings_searchBuffer _

theorem keepsHoldings_newGuard (g : Nat) : (newGuard g : SessionStep τ κ Answer).KeepsHoldings := by
  refine (keepsHoldings_call _).bind fun _ => keepsHoldings_get.bind fun session => ?_
  by_cases hheld : session.guards.contains g = true
  · simp only [if_pos hheld]
    refine (keepsHoldings_call _).bind fun _ => ?_
    exact KeepsHoldings.bind (fun _ _ => ⟨rfl, rfl⟩) fun _ => .pure _
  · simp only [if_neg hheld]
    exact KeepsHoldings.bind (fun _ _ => ⟨rfl, rfl⟩) fun _ => .pure _

theorem keepsHoldings_dropGuard (g : Nat) :
    (dropGuard g : SessionStep τ κ Answer).KeepsHoldings := by
  refine keepsHoldings_get.bind fun session => ?_
  by_cases hheld : (!session.guards.contains g) = true
  · simp only [if_pos hheld]
    exact fun _ _ => ⟨rfl, rfl⟩
  · simp only [if_neg hheld]
    refine KeepsHoldings.bind (fun _ _ => ⟨rfl, rfl⟩) fun _ => ?_
    exact (keepsHoldings_call _).bind fun _ => .pure _

theorem keepsHoldings_perform {operation : Operation τ κ} (h : operation.isChange = false) :
    (perform operation).KeepsHoldings := by
  -- Along the `do` block of each operation.  The ten changes are excluded by the hypothesis.
  cases operation with
  | activate | deactivate | isActive => exact (keepsHoldings_call _).bind fun _ => .pure _
  | newGuard g => exact keepsHoldings_newGuard g
  | dropGuard g => exact keepsHoldings_dropGuard g
  | newConstraint | withVariables | setVariable | dropConstraint | newProblem | setDomain
  | setDomains | setAllDomains | setConstraint | dropProblem => cases h
  | variableAt c index =>
      exact (keepsHoldings_constraint c).bind fun _ => (keepsHoldings_call _).bind fun _ => .pure _
  | scope c | arity c | maxVariable c | isApplicable c _ =>
      exact (keepsHoldings_constraint c).bind fun _ => keepsHoldings_shown _
  | describeConstraint c => exact (keepsHoldings_constraint c).bind fun _ => .pure _
  | check c assignment context =>
      exact (keepsHoldings_constraint c).bind fun _ => (keepsHoldings_call _).bind fun _ =>
        (keepsHoldings_judge _).bind fun _ => .pure _
  | sameChecker c d =>
      exact (keepsHoldings_constraint d).bind fun _ => (keepsHoldings_constraint c).bind fun _ =>
        keepsHoldings_shown _
  | variableCount p | slotCount p | domains p =>
      exact (keepsHoldings_problem p).bind fun _ => keepsHoldings_shown _
  | domainAt p _ | constraintAt p _ | validate p =>
      exact (keepsHoldings_problem p).bind fun _ => (keepsHoldings_call _).bind fun _ => .pure _
  | describeProblem p tall => exact (keepsHoldings_problem p).bind fun _ => .pure _
  | isConsistent p assignment context frontier =>
      exact (keepsHoldings_problem p).bind fun _ => (keepsHoldings_call _).bind fun _ =>
        (keepsHoldings_judge _).bind fun _ => .pure _
  | setBuffer assignment =>
      exact KeepsHoldings.bind (fun _ _ => ⟨rfl, rfl⟩) fun _ => .pure _
  | solve p order | search p order => exact (keepsHoldings_search p order).bind fun _ => .pure _

end SessionStep

end ConstraintSearch
