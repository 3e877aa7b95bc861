import ConstraintSearch.Proofs.Search.Objections
import ConstraintSearch.Proofs.Session.Builds

/-!
# Sessions on an inactive library

In the checked build every operation on constraints and problems begins with `requireActive`, or with
another operation that does, and looks at nothing else before.  So on an inactive library it ends in
the same fault whatever its arguments are (`step_of_inactive`).  In the unchecked build nothing looks
at the activations, and it makes no difference how many there are.

## Strategy

1. `Action.DemandsActive`: an operation of the library refuses an inactive one and does nothing.  What
   comes first decides, so one bind is enough for each operation.
2. `SessionStep.Refused`: a step of a session ends in that refusal.  A step looks up what it names
   first; the lookups succeed, as the session has these things, and the refusal follows.
3. `SessionStep.RefusedOutright`: nothing has happened by then.  Two steps have done something before
   they ask: one has taken the number from a constraint, the other has lent a constraint.
4. For the unchecked build, the two sides of `Session.Alike` may differ in the activations.
-/

namespace ConstraintSearch

variable {σ κ τ α β : Type}

/-! ## Operations of the library -/

namespace Action

/-- In the checked build the operation refuses a library that is not active, and does nothing. -/
def DemandsActive (action : Action α) : Prop :=
  ∀ library : Library, library.activations = 0 →
    action .checked library = .error (.fault .inactive) library

theorem demandsActive_requireActive : requireActive.DemandsActive := by
  intro library hzero
  rw [requireActive_apply, if_pos ⟨rfl, hzero⟩]

/-- What comes first decides. -/
theorem DemandsActive.bind {action : Action α} (h : action.DemandsActive) (next : α → Action β) :
    (action >>= next).DemandsActive := by
  intro library hzero
  rw [bind_apply, h library hzero]

end Action

namespace Constraint

theorem demandsActive_create (arity : Nat) (checker : Checker σ κ) :
    (create arity checker).DemandsActive :=
  Action.demandsActive_requireActive.bind _

theorem demandsActive_setVariable (constraint : Constraint σ κ) (index v : Nat) :
    (constraint.setVariable index v).DemandsActive :=
  Action.demandsActive_requireActive.bind _

theorem demandsActive_variableAt (constraint : Constraint σ κ) (index : Nat) :
    (constraint.variableAt index).DemandsActive :=
  Action.demandsActive_requireActive.bind _

/-- A constraint whose variables are to be set on an inactive library is given up. -/
theorem withVariables_of_inactive (constraint : Constraint σ κ) (scope : List Nat)
    {library : Library} (hzero : library.activations = 0) :
    constraint.withVariables scope .checked library =
      .error (.fault .inactive) (library.record (.droppedConstraint constraint.arity)) := by
  have hreplace : Action.DemandsActive (do
      Action.requireActive
      Action.require (scope.length = constraint.arity)
        (.wrongLength .scope scope.length constraint.arity)
      return { constraint with scope }) :=
    Action.demandsActive_requireActive.bind _
  -- The replacement fails at its first demand, and what follows a failure gives the constraint up.
  unfold withVariables Action.onFailure
  rw [hreplace library hzero]
  rfl

end Constraint

namespace Problem

theorem demandsActive_create (domains slots : Nat) :
    (create domains slots : Action (Problem σ κ)).DemandsActive :=
  Action.demandsActive_requireActive.bind _

variable (problem : Problem σ κ)

theorem demandsActive_setDomain (index size : Nat) :
    (problem.setDomain index size).DemandsActive :=
  Action.demandsActive_requireActive.bind _

theorem demandsActive_domainAt (index : Nat) : (problem.domainAt index).DemandsActive :=
  Action.demandsActive_requireActive.bind _

theorem demandsActive_setConstraint (index : Nat) (constraint : Constraint σ κ) :
    (problem.setConstraint index constraint).DemandsActive :=
  Action.demandsActive_requireActive.bind _

theorem demandsActive_constraintAt (index : Nat) : (problem.constraintAt index).DemandsActive :=
  Action.demandsActive_requireActive.bind _

theorem demandsActive_validate : problem.validate.DemandsActive :=
  Action.demandsActive_requireActive.bind _

end Problem

/-! ## Steps of a session -/

namespace SessionStep

variable {step : SessionStep τ κ α} {session after left : Session τ κ} {c p : Nat}

/-- In the checked build the step ends in the fault of an inactive library and leaves the given
session. -/
def Refused (step : SessionStep τ κ α) (session left : Session τ κ) : Prop :=
  step .checked session = .error (.failed (.fault .inactive)) left

theorem Refused.bind (h : step.Refused session left) (next : α → SessionStep τ κ β) :
    (step >>= next).Refused session left :=
  bind_of_error h next

theorem Refused.following {value : α} (hstep : step .checked session = .ok value after)
    {next : α → SessionStep τ κ β} (h : (next value).Refused after left) :
    (step >>= next).Refused session left :=
  (bind_of_ok hstep next).trans h

theorem refused_call {action : Action α} (h : action.DemandsActive)
    (hzero : session.library.activations = 0) : (call action).Refused session session :=
  call_of_error (h _ hzero)

theorem refused_shown (hzero : session.library.activations = 0) (answer : Answer) :
    (shown answer).Refused session session :=
  (refused_call Action.demandsActive_requireActive hzero).bind _

end SessionStep

namespace Operation

/-- The operation is one of the library on constraints and problems, other than giving them up and
describing them, and the session has what it names: a constraint that is to be changed must not be
frozen. -/
def callsIn (session : Session τ κ) : Operation τ κ → Bool
  | .newConstraint .. | .newProblem .. => true
  | .withVariables c _ | .setVariable c _ _ => session.constraints[c]?.any (!·.frozen)
  | .variableAt c _ | .scope c | .arity c | .maxVariable c | .isApplicable c _ | .check c _ _ =>
      session.constraints.contains c
  | .sameChecker c d => session.constraints.contains c && session.constraints.contains d
  | .setConstraint p _ c => session.constraints.contains c && session.problems.contains p
  | .variableCount p | .slotCount p | .domains p | .setDomain p _ _ | .setDomains p _
  | .setAllDomains p _ | .domainAt p _ | .constraintAt p _ | .validate p | .isConsistent p _ _ _
  | .solve p _ | .search p _ => session.problems.contains p
  | .activate | .deactivate | .isActive | .newGuard _ | .dropGuard _ | .describeConstraint _
  | .dropConstraint _ | .describeProblem _ _ | .dropProblem _ | .setBuffer _ => false

/-- The constraint that the operation gives up if it fails. -/
def atStake? : Operation τ κ → Option Nat
  | .withVariables c _ => some c
  | _ => none

end Operation

namespace Session

variable {session left : Session τ κ} {operation : Operation τ κ}

/-- What a refused operation leaves: everything but the constraint that was at stake is as before,
and no checker was called. -/
structure Undisturbed (session left : Session τ κ) (operation : Operation τ κ) : Prop where
  activations : left.library.activations = session.library.activations
  guards : left.guards = session.guards
  buffer : left.buffer = session.buffer
  problems : left.problems = session.problems
  constraints : ∀ c : Nat, left.constraints[c]?.map (·.constraint) =
    if operation.atStake? = some c then none else session.constraints[c]?.map (·.constraint)
  own : left.memory.own = session.memory.own
  calls : left.memory.calls = session.memory.calls
  callCount : left.memory.callCount = session.memory.callCount
  log : operation.atStake? = none → left.library.log = session.library.log

theorem Undisturbed.refl (session : Session τ κ) (hstake : operation.atStake? = none) :
    session.Undisturbed session operation where
  activations := rfl
  guards := rfl
  buffer := rfl
  problems := rfl
  constraints c := by rw [hstake, if_neg nofun]
  own := rfl
  calls := rfl
  callCount := rfl
  log _ := rfl

theorem exists_held {c : Nat} (h : session.constraints.contains c = true) :
    ∃ held, session.constraints[c]? = some held := by
  rw [Std.TreeMap.contains_eq_isSome_getElem?] at h
  exact Option.isSome_iff_exists.1 h

theorem exists_posed {p : Nat} (h : session.problems.contains p = true) :
    ∃ posed, session.problems[p]? = some posed := by
  rw [Std.TreeMap.contains_eq_isSome_getElem?] at h
  exact Option.isSome_iff_exists.1 h

theorem exists_own {c : Nat} (h : session.constraints[c]?.any (!·.frozen) = true) :
    ∃ own, session.constraints[c]? = some { constraint := own, frozen := false } := by
  cases hheld : session.constraints[c]? with
  | none =>
      rw [hheld] at h
      cases h
  | some held =>
      obtain ⟨own, frozen⟩ := held
      cases frozen with
      | false => exact ⟨own, rfl⟩
      | true =>
          rw [hheld] at h
          cases h

end Session

namespace SessionStep

variable {session : Session τ κ} {operation : Operation τ κ}

/-- The operation is refused, and nothing else happens. -/
def RefusedOutright (operation : Operation τ κ) (session : Session τ κ) : Prop :=
  ∃ left, (perform operation).Refused session left ∧ session.Undisturbed left operation

theorem refusedOutright_of_refused (hstake : operation.atStake? = none)
    (h : (perform operation).Refused session session) : RefusedOutright operation session :=
  ⟨session, h, .refl session hstake⟩

theorem refusedOutright_withVariables {c : Nat} {scope : List Nat}
    (hzero : session.library.activations = 0)
    (hcalls : (Operation.withVariables c scope).callsIn session = true) :
    RefusedOutright (.withVariables c scope) session := by
  obtain ⟨own, hown⟩ := Session.exists_own hcalls
  let erased : Session τ κ := { session with constraints := session.constraints.erase c }
  let left : Session τ κ :=
    { erased with library := session.library.record (.droppedConstraint own.arity) }
  have hcall : (call (own.withVariables scope)).Refused erased left :=
    call_of_error (own.withVariables_of_inactive scope hzero)
  have hforget : forgetConstraint c .checked session = .ok () erased := rfl
  refine ⟨left, .following (ownConstraint_apply hown) (.following hforget (hcall.bind _)), ?_⟩
  exact
    { activations := rfl
      guards := rfl
      buffer := rfl
      problems := rfl
      constraints := by
        intro d
        show (session.constraints.erase c)[d]?.map _ = if some c = some d then _ else _
        rw [Std.TreeMap.getElem?_erase]
        by_cases hsame : c = d
        · rw [if_pos (Std.compare_eq_iff_eq.2 hsame), if_pos (congrArg some hsame)]
          rfl
        · rw [if_neg fun h => hsame (Std.compare_eq_iff_eq.1 h),
            if_neg fun h => hsame (Option.some.inj h)]
      own := rfl
      calls := rfl
      callCount := rfl
      log := nofun }

theorem refusedOutright_setConstraint {p index c : Nat}
    (hzero : session.library.activations = 0)
    (hcalls : (Operation.setConstraint p index c).callsIn session = true) :
    RefusedOutright (.setConstraint p index c) session := by
  obtain ⟨hheld, hposed⟩ := Bool.and_eq_true_iff.1 hcalls
  obtain ⟨held, hheld⟩ := Session.exists_held hheld
  obtain ⟨posed, hposed⟩ := Session.exists_posed hposed
  -- A constraint is lent before the library is asked, so it stays frozen after the refusal.  That is
  -- no change of the constraint itself.
  let frozen : Session τ κ :=
    { session with constraints := session.constraints.insert c { held with frozen := true } }
  have hcall : (call (posed.problem.setConstraint index held.constraint)).Refused frozen frozen :=
    refused_call (posed.problem.demandsActive_setConstraint _ _) hzero
  have hkeep : keepConstraint c { held with frozen := true } .checked session = .ok () frozen := rfl
  refine ⟨frozen, .following (constraint_apply hheld) (.following (problem_apply hposed)
    (.following hkeep (hcall.bind _))), ?_⟩
  exact
    { activations := rfl
      guards := rfl
      buffer := rfl
      problems := rfl
      constraints := by
        intro d
        show (session.constraints.insert c { held with frozen := true })[d]?.map _ = _
        rw [if_neg nofun, Std.TreeMap.getElem?_insert]
        by_cases hsame : c = d
        · rw [if_pos (Std.compare_eq_iff_eq.2 hsame), ← hsame, hheld]
          rfl
        · rw [if_neg fun h => hsame (Std.compare_eq_iff_eq.1 h)]
      own := rfl
      calls := rfl
      callCount := rfl
      log := fun _ => rfl }

/-- A search objects to an inactive library before anything else. -/
theorem refused_search {p : Nat} {order : SearchOrder κ} (hzero : session.library.activations = 0)
    (hposed : session.problems.contains p = true) :
    (search p order).Refused session
      { session with memory := order.memory session.memory } := by
  obtain ⟨posed, hposed⟩ := Session.exists_posed hposed
  have hfirst : (order.search posed.problem).firstObjection? .checked session.library
      session.buffer.size = some .inactive := by
    simp only [Search.firstObjection?, Search.objections, hzero, and_self, if_true,
      List.findSome?_cons, id]
  -- The inactive library is the first of the five objections.
  unfold Refused
  rw [search_apply hposed]
  unfold searchBuffer
  rw [Search.perform_of_objection hfirst]

theorem refusedOutright_search {p : Nat} {order : SearchOrder κ}
    (hoperation : operation = .search p order ∨ operation = .solve p order)
    (hzero : session.library.activations = 0) (hposed : session.problems.contains p = true) :
    RefusedOutright operation session := by
  refine ⟨{ session with memory := order.memory session.memory }, ?_, ?_⟩
  · rcases hoperation with rfl | rfl
    · exact (refused_search hzero hposed).bind _
    · exact (refused_search hzero hposed).bind _
  · have hstake : operation.atStake? = none := by rcases hoperation with rfl | rfl <;> rfl
    exact { Session.Undisturbed.refl session hstake with own := rfl, calls := rfl, callCount := rfl }

/-- In the checked build every operation of the library refuses an inactive one. -/
theorem refusedOutright_of_inactive (hzero : session.library.activations = 0)
    (hcalls : operation.callsIn session = true) : RefusedOutright operation session := by
  -- What an operation names is looked up first, and this succeeds.  Next comes the demand, or an
  -- operation of the library that begins with it.
  have hactive : (call Action.requireActive).Refused session session :=
    refused_call Action.demandsActive_requireActive hzero
  cases operation with
  | newConstraint c arity checker =>
      exact refusedOutright_of_refused rfl
        ((refused_call (Constraint.demandsActive_create _ _) hzero).bind _)
  | newProblem p domains slots =>
      exact refusedOutright_of_refused rfl
        ((refused_call (Problem.demandsActive_create _ _) hzero).bind _)
  | withVariables c scope => exact refusedOutright_withVariables hzero hcalls
  | setVariable c index v =>
      obtain ⟨own, hown⟩ := Session.exists_own hcalls
      exact refusedOutright_of_refused rfl (.following (ownConstraint_apply hown)
        ((refused_call (own.demandsActive_setVariable _ _) hzero).bind _))
  | variableAt c index =>
      obtain ⟨held, hheld⟩ := Session.exists_held hcalls
      exact refusedOutright_of_refused rfl (.following (constraint_apply hheld)
        ((refused_call (held.constraint.demandsActive_variableAt _) hzero).bind _))
  | scope c | arity c | maxVariable c | isApplicable c _ =>
      obtain ⟨held, hheld⟩ := Session.exists_held hcalls
      exact refusedOutright_of_refused rfl (.following (constraint_apply hheld)
        (refused_shown hzero _))
  | check c assignment context =>
      obtain ⟨held, hheld⟩ := Session.exists_held hcalls
      exact refusedOutright_of_refused rfl (.following (constraint_apply hheld) (hactive.bind _))
  | sameChecker c d =>
      obtain ⟨hone, hother⟩ := Bool.and_eq_true_iff.1 hcalls
      obtain ⟨one, hone⟩ := Session.exists_held hone
      obtain ⟨other, hother⟩ := Session.exists_held hother
      exact refusedOutright_of_refused rfl (.following (constraint_apply hother)
        (.following (constraint_apply hone) (refused_shown hzero _)))
  | setConstraint p index c => exact refusedOutright_setConstraint hzero hcalls
  | variableCount p | slotCount p | domains p =>
      obtain ⟨posed, hposed⟩ := Session.exists_posed hcalls
      exact refusedOutright_of_refused rfl (.following (problem_apply hposed)
        (refused_shown hzero _))
  | setDomain p index size =>
      obtain ⟨posed, hposed⟩ := Session.exists_posed hcalls
      have hset : (setDomain p index size).Refused session session :=
        .following (problem_apply hposed)
          ((refused_call (posed.problem.demandsActive_setDomain _ _) hzero).bind _)
      exact refusedOutright_of_refused rfl (hset.bind _)
  | setDomains p _ | setAllDomains p _ | isConsistent p _ _ _ =>
      obtain ⟨posed, hposed⟩ := Session.exists_posed hcalls
      exact refusedOutright_of_refused rfl (.following (problem_apply hposed) (hactive.bind _))
  | domainAt p index =>
      obtain ⟨posed, hposed⟩ := Session.exists_posed hcalls
      exact refusedOutright_of_refused rfl (.following (problem_apply hposed)
        ((refused_call (posed.problem.demandsActive_domainAt _) hzero).bind _))
  | constraintAt p index =>
      obtain ⟨posed, hposed⟩ := Session.exists_posed hcalls
      exact refusedOutright_of_refused rfl (.following (problem_apply hposed)
        ((refused_call (posed.problem.demandsActive_constraintAt _) hzero).bind _))
  | validate p =>
      obtain ⟨posed, hposed⟩ := Session.exists_posed hcalls
      exact refusedOutright_of_refused rfl (.following (problem_apply hposed)
        ((refused_call posed.problem.demandsActive_validate hzero).bind _))
  | solve p order => exact refusedOutright_search (.inr rfl) hzero hcalls
  | search p order => exact refusedOutright_search (.inl rfl) hzero hcalls
  | _ => cases hcalls

end SessionStep

/-! ## Any number of activations -/

theorem Operation.not_isAboutActivations {session : Session τ κ} {operation : Operation τ κ}
    (hcalls : operation.callsIn session = true) : operation.isAboutActivations = false := by
  cases operation with
  | activate | deactivate | isActive | newGuard _ | dropGuard _ => cases hcalls
  | _ => rfl

namespace Session

/-- In the unchecked build an operation that is not about activations does the same whatever their
number is. -/
theorem step_withActivations (session : Session τ κ) {operation : Operation τ κ}
    (habout : operation.isAboutActivations = false) (n : Nat) :
    let after := (session.step .unchecked operation).2
    let after' := ((session.withActivations n).step .unchecked operation).2
    ((session.withActivations n).step .unchecked operation).1 =
        (session.step .unchecked operation).1 ∧
      (after'.library.activations = n ∧ after'.library.log = after.library.log) ∧
      after'.guards = after.guards ∧ after'.buffer = after.buffer ∧ after'.memory = after.memory ∧
      (∀ c : Nat, after'.constraints[c]? = after.constraints[c]?) ∧
      ∀ p : Nat, after'.problems[p]? = after.problems[p]? := by
  intro after after'
  have halike : session.Alike .unchecked (fun _ count => count = n) (session.withActivations n) :=
    .of_counts _ _ rfl
  have hcounts : operation.isAboutActivations = true → (fun _ count => count = n) = Eq := by
    rw [habout]
    exact nofun
  obtain ⟨hanswer, hafter⟩ := halike.step (.refl operation) hcounts fun _ _ h => nomatch h.1
  refine ⟨hanswer, ⟨hafter.library.activations, hafter.library.log⟩, hafter.guards,
    hafter.buffer, hafter.memory, fun c => ?_, fun p => ?_⟩
  · exact eq_of_optionRel (fun _ _ => HeldConstraint.Alike.eq_of_unchecked) (hafter.constraints c)
  · exact eq_of_optionRel (fun _ _ => PosedProblem.Alike.eq_of_unchecked) (hafter.problems p)

/-- **The library demands to be active in the checked build, and only there.**  Let an operation be
one on constraints and problems, and let the session have what it names; its other arguments may be
anything.

If there are no activations, the operation ends in the fault of an inactive library in the checked
build.  No checker is called, and buffer, problems, guards and activations are as before, and so are
the constraints, except for one whose variables were to be set all at once: it is given up.

In the unchecked build the operation answers the same and leaves the same whatever the number of
activations is. -/
theorem step_of_inactive (session : Session τ κ) (operation : Operation τ κ)
    (hcalls : operation.callsIn session = true) :
    (session.library.activations = 0 →
      let after := (session.step .checked operation).2
      ((session.step .checked operation).1 = .error (.failed (.fault .inactive)) ∧
        Fault.inactive.message = "csp library is not active") ∧
      (after.memory.calls = #[] ∧ after.memory.callCount = 0 ∧
        after.memory.own = session.memory.own) ∧
      (after.library.activations = 0 ∧ after.guards = session.guards) ∧
      after.buffer = session.buffer ∧ after.problems = session.problems ∧
      ∀ c : Nat, after.constraints[c]?.map (·.constraint) =
        if operation.atStake? = some c then none
        else session.constraints[c]?.map (·.constraint)) ∧
    ∀ n, let after := (session.step .unchecked operation).2
      let after' := ((session.withActivations n).step .unchecked operation).2
      ((session.withActivations n).step .unchecked operation).1 =
          (session.step .unchecked operation).1 ∧
        (after'.library.activations = n ∧ after'.library.log = after.library.log) ∧
        after'.guards = after.guards ∧ after'.buffer = after.buffer ∧
        after'.memory = after.memory ∧
        (∀ c : Nat, after'.constraints[c]? = after.constraints[c]?) ∧
        ∀ p : Nat, after'.problems[p]? = after.problems[p]? := by
  refine ⟨fun hzero => ?_,
    session.step_withActivations (Operation.not_isAboutActivations hcalls)⟩
  have hzero' : session.opened.library.activations = 0 := hzero
  obtain ⟨left, hrefused, hleft⟩ := SessionStep.refusedOutright_of_inactive hzero' hcalls
  rw [step_of_error hrefused]
  exact ⟨⟨rfl, rfl⟩, ⟨hleft.calls, hleft.callCount, hleft.own⟩,
    ⟨hleft.activations.trans hzero, hleft.guards⟩, hleft.buffer, hleft.problems,
    hleft.constraints⟩

/-- A session that has posed a problem and is not active any more. -/
def retired : Session Unit Unit :=
  (start true ()).after .checked
    [.newConstraint 0 1 (.ofPure 0 fun _ _ _ => .ok true), .newProblem 0 1 1,
      .setConstraint 0 0 0, .setDomain 0 0 1, .setBuffer #[0], .deactivate]

/-- The checked build refuses to search, also from a start that the problem does not have; the
unchecked build searches without an activation as it does with five of them. -/
theorem step_of_inactive_retired :
    let search : Operation Unit Unit := .solve 0 { context := () }
    let late : Operation Unit Unit := .solve 0 { context := (), start := 2 }
    (retired.library.activations = 0 ∧ search.callsIn retired = true ∧
        late.callsIn retired = true) ∧
      (retired.step .checked search).1 = .error (.failed (.fault .inactive)) ∧
      (retired.step .checked late).1 = .error (.failed (.fault .inactive)) ∧
      ((retired.withActivations 5).step .unchecked search).1 =
        (retired.step .unchecked search).1 := by
  intro search late
  have hzero : retired.library.activations = 0 := by decide +kernel
  have hsearch : search.callsIn retired = true := by decide +kernel
  have hlate : late.callsIn retired = true := by decide +kernel
  obtain ⟨hrefused, hsame⟩ := step_of_inactive retired search hsearch
  obtain ⟨hrefused', -⟩ := step_of_inactive retired late hlate
  exact ⟨⟨hzero, hsearch, hlate⟩, (hrefused hzero).1.1, (hrefused' hzero).1.1, (hsame 5).1⟩

end Session

end ConstraintSearch
