import ConstraintSearch.Proofs.Problem.Operations
import ConstraintSearch.Proofs.Search.Builds
import ConstraintSearch.Proofs.Session.Step
import ConstraintSearch.Puzzle.Queens
import Mathlib.Data.List.Forall2

/-!
# Sessions in two builds

A step of a session is put together of operations that agree, so it agrees as well
(`SessionStep.agrees_perform`); and as long as no step meets a fault that the unchecked build spares,
the sessions stay alike (`Session.Alike.answers`).

## Strategy

* Constraints of alike sessions may have checkers of two forms, one for each build, so what the
  sessions hold is related by `HeldConstraint.Alike` and `PosedProblem.Alike`, number by number.
* The activations are linked by a relation that is left open (`counts`).  With equality the theorem
  about both builds comes out.  With any other relation the operations that do not ask for activations
  still agree, which is what sessions on an inactive library need.
* `SessionStep.Agrees` is closed under binding, so each operation is taken apart along its own `do`
  block, and its parts agree by what is known about constraints, problems and searches.
-/

namespace ConstraintSearch

variable {σ κ τ α α' β β' : Type} {build : Build} {counts : Nat → Nat → Prop}

/-! ## Sessions -/

/-- A constraint of a session in the two builds. -/
structure HeldConstraint.Alike (build : Build) (held held' : HeldConstraint τ κ) : Prop where
  constraint : held.constraint.Alike build held'.constraint
  frozen : held'.frozen = held.frozen

/-- A problem of a session in the two builds. -/
structure PosedProblem.Alike (build : Build) (posed posed' : PosedProblem τ κ) : Prop where
  problem : posed.problem.Alike build posed'.problem
  attached : posed'.attached = posed.attached

theorem HeldConstraint.Alike.eq_of_unchecked {held held' : HeldConstraint τ κ}
    (h : held.Alike .unchecked held') : held' = held := by
  obtain ⟨constraint, frozen⟩ := held
  obtain ⟨constraint', frozen'⟩ := held'
  obtain rfl : frozen' = frozen := h.frozen
  obtain rfl : constraint' = constraint := h.constraint.eq_of_unchecked
  rfl

theorem PosedProblem.Alike.eq_of_unchecked {posed posed' : PosedProblem τ κ}
    (h : posed.Alike .unchecked posed') : posed' = posed := by
  obtain ⟨problem, attached⟩ := posed
  obtain ⟨problem', attached'⟩ := posed'
  obtain rfl : attached' = attached := h.attached
  obtain rfl : problem' = problem := h.problem.eq_of_unchecked
  rfl

/-- The same session in the two builds, but for the activations: these are related as is said. -/
structure Session.Alike (build : Build) (counts : Nat → Nat → Prop)
    (session session' : Session τ κ) : Prop where
  library : Library.Alike counts session.library session'.library
  constraints : ∀ c : Nat,
    Option.Rel (HeldConstraint.Alike build) session.constraints[c]? session'.constraints[c]?
  problems : ∀ p : Nat,
    Option.Rel (PosedProblem.Alike build) session.problems[p]? session'.problems[p]?
  guards : session'.guards = session.guards
  buffer : session'.buffer = session.buffer
  memory : session'.memory = session.memory

/-- Whether the objection is made in the checked build only. -/
def Objection.isChecked : Objection → Bool
  | .failed failure => failure.isChecked
  | _ => false

/-- The unchecked build spares the objection, and the given build does not. -/
def Objection.Spared (build : Build) (objection : Objection) : Prop :=
  build = .checked ∧ objection.isChecked = true

theorem SessionMemory.recorded_agrees {checker checker' : Checker (SessionMemory τ) κ}
    (h : checker.Agrees build checker') : (recorded checker).Agrees build (recorded checker') where
  identity := h.identity
  check _ _ _ _ := h.check _ _ _ _

namespace SessionStep

/-- What a step does to a session in the given build is what the other one does to the same session
in the unchecked build. -/
def Agrees (build : Build) (counts : Nat → Nat → Prop) (values : α → α' → Prop)
    (step : SessionStep τ κ α) (step' : SessionStep τ κ α') : Prop :=
  ∀ session session', Session.Alike build counts session session' →
    Agree (Objection.Spared build) (Session.Alike build counts) values (step build session)
      (step' .unchecked session')

variable {values : α → α' → Prop} {outcomes : β → β' → Prop} {step : SessionStep τ κ α}
  {step' : SessionStep τ κ α'}

theorem Agrees.bind (h : step.Agrees build counts values step') {next : α → SessionStep τ κ β}
    {next' : α' → SessionStep τ κ β'}
    (hnext : ∀ value value', values value value' →
      (next value).Agrees build counts outcomes (next' value')) :
    Agrees build counts outcomes (step >>= next) (step' >>= next') := by
  intro session session' halike
  have hfirst := h session session' halike
  rw [bind_apply, bind_apply]
  generalize step build session = result, step' .unchecked session' = result' at hfirst
  cases hfirst with
  | ok hvalues hafter => exact hnext _ _ hvalues _ _ hafter
  | error hafter => exact .error hafter
  | spared _ hspared => exact .spared _ hspared

theorem Agrees.pure {value : α} {value' : α'} (h : values value value') :
    Agrees build counts values (Pure.pure value : SessionStep τ κ α)
      (Pure.pure value' : SessionStep τ κ α') :=
  fun _ _ halike => .ok h halike

/-- What is made of equal values is equal. -/
theorem Agrees.answer {step step' : SessionStep τ κ α} (h : step.Agrees build counts Eq step')
    (answer : α → β) :
    Agrees build counts Eq (do return answer (← step)) (do return answer (← step')) :=
  h.bind fun _ _ hvalue => .pure (congrArg answer hvalue)

/-- A last word that does not hang on what came before. -/
theorem Agrees.thenDone (h : step.Agrees build counts values step') (answer : β) :
    Agrees build counts Eq (do let _ ← step; return answer) (do let _ ← step'; return answer) :=
  h.bind fun _ _ _ => .pure rfl

/-- Steps for each of some items, one after the other. -/
theorem Agrees.forM {each each' : β → SessionStep τ κ Unit}
    (h : ∀ item, (each item).Agrees build counts Eq (each' item)) (items : List β) :
    Agrees build counts Eq (items.forM each) (items.forM each') := by
  induction items with
  | nil => exact .pure rfl
  | cons item items ih => exact (h item).bind fun _ _ _ => ih

theorem agrees_throw (objection : Objection) :
    Agrees build counts values (throw objection : SessionStep τ κ α)
      (throw objection : SessionStep τ κ α') :=
  fun _ _ halike => .error halike

theorem agrees_get :
    Agrees build counts (Session.Alike build counts) (get : SessionStep τ κ (Session τ κ))
      (get : SessionStep τ κ (Session τ κ)) :=
  fun _ _ halike => .ok halike halike

theorem agrees_modify {change change' : Session τ κ → Session τ κ}
    (h : ∀ session session', Session.Alike build counts session session' →
      Session.Alike build counts (change session) (change' session')) :
    Agrees build counts Eq (modify change : SessionStep τ κ Unit)
      (modify change' : SessionStep τ κ Unit) :=
  fun session session' halike => .ok rfl (h session session' halike)

theorem agrees_call {action : Action α} {action' : Action α'}
    (h : action.Agrees build counts values action') :
    Agrees build counts values (call action : SessionStep τ κ α)
      (call action' : SessionStep τ κ α') := by
  intro session session' halike
  have haction := h session.library session'.library halike.library
  unfold call
  generalize action build session.library = result,
    action' .unchecked session'.library = result' at haction
  cases haction with
  | ok hvalues hafter => exact .ok hvalues { halike with library := hafter }
  | error hafter => exact .error { halike with library := hafter }
  | spared other hspared => exact .spared _ hspared

theorem agrees_judge {verdict verdict' : EStateM Fault (SessionMemory τ) α}
    (h : ∀ memory, Agree (Fault.Spared build) Eq Eq (verdict memory) (verdict' memory)) :
    Agrees build counts Eq (judge verdict : SessionStep τ κ α)
      (judge verdict' : SessionStep τ κ α) := by
  intro session session' halike
  have hverdict := h session.memory
  unfold judge
  rw [halike.memory]
  generalize verdict session.memory = result, verdict' session.memory = result' at hverdict
  cases hverdict with
  | ok hvalues hafter => exact .ok hvalues { halike with memory := hafter.symm }
  | error hafter => exact .error { halike with memory := hafter.symm }
  | spared other hspared => exact .spared _ hspared

theorem agrees_searchBuffer {search : Search (SessionMemory τ) κ}
    {problem' : Problem (SessionMemory τ) κ} (h : search.problem.Alike build problem') :
    Agrees build counts Eq (searchBuffer search) (searchBuffer (search.withProblem problem')) := by
  intro session session' halike
  unfold searchBuffer
  rw [halike.buffer, halike.memory]
  -- Either the search ends in a fault that is spared, or both searches do the same.
  by_cases hspared : ∃ fault, fault.Spared build ∧
      (search.perform session.buffer session.memory build session.library).outcome = .error fault
  · obtain ⟨fault, hspared, hfault⟩ := hspared
    simp only [hfault]
    exact .spared _ hspared
  · obtain ⟨hactivations, hreport⟩ := h.perform halike.library.log
      fun fault hfault hfault' => hspared ⟨fault, hfault', hfault⟩
    rw [hreport]
    have hlibrary : Library.Alike counts
        (search.perform session.buffer session.memory build session.library).library
        { activations := session'.library.activations
          log := (search.perform session.buffer session.memory build session.library).library.log } :=
      ⟨hactivations ▸ halike.library.activations, rfl⟩
    generalize search.perform session.buffer session.memory build session.library = report
      at hlibrary ⊢
    obtain ⟨outcome, buffer, memory, library⟩ := report
    cases outcome with
    | ok result =>
        exact .ok rfl { halike with library := hlibrary, buffer := rfl, memory := rfl }
    | error fault =>
        exact .error { halike with library := hlibrary, buffer := rfl, memory := rfl }

/-! ### What a session holds -/

theorem agrees_constraint (c : Nat) :
    Agrees build counts (HeldConstraint.Alike build) (constraint c : SessionStep τ κ _)
      (constraint c : SessionStep τ κ _) := by
  refine agrees_get.bind fun session session' halike => ?_
  have hheld := halike.constraints c
  generalize session.constraints[c]? = held, session'.constraints[c]? = held' at hheld
  cases hheld with
  | some hheld => exact .pure hheld
  | none => exact agrees_throw _

theorem agrees_ownConstraint (c : Nat) :
    Agrees build counts (Constraint.Alike build) (ownConstraint c : SessionStep τ κ _)
      (ownConstraint c : SessionStep τ κ _) := by
  refine (agrees_constraint c).bind fun held held' hheld => ?_
  rw [hheld.frozen]
  by_cases hfrozen : held.frozen = true
  · simp only [if_pos hfrozen]
    exact fun _ _ halike => .error halike
  · simp only [if_neg hfrozen]
    exact .pure hheld.constraint

theorem agrees_problem (p : Nat) :
    Agrees build counts (PosedProblem.Alike build) (problem p : SessionStep τ κ _)
      (problem p : SessionStep τ κ _) := by
  refine agrees_get.bind fun session session' halike => ?_
  have hposed := halike.problems p
  generalize session.problems[p]? = posed, session'.problems[p]? = posed' at hposed
  cases hposed with
  | some hposed => exact .pure hposed
  | none => exact agrees_throw _

theorem agrees_keepConstraint (c : Nat) {held held' : HeldConstraint τ κ}
    (h : held.Alike build held') :
    Agrees build counts Eq (keepConstraint c held) (keepConstraint c held') := by
  refine agrees_modify fun session session' halike => { halike with constraints := fun d => ?_ }
  simp only [Std.TreeMap.getElem?_insert]
  split
  · exact .some h
  · exact halike.constraints d

/-- A constraint that the session owns is kept. -/
theorem agrees_keepOwn (c : Nat) {own own' : Constraint (SessionMemory τ) κ}
    (h : own.Alike build own') :
    Agrees build counts Eq (keepConstraint c { constraint := own })
      (keepConstraint c { constraint := own' }) :=
  agrees_keepConstraint c ⟨h, rfl⟩

theorem agrees_forgetConstraint (c : Nat) :
    Agrees build counts Eq (forgetConstraint c : SessionStep τ κ Unit)
      (forgetConstraint c : SessionStep τ κ Unit) := by
  refine agrees_modify fun session session' halike => { halike with constraints := fun d => ?_ }
  simp only [Std.TreeMap.getElem?_erase]
  split
  · exact .none
  · exact halike.constraints d

theorem agrees_releaseNumber (c : Nat) :
    Agrees build counts Eq (releaseNumber c : SessionStep τ κ Unit)
      (releaseNumber c : SessionStep τ κ Unit) := by
  refine agrees_modify fun session session' halike => { halike with problems := fun p => ?_ }
  simp only [Std.TreeMap.getElem?_map]
  have hposed := halike.problems p
  generalize session.problems[p]? = posed, session'.problems[p]? = posed' at hposed
  cases hposed with
  | some hposed =>
      refine .some ⟨hposed.problem, ?_⟩
      simp only [PosedProblem.withoutNumber, hposed.attached]
  | none => exact .none

theorem agrees_keepProblem (p : Nat) {problem problem' : Problem (SessionMemory τ) κ}
    (h : problem.Alike build problem') {attached attached' : Array (Option Nat)}
    (hattached : attached' = attached) :
    Agrees build counts Eq (keepProblem p { problem, attached })
      (keepProblem p { problem := problem', attached := attached' }) := by
  refine agrees_modify fun session session' halike => { halike with problems := fun q => ?_ }
  simp only [Std.TreeMap.getElem?_insert]
  split
  · exact .some ⟨h, hattached⟩
  · exact halike.problems q

theorem agrees_forgetProblem (p : Nat) :
    Agrees build counts Eq (forgetProblem p : SessionStep τ κ Unit)
      (forgetProblem p : SessionStep τ κ Unit) := by
  refine agrees_modify fun session session' halike => { halike with problems := fun q => ?_ }
  simp only [Std.TreeMap.getElem?_erase]
  split
  · exact .none
  · exact halike.problems q

/-! ### Whole operations -/

theorem agrees_shown (answer : Answer) :
    Agrees build counts Eq (shown answer : SessionStep τ κ Answer)
      (shown answer : SessionStep τ κ Answer) :=
  (agrees_call Action.agrees_requireActive).thenDone _

/-- What is told of a constraint is the same, if it does not hang on the form of the checker. -/
theorem agrees_toldOfConstraint (c : Nat) {answer : Constraint (SessionMemory τ) κ → Answer}
    (h : ∀ own own', own.Alike build own' → answer own' = answer own) :
    Agrees build counts Eq (do shown (answer (← constraint c).constraint) : SessionStep τ κ Answer)
      (do shown (answer (← constraint c).constraint)) := by
  refine (agrees_constraint c).bind fun held held' hheld => ?_
  rw [h _ _ hheld.constraint]
  exact agrees_shown _

/-- What is told of a problem is the same, if it does not hang on the forms of the checkers. -/
theorem agrees_toldOfProblem (p : Nat) {answer : Problem (SessionMemory τ) κ → Answer}
    (h : ∀ own own', own.Alike build own' → answer own' = answer own) :
    Agrees build counts Eq (do shown (answer (← problem p).problem) : SessionStep τ κ Answer)
      (do shown (answer (← problem p).problem)) := by
  refine (agrees_problem p).bind fun posed posed' hposed => ?_
  rw [h _ _ hposed.problem]
  exact agrees_shown _

theorem agrees_newGuard (g : Nat) :
    Agrees build Eq Eq (newGuard g : SessionStep τ κ Answer)
      (newGuard g : SessionStep τ κ Answer) := by
  have hhold : Action.hold.Agrees build Eq Eq Action.hold := Action.agrees_of_blind fun _ => rfl
  have hinsert : ∀ session session' : Session τ κ, Session.Alike build Eq session session' →
      Session.Alike build Eq { session with guards := session.guards.insert g () }
        { session' with guards := session'.guards.insert g () } :=
    fun _ _ halike => { halike with guards := congrArg (·.insert g ()) halike.guards }
  refine (agrees_call hhold).bind fun _ _ _ => ?_
  refine agrees_get.bind fun session session' halike => ?_
  rw [halike.guards]
  by_cases hheld : session.guards.contains g = true
  · simp only [if_pos hheld]
    refine (agrees_call Action.agrees_release).bind fun _ _ _ => ?_
    exact (agrees_modify hinsert).thenDone _
  · simp only [if_neg hheld]
    exact (agrees_modify hinsert).thenDone _

theorem agrees_dropGuard (g : Nat) :
    Agrees build Eq Eq (dropGuard g : SessionStep τ κ Answer)
      (dropGuard g : SessionStep τ κ Answer) := by
  have herase : ∀ session session' : Session τ κ, Session.Alike build Eq session session' →
      Session.Alike build Eq { session with guards := session.guards.erase g }
        { session' with guards := session'.guards.erase g } :=
    fun _ _ halike => { halike with guards := congrArg (·.erase g) halike.guards }
  refine agrees_get.bind fun session session' halike => ?_
  rw [halike.guards]
  by_cases hfree : (!session.guards.contains g) = true
  · simp only [if_pos hfree]
    exact fun _ _ halike => .error halike
  · simp only [if_neg hfree]
    refine (agrees_modify herase).bind fun _ _ _ => ?_
    exact (agrees_call Action.agrees_release).thenDone _

theorem agrees_newConstraint (c arity : Nat) {checker checker' : Checker (SessionMemory τ) κ}
    (h : checker.Agrees build checker') :
    Agrees build counts Eq (newConstraint c arity checker) (newConstraint c arity checker') := by
  refine (agrees_call (Constraint.Alike.create (SessionMemory.recorded_agrees h) arity)).bind
    fun made made' hmade => ?_
  refine agrees_get.bind fun session session' halike => ?_
  have hkeep : Agrees build counts Eq
      (do keepConstraint c { constraint := made }
          return Answer.done : SessionStep τ κ Answer)
      (do keepConstraint c { constraint := made' }
          return Answer.done) :=
    (agrees_keepOwn c hmade).thenDone _
  have hheld := halike.constraints c
  generalize session.constraints[c]? = held, session'.constraints[c]? = held' at hheld
  -- The constraint that had the number is given up if it is owned; a lent one only loses the
  -- number.
  cases hheld with
  | none => exact hkeep
  | some hheld =>
      rename_i held held'
      obtain ⟨before, frozen⟩ := held
      obtain ⟨before', frozen'⟩ := held'
      obtain rfl : frozen' = frozen := hheld.frozen
      cases frozen' with
      | false => exact (agrees_call hheld.constraint.drop).bind fun _ _ _ => hkeep
      | true => exact (agrees_releaseNumber c).bind fun _ _ _ => hkeep

theorem agrees_newProblem (p domains slots : Nat) :
    Agrees build counts Eq (perform (.newProblem p domains slots) : SessionStep τ κ Answer)
      (perform (.newProblem p domains slots) : SessionStep τ κ Answer) := by
  refine (agrees_call (Problem.Alike.create domains slots)).bind fun made made' hmade => ?_
  refine agrees_get.bind fun session session' halike => ?_
  have hkeep : Agrees build counts Eq
      (do keepProblem p { problem := made, attached := Array.replicate slots none }
          return Answer.done : SessionStep τ κ Answer)
      (do keepProblem p { problem := made', attached := Array.replicate slots none }
          return Answer.done) :=
    (agrees_keepProblem p hmade rfl).thenDone _
  have hposed := halike.problems p
  generalize session.problems[p]? = posed, session'.problems[p]? = posed' at hposed
  cases hposed with
  | none => exact hkeep
  | some hposed => exact (agrees_call hposed.problem.drop).bind fun _ _ _ => hkeep

theorem agrees_setDomain (p index size : Nat) :
    Agrees build counts Eq (setDomain p index size : SessionStep τ κ Unit)
      (setDomain p index size : SessionStep τ κ Unit) := by
  refine (agrees_problem p).bind fun posed posed' hposed => ?_
  refine (agrees_call (hposed.problem.setDomain index size)).bind fun changed changed' h => ?_
  exact agrees_keepProblem p h hposed.attached

theorem agrees_setDomains (p : Nat) (sizes : List Nat) :
    Agrees build counts Eq (setDomains p sizes : SessionStep τ κ Answer)
      (setDomains p sizes : SessionStep τ κ Answer) := by
  refine Agrees.thenDone (Agrees.forM (fun entry => ?_) _) _
  obtain ⟨size, index⟩ := entry
  exact agrees_setDomain p index size

theorem agrees_setConstraint (p index c : Nat) :
    Agrees build counts Eq (setConstraint p index c : SessionStep τ κ Answer)
      (setConstraint p index c : SessionStep τ κ Answer) := by
  refine (agrees_constraint c).bind fun held held' hheld => ?_
  refine (agrees_problem p).bind fun posed posed' hposed => ?_
  have hfrozen : HeldConstraint.Alike build { held with frozen := true }
      { held' with frozen := true } := ⟨hheld.constraint, rfl⟩
  refine (agrees_keepConstraint c hfrozen).bind fun _ _ _ => ?_
  refine (agrees_call (hposed.problem.setConstraint hheld.constraint index)).bind
    fun changed changed' h => ?_
  have hattached := congrArg (·.setIfInBounds index (some c)) hposed.attached
  exact (agrees_keepProblem p h hattached).thenDone _

theorem agrees_search (p : Nat) (order : SearchOrder κ) :
    Agrees build counts Eq (search p order : SessionStep τ κ Result)
      (search p order : SessionStep τ κ Result) := by
  refine (agrees_problem p).bind fun posed posed' hposed => ?_
  have hflag : ∀ session session' : Session τ κ, Session.Alike build counts session session' →
      Session.Alike build counts
        { session with memory := order.memory session.memory }
        { session' with memory := order.memory session'.memory } :=
    fun _ _ halike => { halike with memory := congrArg order.memory halike.memory }
  exact (agrees_modify hflag).bind fun _ _ _ => agrees_searchBuffer hposed.problem

theorem agrees_isConsistent (p : Nat) (assignment : Array Nat) (context : κ) (frontier : Nat) :
    Agrees build counts Eq
      (perform (.isConsistent p assignment context frontier) : SessionStep τ κ Answer)
      (perform (.isConsistent p assignment context frontier) : SessionStep τ κ Answer) := by
  refine (agrees_problem p).bind fun posed posed' hposed => ?_
  refine (agrees_call Action.agrees_requireActive).bind fun _ _ _ => ?_
  refine (agrees_judge fun memory => ?_).answer _
  by_cases hspared : ∃ fault, fault.Spared build ∧
      (posed.problem.scan assignment context frontier memory).answer = .error fault
  · obtain ⟨fault, hspared, hfault⟩ := hspared
    simp only [hfault]
    exact .spared _ hspared
  · rw [hposed.problem.scan fun fault hfault hfault' => hspared ⟨fault, hfault', hfault⟩]
    exact .refl _

end SessionStep

/-- The operation changes the activations, or it tells something about them. -/
def Operation.isAboutActivations : Operation τ κ → Bool
  | .activate | .deactivate | .isActive | .newGuard _ | .dropGuard _ => true
  | _ => false

/-- The same operation in the two builds. -/
inductive Operation.Alike (build : Build) : Operation τ κ → Operation τ κ → Prop where
  | newConstraint (c arity : Nat) {checker checker' : Checker (SessionMemory τ) κ}
      (h : checker.Agrees build checker') :
      Operation.Alike build (.newConstraint c arity checker) (.newConstraint c arity checker')
  | refl (operation : Operation τ κ) : Operation.Alike build operation operation

namespace SessionStep

theorem agrees_aboutActivations {operation : Operation τ κ}
    (habout : operation.isAboutActivations = true) :
    Agrees build Eq Eq (perform operation) (perform operation) := by
  have hblind : ∀ action : Action Bool,
      (∀ library, action build library = action .unchecked library) →
        Agrees build Eq Eq (do return Answer.flag (← call action) : SessionStep τ κ Answer)
          (do return Answer.flag (← call action) : SessionStep τ κ Answer) :=
    fun _ h => (agrees_call (Action.agrees_of_blind h)).answer _
  -- These three read and change the activations in the same way in both builds; only a guard that
  -- is given up asks for more in the checked one.
  cases operation with
  | activate => exact hblind _ fun _ => rfl
  | deactivate => exact hblind _ fun _ => rfl
  | isActive => exact hblind _ fun _ => rfl
  | newGuard g => exact agrees_newGuard g
  | dropGuard g => exact agrees_dropGuard g
  | _ => cases habout

theorem agrees_perform {operation operation' : Operation τ κ}
    (h : operation.Alike build operation')
    (hcounts : operation.isAboutActivations = true → counts = Eq) :
    Agrees build counts Eq (perform operation) (perform operation') := by
  cases h with
  | newConstraint c arity h => exact agrees_newConstraint c arity h
  | refl =>
      cases operation with
      -- What depends on the number of activations agrees only where this number is the same.
      | activate | deactivate | isActive | newGuard _ | dropGuard _ =>
          obtain rfl := hcounts rfl
          exact agrees_aboutActivations rfl
      | newConstraint c arity checker => exact agrees_newConstraint c arity (.refl checker)
      | withVariables c scope =>
          refine (agrees_ownConstraint c).bind fun own own' hown => ?_
          refine (agrees_forgetConstraint c).bind fun _ _ _ => ?_
          refine (agrees_call (hown.withVariables scope)).bind fun made made' hmade => ?_
          exact (agrees_keepOwn c hmade).thenDone _
      | setVariable c index v =>
          refine (agrees_ownConstraint c).bind fun own own' hown => ?_
          refine (agrees_call (hown.setVariable index v)).bind fun made made' hmade => ?_
          exact (agrees_keepOwn c hmade).thenDone _
      | variableAt c index =>
          refine (agrees_constraint c).bind fun held held' hheld => ?_
          exact (agrees_call (hheld.constraint.variableAt index)).answer _
      | scope c =>
          exact agrees_toldOfConstraint c fun _ _ h => congrArg Answer.numbers h.scope
      | arity c =>
          exact agrees_toldOfConstraint c fun _ _ h => congrArg Answer.number h.arity
      | maxVariable c =>
          exact agrees_toldOfConstraint c fun _ _ h => congrArg Answer.number h.maxVariable
      | isApplicable c frontier =>
          exact agrees_toldOfConstraint c fun _ _ h => congrArg Answer.flag (h.isApplicable frontier)
      | describeConstraint c =>
          refine (agrees_constraint c).bind fun held held' hheld => ?_
          rw [hheld.constraint.outline]
          exact .pure rfl
      | check c assignment context =>
          refine (agrees_constraint c).bind fun held held' hheld => ?_
          refine (agrees_call Action.agrees_requireActive).bind fun _ _ _ => ?_
          exact (agrees_judge (hheld.constraint.check assignment context)).answer _
      | sameChecker c d =>
          refine (agrees_constraint d).bind fun other other' hother => ?_
          refine (agrees_constraint c).bind fun one one' hone => ?_
          rw [hone.constraint.checker.identity, hother.constraint.checker.identity]
          exact agrees_shown _
      | dropConstraint c =>
          refine (agrees_ownConstraint c).bind fun own own' hown => ?_
          refine (agrees_forgetConstraint c).bind fun _ _ _ => ?_
          exact (agrees_call hown.drop).thenDone _
      | newProblem p domains slots => exact agrees_newProblem p domains slots
      | variableCount p =>
          exact agrees_toldOfProblem p fun _ _ h => congrArg (Answer.number ·.size) h.domains
      | slotCount p =>
          exact agrees_toldOfProblem p fun _ _ h => congrArg Answer.number h.size_slots
      | domains p =>
          exact agrees_toldOfProblem p fun _ _ h => congrArg (Answer.numbers ·.toList) h.domains
      | setDomain p index size => exact (agrees_setDomain p index size).thenDone _
      | setDomains p sizes =>
          refine (agrees_problem p).bind fun posed posed' hposed => ?_
          exact (agrees_call Action.agrees_requireActive).bind fun _ _ _ => agrees_setDomains p sizes
      | setAllDomains p size =>
          refine (agrees_problem p).bind fun posed posed' hposed => ?_
          rw [hposed.problem.domains]
          exact (agrees_call Action.agrees_requireActive).bind fun _ _ _ => agrees_setDomains p _
      | domainAt p index =>
          refine (agrees_problem p).bind fun posed posed' hposed => ?_
          exact (agrees_call (hposed.problem.domainAt index)).answer _
      | setConstraint p index c => exact agrees_setConstraint p index c
      | constraintAt p index =>
          refine (agrees_problem p).bind fun posed posed' hposed => ?_
          rw [hposed.attached]
          exact (agrees_call (hposed.problem.constraintAt index)).thenDone _
      | validate p =>
          refine (agrees_problem p).bind fun posed posed' hposed => ?_
          exact (agrees_call hposed.problem.validate).thenDone _
      | describeProblem p tall =>
          refine (agrees_problem p).bind fun posed posed' hposed => ?_
          rw [hposed.problem.outline]
          exact .pure rfl
      | dropProblem p =>
          refine (agrees_problem p).bind fun posed posed' hposed => ?_
          refine (agrees_forgetProblem p).bind fun _ _ _ => ?_
          exact (agrees_call hposed.problem.drop).thenDone _
      | isConsistent p assignment context frontier =>
          exact agrees_isConsistent p assignment context frontier
      | setBuffer assignment =>
          refine (agrees_modify fun _ _ halike => ?_).thenDone _
          exact { halike with buffer := rfl }
      | solve p order =>
          exact (agrees_search p order).answer fun result => Answer.flag result.isSolved
      | search p order => exact (agrees_search p order).answer _

end SessionStep

/-! ## The test on diagonals -/

namespace Queens

/-- The test on a pair of queens is the same in both builds, unless one of its sums leaves the range
of words. -/
theorem compatible_unchecked {rows : List Nat} {columns : Array Nat}
    (hspared : Fault.Unspared build (compatible build rows columns)) :
    compatible .unchecked rows columns = compatible build rows columns := by
  unfold compatible at hspared ⊢
  refine Fault.bind_unchecked Fault.not_spared_of_error hspared (fun _ => rfl)
    fun row₀ hspared => ?_
  refine Fault.bind_unchecked Fault.not_spared_of_error hspared (fun _ => rfl)
    fun row₁ hspared => ?_
  refine Fault.bind_unchecked Fault.not_spared_of_error hspared (fun _ => rfl)
    fun column₀ hspared => ?_
  refine Fault.bind_unchecked Fault.not_spared_of_error hspared (fun _ => rfl)
    fun column₁ hspared => ?_
  by_cases hcolumns : column₀ = column₁
  · simp only [if_pos hcolumns]
  · simp only [if_neg hcolumns] at hspared ⊢
    refine Fault.bind_unchecked Fault.not_spared_of_error hspared Build.add_unchecked
      fun falling₀ hspared => ?_
    refine Fault.bind_unchecked Fault.not_spared_of_error hspared Build.add_unchecked
      fun falling₁ hspared => ?_
    by_cases hfalling : falling₀ = falling₁
    · simp only [if_pos hfalling]
    · simp only [if_neg hfalling] at hspared ⊢
      refine Fault.bind_unchecked Fault.not_spared_of_error hspared Build.add_unchecked
        fun rising₀ hspared => ?_
      exact Fault.bind_unchecked Fault.not_spared_of_error hspared Build.add_unchecked
        fun rising₁ _ => rfl

end Queens

/-! ## Sequences of operations -/

namespace Session

variable {session session' : Session τ κ} {operation operation' : Operation τ κ}
  {operations operations' : List (Operation τ κ)}

/-- The session with another number of activations. -/
def withActivations (session : Session τ κ) (n : Nat) : Session τ κ :=
  { session with library := { session.library with activations := n } }

theorem Alike.of_counts (build : Build) (session : Session τ κ) {n : Nat}
    (h : counts session.library.activations n) :
    session.Alike build counts (session.withActivations n) where
  library := ⟨h, rfl⟩
  constraints := by
    intro c
    show Option.Rel _ session.constraints[c]? session.constraints[c]?
    cases session.constraints[c]? with
    | none => exact .none
    | some held => exact .some ⟨.refl _, rfl⟩
  problems := by
    intro p
    show Option.Rel _ session.problems[p]? session.problems[p]?
    cases session.problems[p]? with
    | none => exact .none
    | some posed => exact .some ⟨.refl _, rfl⟩
  guards := rfl
  buffer := rfl
  memory := rfl

theorem Alike.opened (h : session.Alike build counts session') :
    session.opened.Alike build counts session'.opened :=
  { h with
    library := ⟨h.library.activations, rfl⟩
    memory := congrArg SessionMemory.forgetCalls h.memory }

/-- Unless the objection to an operation is spared, the answer to it is the same, and the sessions
stay alike. -/
theorem Alike.step (h : session.Alike build counts session')
    (hoperation : operation.Alike build operation')
    (hcounts : operation.isAboutActivations = true → counts = Eq)
    (hspared : ∀ objection, (session.step build operation).1 = .error objection →
      ¬objection.Spared build) :
    (session'.step .unchecked operation').1 = (session.step build operation).1 ∧
      (session.step build operation).2.Alike build counts
        (session'.step .unchecked operation').2 := by
  have hagree := SessionStep.agrees_perform hoperation hcounts _ _ h.opened
  generalize hresult : SessionStep.perform operation build session.opened = result at hagree
  generalize hresult' : SessionStep.perform operation' .unchecked session'.opened = result' at hagree
  cases hagree with
  | ok hvalues hafter =>
      rw [step_of_ok hresult, step_of_ok hresult', hvalues]
      exact ⟨rfl, hafter⟩
  | error hafter =>
      rw [step_of_error hresult, step_of_error hresult']
      exact ⟨rfl, hafter⟩
  | spared _ herror =>
      rw [step_of_error hresult] at hspared
      exact absurd herror (hspared _ rfl)

/-- The answer is an objection that only the checked build makes. -/
def isSpared : Except Objection Answer → Bool
  | .error objection => objection.isChecked
  | .ok _ => false

/-- Unless an objection is spared, all operations are answered the same, and after each of them the
sessions are alike. -/
theorem Alike.answers (h : session.Alike .checked Eq session')
    (halike : List.Forall₂ (Operation.Alike .checked) operations operations')
    (hspared : ∀ entry ∈ session.answers .checked operations, isSpared entry.2 = false) :
    (session'.answers .unchecked operations').map Prod.snd =
        (session.answers .checked operations).map Prod.snd ∧
      ∀ n, (session.after .checked (operations.take n)).Alike .checked Eq
        (session'.after .unchecked (operations'.take n)) := by
  induction halike generalizing session session' with
  | nil =>
      refine ⟨rfl, fun n => ?_⟩
      rw [List.take_nil]
      exact h
  | @cons operation operation' _ _ hoperation _ ih =>
      obtain ⟨hhead, htail⟩ := List.forall_mem_cons.1 hspared
      obtain ⟨hanswer, hafter⟩ := h.step hoperation (fun _ => rfl) (by
        intro objection hobjection hspared
        have hhead' : isSpared (session.step .checked operation).1 = false := hhead
        rw [hobjection] at hhead'
        exact Bool.false_ne_true (hhead'.symm.trans hspared.2))
      obtain ⟨hanswers, hsessions⟩ := ih hafter htail
      refine ⟨?_, fun n => ?_⟩
      · show _ :: _ = _ :: _
        rw [hanswer, hanswers]
      · cases n with
        | zero => exact h
        | succ n => exact hsessions n

/-- **Checked and unchecked builds agree.**  Let a session carry out any operations in the checked
build, and the same ones in the unchecked build, with the form of each checker that belongs to the
build.  If no operation in the checked build meets a fault of this build alone, that is an inactive
library, a constraint with a variable that its problem does not have, a guard without an activation,
or a sum that leaves the range of words, then each is answered the same in the unchecked build, be it
by a value, a refusal or another fault.  After every operation the messages reported by it, the
activations, the guards, the buffer and the memory are the same, and so are the constraints and the
problems, but for the forms of their checkers.

The test on diagonals, which adds up words, has two forms of this kind.  And where the turns of a
search are worked out in words, each of them is the same in both builds as well. -/
theorem builds_agree (active : Bool) (own : τ)
    (halike : List.Forall₂ (Operation.Alike .checked) operations operations')
    (hspared : ∀ entry ∈ (start active own : Session τ κ).answers .checked operations,
      isSpared entry.2 = false) :
    let session : Session τ κ := start active own
    ((session.answers .unchecked operations').map Prod.snd =
        (session.answers .checked operations).map Prod.snd) ∧
      (∀ n, let checked := session.after .checked (operations.take n)
        let unchecked := session.after .unchecked (operations'.take n)
        unchecked.library = checked.library ∧ unchecked.guards = checked.guards ∧
          unchecked.buffer = checked.buffer ∧ unchecked.memory = checked.memory ∧
          (∀ c : Nat, Option.Rel (HeldConstraint.Alike .checked) checked.constraints[c]?
            unchecked.constraints[c]?) ∧
          ∀ p : Nat, Option.Rel (PosedProblem.Alike .checked) checked.problems[p]?
            unchecked.problems[p]?) ∧
      (∀ identity, (Checker.ofPure identity fun rows columns _ =>
          Queens.compatible .checked rows columns : Checker (SessionMemory τ) κ).Agrees .checked
        (.ofPure identity fun rows columns _ => Queens.compatible .unchecked rows columns)) ∧
      ∀ (search : Search (SessionMemory τ) κ) (problem' : Problem (SessionMemory τ) κ),
        search.problem.Alike .checked problem' →
          ∀ state, Turn.Unspared .checked (search.machine.stepInWords .checked state) →
            (search.withProblem problem').machine.stepInWords .unchecked state =
              search.machine.stepInWords .checked state := by
  intro session
  have hrefl : session.Alike .checked Eq session := .of_counts .checked session rfl
  obtain ⟨hanswers, hsessions⟩ := hrefl.answers halike hspared
  refine ⟨hanswers, fun n => ?_, fun identity => ?_, fun search problem' hproblem state hturn => ?_⟩
  · have hafter := hsessions n
    -- Where the activations are linked by equality, alike states of the library are equal.
    have hlibrary : (session.after .unchecked (operations'.take n)).library =
        (session.after .checked (operations.take n)).library := by
      have hactivations := hafter.library.activations
      have hlog := hafter.library.log
      generalize (session.after .checked (operations.take n)).library = library,
        (session.after .unchecked (operations'.take n)).library = library' at hactivations hlog ⊢
      obtain ⟨activations, log⟩ := library
      obtain ⟨activations', log'⟩ := library'
      obtain rfl : activations = activations' := hactivations
      obtain rfl : log' = log := hlog
      rfl
    exact ⟨hlibrary, hafter.guards, hafter.buffer, hafter.memory, hafter.constraints,
      hafter.problems⟩
  · exact Checker.agrees_ofPure fun _ _ _ => Queens.compatible_unchecked
  · exact hproblem.machine.stepInWords hturn

/-- Two queens on three columns, each build with its own test on diagonals. -/
def twoQueens (build : Build) : List (Operation Unit Unit) :=
  [.newConstraint 0 2 (.ofPure 0 fun rows columns _ => Queens.compatible build rows columns),
    .withVariables 0 [0, 1], .newProblem 0 2 1, .setDomains 0 [3, 3], .setConstraint 0 0 0,
    .setBuffer #[0, 0], .search 0 { context := () }]

/-- Neither build finds fault with the search, and both leave the queens in the first and the last
column. -/
theorem builds_agree_twoQueens :
    let session : Session Unit Unit := start true ()
    List.Forall₂ (Operation.Alike .checked) (twoQueens .checked) (twoQueens .unchecked) ∧
      (∀ entry ∈ session.answers .checked (twoQueens .checked), isSpared entry.2 = false) ∧
      (session.after .unchecked (twoQueens .unchecked)).buffer = #[0, 2] := by
  intro session
  have halike : List.Forall₂ (Operation.Alike .checked) (twoQueens .checked)
      (twoQueens .unchecked) := by
    refine .cons (.newConstraint _ _ ?_) ?_
    · exact Checker.agrees_ofPure fun _ _ _ => Queens.compatible_unchecked
    · exact List.forall₂_same.2 fun operation _ => .refl operation
  have hspared : ∀ entry ∈ session.answers .checked (twoQueens .checked),
      isSpared entry.2 = false := by decide +kernel
  obtain ⟨-, hsessions, -⟩ := builds_agree true () halike hspared
  obtain ⟨-, -, hbuffer, -⟩ := hsessions 7
  exact ⟨halike, hspared, hbuffer.trans (by decide +kernel)⟩

end Session

end ConstraintSearch
