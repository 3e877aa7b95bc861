import ConstraintSearch.Proofs.Action
import ConstraintSearch.Proofs.Problem.Builds

/-!
# Operations in two builds

`Action.Agrees` says of two operations that they do the same to the same library, the one in a given
build and the other in the unchecked build, unless this spares a failure.  Operations that agree can be
followed by operations that do (`Agrees.bind`), so it is shown part by part.

The libraries of the two sides may differ in their activations, since only the operations on
activations and guards make anything of them but a fault that is spared.  For these operations the
activations have to be equal.

## Layout

* `Agrees.bind`, `Agrees.pure`, `Agrees.unlessRefused`: how statements are put together.
* `agrees_record`, `agrees_require`, `agrees_requireChecked`: the steps that operations are made of.
  Only the last may differ, and what it differs in is spared.
* Constraints and problems: one statement for each operation, along its definition.
-/

namespace ConstraintSearch

variable {σ κ α α' β β' : Type} {build : Build} {counts : Nat → Nat → Prop}

/-! ## Operations of the library -/

/-- Whether the failure is met in the checked build only. -/
def Failure.isChecked : Failure → Bool
  | .fault broken => broken.isChecked
  | .problem _ => false

/-- The unchecked build spares the failure, and the given build does not. -/
def Failure.Spared (build : Build) (failure : Failure) : Prop :=
  build = .checked ∧ failure.isChecked = true

/-- The same library in two builds, but for the activations: these are related as is said. -/
structure Library.Alike (counts : Nat → Nat → Prop) (library library' : Library) : Prop where
  activations : counts library.activations library'.activations
  log : library'.log = library.log

namespace Action

/-- What an operation does to a library in the given build is what the other one does to the same
library in the unchecked build. -/
def Agrees (build : Build) (counts : Nat → Nat → Prop) (values : α → α' → Prop)
    (action : Action α) (action' : Action α') : Prop :=
  ∀ library library', Library.Alike counts library library' →
    Agree (Failure.Spared build) (Library.Alike counts) values (action build library)
      (action' .unchecked library')

variable {values : α → α' → Prop} {outcomes : β → β' → Prop} {action : Action α}
  {action' : Action α'}

theorem Agrees.bind (h : action.Agrees build counts values action') {next : α → Action β}
    {next' : α' → Action β'}
    (hnext : ∀ value value', values value value' →
      (next value).Agrees build counts outcomes (next' value')) :
    Agrees build counts outcomes (action >>= next) (action' >>= next') := by
  intro library library' halike
  have hfirst := h library library' halike
  rw [bind_apply, bind_apply]
  generalize action build library = result, action' .unchecked library' = result' at hfirst
  cases hfirst with
  | ok hvalues hafter => exact hnext _ _ hvalues _ _ hafter
  | error hafter => exact .error hafter
  | spared _ hspared => exact .spared _ hspared

theorem Agrees.pure {value : α} {value' : α'} (h : values value value') :
    Agrees build counts values (Pure.pure value) (Pure.pure value') :=
  fun _ _ halike => .ok h halike

theorem agrees_broken (fault : Fault) :
    Agrees build counts values (broken fault) (broken fault) :=
  fun _ _ halike => .error halike

theorem agrees_refused (error : ProblemError) :
    Agrees build counts values (refused error) (refused error) :=
  fun _ _ halike => .error halike

/-- A refusal that hangs on the same condition. -/
theorem Agrees.unlessRefused {condition : Prop} [Decidable condition] {error : ProblemError}
    {next : Unit → Action α} {next' : Unit → Action α'}
    (h : (next ()).Agrees build counts values (next' ())) :
    Agrees build counts values (if condition then refused error >>= next else next ())
      (if condition then refused error >>= next' else next' ()) := by
  by_cases hrefused : condition
  · rw [if_pos hrefused, if_pos hrefused]
    exact fun _ _ halike => .error halike
  · rw [if_neg hrefused, if_neg hrefused]
    exact h

theorem agrees_record (message : Message) :
    Agrees build counts Eq (record message) (record message) :=
  fun _ _ halike => .ok rfl ⟨halike.activations, congrArg (·.push message) halike.log⟩

theorem agrees_ofExcept (result : Except Fault α) :
    Agrees build counts Eq (ofExcept result) (ofExcept result) := by
  cases result with
  | ok value => exact .pure rfl
  | error fault => exact agrees_broken fault

theorem agrees_require (condition : Bool) (fault : Fault) :
    Agrees build counts Eq (require condition fault) (require condition fault) := by
  cases condition with
  | true => exact .pure rfl
  | false => exact agrees_broken fault

/-- What only the checked build tests may be different things. -/
theorem agrees_requireChecked {fault : Fault} (hfault : fault.isChecked = true)
    (condition condition' : Bool) (fault' : Fault) :
    Agrees build counts Eq (requireChecked condition fault) (requireChecked condition' fault') := by
  intro library library' halike
  have hunchecked : ¬(Build.unchecked = .checked ∧ condition' = false) := fun h => nomatch h.1
  rw [requireChecked_apply, requireChecked_apply, if_neg hunchecked]
  -- The unchecked build goes on in any case.  The given build does too, or its refusal is one that
  -- is spared.
  by_cases hrefused : build = .checked ∧ condition = false
  · rw [if_pos hrefused]
    exact .spared _ ⟨hrefused.1, hfault⟩
  · rw [if_neg hrefused]
    exact .ok rfl halike

theorem agrees_requireActive : Agrees build counts Eq requireActive requireActive :=
  fun library library' halike =>
    agrees_requireChecked rfl library.isActive library'.isActive .inactive library library' halike

theorem Agrees.onFailure (h : action.Agrees build counts values action') (message : Message) :
    Agrees build counts values (action.onFailure (record message))
      (action'.onFailure (record message)) := by
  intro library library' halike
  have hfirst := h library library' halike
  unfold Action.onFailure
  generalize action build library = result, action' .unchecked library' = result' at hfirst
  cases hfirst with
  | ok hvalues hafter => exact .ok hvalues hafter
  | error hafter => exact .error ⟨hafter.activations, congrArg (·.push message) hafter.log⟩
  | spared _ hspared => exact .spared _ hspared

/-- An operation that does not look at the build does the same to the same library. -/
theorem agrees_of_blind {action : Action α}
    (hblind : ∀ library, action build library = action .unchecked library) :
    Agrees build Eq Eq action action := by
  rintro ⟨activations, log⟩ ⟨activations', log'⟩ ⟨hactivations, hlog⟩
  obtain rfl : activations = activations' := hactivations
  obtain rfl : log' = log := hlog
  rw [hblind]
  cases action .unchecked ⟨activations, log'⟩ with
  | ok value after => exact .ok rfl ⟨rfl, rfl⟩
  | error failure after => exact .error ⟨rfl, rfl⟩

theorem agrees_release : Agrees build Eq Eq release release :=
  have hended : deactivate.Agrees build Eq Eq deactivate := agrees_of_blind fun _ => rfl
  hended.bind fun ended ended' _ => agrees_requireChecked rfl ended ended' .unbalancedRelease

end Action

/-! ## Operations on constraints and problems -/

namespace Constraint.Alike

variable {constraint constraint' : Constraint σ κ}

theorem create {checker checker' : Checker σ κ} (h : checker.Agrees build checker') (arity : Nat) :
    Action.Agrees build counts (Constraint.Alike build) (Constraint.create arity checker)
      (Constraint.create arity checker') := by
  refine Action.agrees_requireActive.bind fun _ _ _ => ?_
  refine (Action.agrees_require _ _).bind fun _ _ _ => ?_
  refine Action.Agrees.unlessRefused ?_
  exact (Action.agrees_record _).bind fun _ _ _ => .pure ⟨rfl, h⟩

theorem drop (h : constraint.Alike build constraint') :
    Action.Agrees build counts Eq constraint.drop constraint'.drop := by
  unfold Constraint.drop
  rw [h.arity]
  exact Action.agrees_record _

theorem withVariables (h : constraint.Alike build constraint') (scope : List Nat) :
    Action.Agrees build counts (Constraint.Alike build) (constraint.withVariables scope)
      (constraint'.withVariables scope) := by
  unfold Constraint.withVariables Constraint.drop
  simp only [h.arity]
  refine Action.Agrees.onFailure ?_ _
  refine Action.agrees_requireActive.bind fun _ _ _ => ?_
  exact (Action.agrees_require _ _).bind fun _ _ _ => .pure ⟨rfl, h.checker⟩

theorem setVariable (h : constraint.Alike build constraint') (index v : Nat) :
    Action.Agrees build counts (Constraint.Alike build) (constraint.setVariable index v)
      (constraint'.setVariable index v) := by
  unfold Constraint.setVariable
  simp only [h.arity, h.scope]
  refine Action.agrees_requireActive.bind fun _ _ _ => ?_
  exact (Action.agrees_require _ _).bind fun _ _ _ => .pure ⟨rfl, h.checker⟩

theorem variableAt (h : constraint.Alike build constraint') (index : Nat) :
    Action.Agrees build counts Eq (constraint.variableAt index) (constraint'.variableAt index) := by
  unfold Constraint.variableAt
  rw [h.scope]
  exact Action.agrees_requireActive.bind fun _ _ _ => Action.agrees_ofExcept _

end Constraint.Alike

namespace Problem.Alike

variable {problem problem' : Problem σ κ}

theorem create (domains slots : Nat) :
    Action.Agrees build counts (Problem.Alike (σ := σ) (κ := κ) build)
      (Problem.create domains slots) (Problem.create domains slots) := by
  refine Action.agrees_requireActive.bind fun _ _ _ => ?_
  refine (Action.agrees_require _ _).bind fun _ _ _ => ?_
  refine (Action.agrees_require _ _).bind fun _ _ _ => ?_
  refine Action.Agrees.unlessRefused (Action.Agrees.unlessRefused ?_)
  refine (Action.agrees_record _).bind fun _ _ _ => .pure ⟨rfl, fun index => ?_⟩
  rw [Array.getElem?_replicate]
  split
  · exact .some .none
  · exact .none

theorem drop (h : problem.Alike build problem') :
    Action.Agrees build counts Eq problem.drop problem'.drop := by
  unfold Problem.drop
  rw [h.domains, h.size_slots]
  exact Action.agrees_record _

theorem setDomain (h : problem.Alike build problem') (index size : Nat) :
    Action.Agrees build counts (Problem.Alike build) (problem.setDomain index size)
      (problem'.setDomain index size) := by
  unfold Problem.setDomain
  simp only [h.domains]
  refine Action.agrees_requireActive.bind fun _ _ _ => ?_
  exact (Action.agrees_require _ _).bind fun _ _ _ => .pure ⟨rfl, h.slots⟩

theorem domainAt (h : problem.Alike build problem') (index : Nat) :
    Action.Agrees build counts Eq (problem.domainAt index) (problem'.domainAt index) := by
  unfold Problem.domainAt
  rw [h.domains]
  refine Action.agrees_requireActive.bind fun _ _ _ => ?_
  cases problem.domains[index]? with
  | some size => exact .pure rfl
  | none => exact Action.agrees_broken _

theorem setConstraint (h : problem.Alike build problem') {constraint constraint' : Constraint σ κ}
    (hconstraint : constraint.Alike build constraint') (index : Nat) :
    Action.Agrees build counts (Problem.Alike build) (problem.setConstraint index constraint)
      (problem'.setConstraint index constraint') := by
  unfold Problem.setConstraint
  simp only [h.domains, h.size_slots]
  refine Action.agrees_requireActive.bind fun _ _ _ => ?_
  refine (Action.agrees_require _ _).bind fun _ _ _ => ?_
  refine (Action.agrees_requireChecked rfl _ _ _).bind fun _ _ _ => .pure ⟨rfl, fun other => ?_⟩
  simp only [Array.getElem?_setIfInBounds, h.size_slots]
  split
  · split
    · exact .some (.some hconstraint)
    · exact .none
  · exact h.slots other

theorem constraintAt (h : problem.Alike build problem') (index : Nat) :
    Action.Agrees build counts (Option.Rel (Constraint.Alike build)) (problem.constraintAt index)
      (problem'.constraintAt index) := by
  unfold Problem.constraintAt
  rw [h.size_slots]
  refine Action.agrees_requireActive.bind fun _ _ _ => ?_
  have hslot := h.slots index
  generalize problem.slots[index]? = slot, problem'.slots[index]? = slot' at hslot
  cases hslot with
  | some hslot => exact .pure hslot
  | none => exact Action.agrees_broken _

theorem validate (h : problem.Alike build problem') :
    Action.Agrees build counts Eq problem.validate problem'.validate := by
  unfold Problem.validate
  rw [h.flaw?]
  refine Action.agrees_requireActive.bind fun _ _ _ => ?_
  cases problem.flaw? with
  | some error => exact Action.agrees_refused _
  | none => exact .pure rfl

end Problem.Alike

end ConstraintSearch
