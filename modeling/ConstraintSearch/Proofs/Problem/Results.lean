import ConstraintSearch.Problem
import ConstraintSearch.Proofs.Action

/-!
# What operations on constraints and problems return

`Ensures` says what is known of the value that an operation of the checked build ends in, if it ends
in one: its preconditions have held, and the value is the changed constraint or problem.
-/

namespace ConstraintSearch

variable {σ κ α β : Type}

namespace Action

variable {action : Action α} {property : α → Prop} {outcome : β → Prop}

/-- If the operation ends in a value in the checked build, the value has the property. -/
def Ensures (action : Action α) (property : α → Prop) : Prop :=
  ∀ library value after, action .checked library = .ok value after → property value

theorem Ensures.pure {value : α} (h : property value) : Ensures (Pure.pure value) property := by
  intro library other after hvalue
  cases hvalue
  exact h

theorem Ensures.bind (h : action.Ensures property) {next : α → Action β}
    (hnext : ∀ value, property value → (next value).Ensures outcome) :
    (action >>= next).Ensures outcome := by
  intro library value after hvalue
  rw [bind_apply] at hvalue
  cases hfirst : action .checked library with
  | ok first between =>
      rw [hfirst] at hvalue
      exact hnext first (h library first between hfirst) between value after hvalue
  | error failure between =>
      rw [hfirst] at hvalue
      cases hvalue

theorem ensures_true (action : Action α) : action.Ensures fun _ => True :=
  fun _ _ _ _ => trivial

theorem ensures_require (condition : Bool) (fault : Fault) :
    (require condition fault).Ensures fun _ => condition = true := by
  intro library value after hvalue
  cases condition with
  | true => rfl
  | false => cases hvalue

theorem ensures_requireChecked (condition : Bool) (fault : Fault) :
    (requireChecked condition fault).Ensures fun _ => condition = true := by
  intro library value after hvalue
  cases condition with
  | true => rfl
  | false => cases hvalue

/-- A refusal does not end in a value. -/
theorem Ensures.unlessRefused {condition : Prop} [Decidable condition] {error : ProblemError}
    {next : Unit → Action α} (h : (next ()).Ensures property) :
    Ensures (if condition then refused error >>= next else next ()) property := by
  by_cases hrefused : condition
  · rw [if_pos hrefused]
    intro library value after hvalue
    cases hvalue
  · rw [if_neg hrefused]
    exact h

end Action

namespace Constraint

theorem ensures_create (arity : Nat) (checker : Checker σ κ) :
    (create arity checker).Ensures fun constraint =>
      0 < arity ∧ constraint = { scope := List.replicate arity 0, checker } := by
  refine (Action.ensures_true _).bind fun _ _ => ?_
  refine (Action.ensures_require _ _).bind fun _ hpos => ?_
  refine Action.Ensures.unlessRefused ?_
  exact (Action.ensures_true _).bind fun _ _ => .pure ⟨of_decide_eq_true hpos, rfl⟩

variable (constraint : Constraint σ κ)

theorem ensures_setVariable (index v : Nat) :
    (constraint.setVariable index v).Ensures fun changed =>
      index < constraint.arity ∧
        changed = { constraint with scope := constraint.scope.set index v } := by
  refine (Action.ensures_true _).bind fun _ _ => ?_
  exact (Action.ensures_require _ _).bind fun _ hlt => .pure ⟨of_decide_eq_true hlt, rfl⟩

theorem ensures_withVariables (scope : List Nat) :
    (constraint.withVariables scope).Ensures fun changed =>
      scope.length = constraint.arity ∧ changed = { constraint with scope } := by
  -- The operation is one that cleans up when it fails; it succeeds only if the part before the
  -- cleanup does.
  have hreplace : Action.Ensures (do
      Action.requireActive
      Action.require (scope.length = constraint.arity)
        (.wrongLength .scope scope.length constraint.arity)
      return { constraint with scope }) fun changed =>
        scope.length = constraint.arity ∧ changed = { constraint with scope } := by
    refine (Action.ensures_true _).bind fun _ _ => ?_
    exact (Action.ensures_require _ _).bind fun _ hlength => .pure ⟨of_decide_eq_true hlength, rfl⟩
  intro library value after hvalue
  unfold withVariables Action.onFailure at hvalue
  revert hvalue
  split
  next first between hfirst =>
    intro hvalue
    cases hvalue
    exact hreplace library value after hfirst
  next =>
    intro hvalue
    split at hvalue <;> cases hvalue

end Constraint

namespace Problem

theorem ensures_create (domains slots : Nat) :
    (create domains slots : Action (Problem σ κ)).Ensures fun problem =>
      0 < domains ∧ 0 < slots ∧
        problem = { domains := Array.replicate domains 0, slots := Array.replicate slots none } := by
  refine (Action.ensures_true _).bind fun _ _ => ?_
  refine (Action.ensures_require _ _).bind fun _ hdomains => ?_
  refine (Action.ensures_require _ _).bind fun _ hslots => ?_
  refine Action.Ensures.unlessRefused (Action.Ensures.unlessRefused ?_)
  exact (Action.ensures_true _).bind fun _ _ =>
    .pure ⟨of_decide_eq_true hdomains, of_decide_eq_true hslots, rfl⟩

variable (problem : Problem σ κ)

theorem ensures_setDomain (index size : Nat) :
    (problem.setDomain index size).Ensures fun changed =>
      index < problem.domains.size ∧
        changed = { problem with domains := problem.domains.setIfInBounds index size } := by
  refine (Action.ensures_true _).bind fun _ _ => ?_
  exact (Action.ensures_require _ _).bind fun _ hindex => .pure ⟨of_decide_eq_true hindex, rfl⟩

theorem ensures_setConstraint (index : Nat) (constraint : Constraint σ κ) :
    (problem.setConstraint index constraint).Ensures fun changed =>
      index < problem.slots.size ∧ constraint.maxVariable < problem.domains.size ∧
        changed = { problem with slots := problem.slots.setIfInBounds index (some constraint) } := by
  refine (Action.ensures_true _).bind fun _ _ => ?_
  refine (Action.ensures_require _ _).bind fun _ hindex => ?_
  exact (Action.ensures_requireChecked _ _).bind fun _ hforeign =>
    .pure ⟨of_decide_eq_true hindex, of_decide_eq_true hforeign, rfl⟩

/-! ## Domains set one after the other -/

/-- The problem with its first domains set to some sizes.  Sizes for which there is no variable are
left out. -/
def withSizes (sizes : List Nat) : Problem σ κ :=
  { problem with domains := problem.domains.mapIdx fun index size => sizes[index]?.getD size }

theorem getElem?_withSizes (sizes : List Nat) (index : Nat) :
    (problem.withSizes sizes).domains[index]? =
      problem.domains[index]?.map fun size => sizes[index]?.getD size :=
  Array.getElem?_mapIdx

theorem size_withSizes (sizes : List Nat) :
    (problem.withSizes sizes).domains.size = problem.domains.size :=
  Array.size_mapIdx

theorem ext_domains {problem other : Problem σ κ} (hslots : problem.slots = other.slots)
    (hdomains : ∀ index : Nat, problem.domains[index]? = other.domains[index]?) :
    problem = other := by
  obtain ⟨domains, slots⟩ := problem
  obtain rfl : slots = other.slots := hslots
  obtain rfl : domains = other.domains := Array.ext_getElem? hdomains
  rfl

theorem withSizes_nil : problem.withSizes [] = problem := by
  refine ext_domains rfl fun index => ?_
  rw [getElem?_withSizes]
  exact Option.map_id'

theorem withSizes_concat (sizes : List Nat) (size : Nat) :
    problem.withSizes (sizes ++ [size]) =
      { problem.withSizes sizes with
        domains := (problem.withSizes sizes).domains.setIfInBounds sizes.length size } := by
  refine ext_domains rfl fun index => ?_
  simp only [getElem?_withSizes, Array.getElem?_setIfInBounds, size_withSizes]
  rcases Nat.lt_trichotomy index sizes.length with hearlier | rfl | hlater
  · rw [if_neg (Nat.ne_of_gt hearlier), List.getElem?_append_left hearlier]
  · rw [if_pos rfl, List.getElem?_concat_length]
    by_cases hlt : sizes.length < problem.domains.size
    · rw [if_pos hlt, Array.getElem?_eq_getElem hlt]
      rfl
    · rw [if_neg hlt, Array.getElem?_eq_none (Nat.not_lt.1 hlt)]
      rfl
  · rw [if_neg (Nat.ne_of_lt hlater), List.getElem?_eq_none (Nat.le_of_lt hlater),
      List.getElem?_eq_none (by rw [List.length_append]; exact hlater)]

variable {problem}

theorem withSizes_append_of_le {sizes : List Nat} (hle : problem.domains.size ≤ sizes.length)
    (others : List Nat) :
    problem.withSizes (sizes ++ others) = problem.withSizes sizes := by
  refine ext_domains rfl fun index => ?_
  simp only [getElem?_withSizes]
  by_cases hlt : index < problem.domains.size
  · rw [List.getElem?_append_left (Nat.lt_of_lt_of_le hlt hle)]
  · rw [Array.getElem?_eq_none (Nat.not_lt.1 hlt)]
    rfl

end Problem

end ConstraintSearch
