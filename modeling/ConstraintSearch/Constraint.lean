import ConstraintSearch.Action

/-!
# Constraints

A constraint is an ordered tuple of variables with a checker.  The checker is given the tuple, the
whole assignment and a context, and says whether the constraint holds.  Its answer may also hang
on a memory `σ` that it may change, and instead of an answer it may meet a fault.

A constraint may be tested as soon as all its variables are bound, that is, lie below the
*frontier* of the search.  Nothing else is known here about what a constraint means.
-/

namespace ConstraintSearch

/-- Decides whether a constraint holds.  Checkers of the same identity are the same object, which
several constraints may share.  A checker may change its memory; what the memory stands for is left
to whoever uses it, and it may stand for the activations of the library (`Search.Watched`). -/
structure Checker (σ κ : Type) where
  identity : Nat
  /-- The answer for a tuple of variables under an assignment in a context. -/
  check : (scope : List Nat) → (assignment : Array Nat) → (context : κ) → EStateM Fault σ Bool

namespace Checker

/-- The variable in a slot of a tuple. -/
@[inline]
def variableAt (scope : List Nat) (index : Nat) : Except Fault Nat :=
  match scope[index]? with
  | some v => .ok v
  | none => .error (.variableSlot index scope.length)

/-- The value of a variable. -/
@[inline]
def valueAt (assignment : Array Nat) (index : Nat) : Except Fault Nat :=
  if h : index < assignment.size then .ok assignment[index]
  else .error (.indexOutOfBounds assignment.size index)

/-- A checker without a memory. -/
@[inline]
def ofPure {σ κ : Type} (identity : Nat)
    (answer : List Nat → Array Nat → κ → Except Fault Bool) : Checker σ κ where
  identity := identity
  check scope assignment context := fun memory =>
    match answer scope assignment context with
    | .ok accepted => .ok accepted memory
    | .error fault => .error fault memory

end Checker

/-- A tuple of variables with a checker. -/
structure Constraint (σ κ : Type) where
  scope : List Nat
  checker : Checker σ κ

namespace Constraint

variable {σ κ : Type}

/-- The number of variables of the tuple. -/
def arity (constraint : Constraint σ κ) : Nat := constraint.scope.length

/-- The largest variable of the tuple. -/
def maxVariable (constraint : Constraint σ κ) : Nat := constraint.scope.foldl max 0

/-- Whether every variable of the tuple lies below the frontier. -/
def isApplicable (constraint : Constraint σ κ) (frontier : Nat) : Bool :=
  constraint.scope.all (· < frontier)

/-- A constraint is applicable exactly when all its variables lie below the frontier. -/
theorem isApplicable_iff (constraint : Constraint σ κ) (frontier : Nat) :
    constraint.isApplicable frontier = true ↔ ∀ v ∈ constraint.scope, v < frontier := by
  simp [isApplicable]

/-- A constraint that is applicable stays so as the frontier moves on. -/
theorem isApplicable_mono (constraint : Constraint σ κ) {frontier later : Nat}
    (hle : frontier ≤ later) (h : constraint.isApplicable frontier = true) :
    constraint.isApplicable later = true := by
  rw [isApplicable_iff] at h ⊢
  intro v hv
  exact Nat.lt_of_lt_of_le (h v hv) hle

/-- The largest variable lies below a positive bound on all of them. -/
theorem maxVariable_lt {constraint : Constraint σ κ} {count : Nat} (hpos : 0 < count)
    (hscope : ∀ v ∈ constraint.scope, v < count) : constraint.maxVariable < count := by
  suffices h : ∀ (scope : List Nat) (largest : Nat), largest < count → (∀ v ∈ scope, v < count) →
      scope.foldl max largest < count from h constraint.scope 0 hpos hscope
  intro scope
  induction scope with
  | nil => exact fun _ hlargest _ => hlargest
  | cons v scope ih =>
      intro largest hlargest hscope
      rw [List.forall_mem_cons] at hscope
      exact ih (max largest v) (Nat.max_lt.2 ⟨hlargest, hscope.1⟩) hscope.2

theorem le_maxVariable {constraint : Constraint σ κ} {v : Nat} (hv : v ∈ constraint.scope) :
    v ≤ constraint.maxVariable := by
  have hlargest : ∀ (scope : List Nat) (largest : Nat), largest ≤ scope.foldl max largest := by
    intro scope
    induction scope with
    | nil => exact Nat.le_refl
    | cons w scope ih => exact fun largest => Nat.le_trans (Nat.le_max_left _ w) (ih _)
  suffices h : ∀ (scope : List Nat) (largest : Nat), v ∈ scope → v ≤ scope.foldl max largest from
    h constraint.scope 0 hv
  intro scope
  induction scope with
  | nil => exact fun _ hv => nomatch hv
  | cons w scope ih =>
      intro largest hv
      rcases List.mem_cons.1 hv with rfl | hv
      · exact Nat.le_trans (Nat.le_max_right _ _) (hlargest scope _)
      · exact ih _ hv

/-- Asks the checker. -/
@[inline]
def check (constraint : Constraint σ κ) (assignment : Array Nat) (context : κ) :
    EStateM Fault σ Bool :=
  constraint.checker.check constraint.scope assignment context

/-- The constraint as a value; checkers are not shown. -/
def outline (constraint : Constraint σ κ) : Outline :=
  .record "Constraint" [("variables", .numbers constraint.scope)] false

/-! ## Operations -/

/-- A constraint of the given arity, with variable 0 in every slot. -/
def create (arity : Nat) (checker : Checker σ κ) : Action (Constraint σ κ) := do
  Action.requireActive
  Action.require (0 < arity) .zeroArity
  if !hasRoom arity then Action.refused (.allocation "constraint variable slots" arity)
  Action.record (.createdConstraint arity)
  return { scope := List.replicate arity 0, checker }

/-- Gives a constraint up. -/
def drop (constraint : Constraint σ κ) : Action Unit :=
  Action.record (.droppedConstraint constraint.arity)

/-- Sets all slots at once.  The constraint is given up if that fails. -/
def withVariables (constraint : Constraint σ κ) (scope : List Nat) :
    Action (Constraint σ κ) :=
  let replace : Action (Constraint σ κ) := do
    Action.requireActive
    Action.require (scope.length = constraint.arity)
      (.wrongLength .scope scope.length constraint.arity)
    return { constraint with scope }
  replace.onFailure constraint.drop

/-- Sets one slot. -/
def setVariable (constraint : Constraint σ κ) (index v : Nat) : Action (Constraint σ κ) := do
  Action.requireActive
  Action.require (index < constraint.arity) (.variableSlot index constraint.arity)
  return { constraint with scope := constraint.scope.set index v }

/-- The variable in one slot. -/
def variableAt (constraint : Constraint σ κ) (index : Nat) : Action Nat := do
  Action.requireActive
  Action.ofExcept (Checker.variableAt constraint.scope index)

end Constraint

end ConstraintSearch
