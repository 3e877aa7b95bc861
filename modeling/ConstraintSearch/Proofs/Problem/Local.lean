import ConstraintSearch.Proofs.Problem.Valid

/-!
# Local checkers

A checker is local when it answers by the values of its own variables and by nothing else.  So it
does not tell assignments apart that agree on them (`Local.check_congr`).  Then whether the
constraints up to a frontier accept depends only on the variables below the frontier
(`AcceptsUpTo.of_common`): what the buffer holds beyond has no influence.  An assignment that every
constraint accepts is accepted up to every frontier (`Accepts.upTo`), so a partial assignment that
is rejected has no solution for an extension.
-/

namespace ConstraintSearch

variable {σ κ : Type}

/-! ## Buffers that agree below a frontier -/

/-- The buffers hold the same values below the frontier. -/
def AgreeBelow (frontier : Nat) (buffer other : Array Nat) : Prop :=
  ∀ v < frontier, other[v]? = buffer[v]?

namespace AgreeBelow

variable {buffer other : Array Nat} {frontier : Nat}

theorem mono (h : AgreeBelow frontier buffer other) {below : Nat} (hle : below ≤ frontier) :
    AgreeBelow below buffer other :=
  fun v hv => h v (Nat.lt_of_lt_of_le hv hle)

/-- What is written to both buffers at the frontier, they agree on. -/
theorem write (h : AgreeBelow frontier buffer other) (hsize : other.size = buffer.size)
    (value : Nat) :
    AgreeBelow (frontier + 1) (buffer.setIfInBounds frontier value)
      (other.setIfInBounds frontier value) := by
  intro v hv
  by_cases hown : frontier = v
  · rw [Array.getElem?_setIfInBounds, Array.getElem?_setIfInBounds, if_pos hown, if_pos hown, hsize]
  · rw [Array.getElem?_setIfInBounds_ne hown, Array.getElem?_setIfInBounds_ne hown]
    exact h v (by omega)

/-- What begins alike agrees on the common part. -/
theorem of_common {common : List Nat} (h : common <+: buffer.toList)
    (h' : common <+: other.toList) : AgreeBelow common.length buffer other := by
  have hcommon : ∀ {assignment : Array Nat}, common <+: assignment.toList →
      ∀ v < common.length, assignment[v]? = common[v]? := by
    intro assignment hprefix v hv
    obtain ⟨rest, hrest⟩ := hprefix
    rw [← Array.getElem?_toList, ← hrest, List.getElem?_append_left hv]
  intro v hv
  rw [hcommon h v hv, hcommon h' v hv]

theorem take_eq (h : AgreeBelow frontier buffer other) :
    buffer.toList.take frontier = other.toList.take frontier := by
  apply List.ext_getElem?
  intro v
  by_cases hv : v < frontier
  · rw [List.getElem?_take_of_lt hv, List.getElem?_take_of_lt hv, Array.getElem?_toList,
      Array.getElem?_toList, h v hv]
  · rw [List.getElem?_take_eq_none (Nat.not_lt.1 hv), List.getElem?_take_eq_none (Nat.not_lt.1 hv)]

theorem eq_of_size (h : AgreeBelow frontier buffer other) (hsize : buffer.size = frontier)
    (hsize' : other.size = frontier) : buffer = other := by
  apply Array.ext_getElem?
  intro v
  by_cases hv : v < frontier
  · exact (h v hv).symm
  · rw [Array.getElem?_eq_none (by omega), Array.getElem?_eq_none (by omega)]

end AgreeBelow

/-! ## Local checkers -/

namespace Constraint

/-- The values of the variables of the tuple. -/
def values (constraint : Constraint σ κ) (assignment : Array Nat) : List Nat :=
  constraint.scope.map fun v => assignment.getD v 0

/-- The checker accepts the assignment, whatever it remembers. -/
def Accepts (constraint : Constraint σ κ) (context : κ) (assignment : Array Nat) : Prop :=
  ∀ memory, ∃ after, constraint.check assignment context memory = .ok true after

theorem values_congr {constraint : Constraint σ κ} {frontier : Nat} {assignment other : Array Nat}
    (hagree : AgreeBelow frontier assignment other)
    (hscope : ∀ v ∈ constraint.scope, v < frontier) :
    constraint.values assignment = constraint.values other := by
  unfold values
  apply List.map_congr_left
  intro v hv
  rw [Array.getD_eq_getD_getElem?, Array.getD_eq_getD_getElem?, hagree v (hscope v hv)]

end Constraint

/-- A checker that answers by the values of the variables. -/
def Checker.byValues (identity : Nat) (verdict : List Nat → Bool) : Checker σ κ where
  identity := identity
  check scope assignment _ memory := .ok (verdict (scope.map fun v => assignment.getD v 0)) memory

namespace Problem

variable {problem : Problem σ κ} {context : κ} {assignment : Array Nat} {frontier : Nat}

/-- Each constraint has a checker that answers by the values of its variables. -/
def Local (problem : Problem σ κ) (context : κ) : Prop :=
  ∀ constraint, problem.Attached constraint → ∃ verdict : List Nat → Bool,
    ∀ (assignment : Array Nat) (memory : σ), assignment.size = problem.domains.size →
      ∃ after, constraint.check assignment context memory =
        .ok (verdict (constraint.values assignment)) after

/-- Every constraint accepts the assignment. -/
def Accepts (problem : Problem σ κ) (context : κ) (assignment : Array Nat) : Prop :=
  ∀ constraint, problem.Attached constraint → constraint.Accepts context assignment

/-- Every constraint on variables below the frontier accepts the assignment. -/
def AcceptsUpTo (problem : Problem σ κ) (context : κ) (frontier : Nat) (assignment : Array Nat) :
    Prop :=
  ∀ constraint, problem.Attached constraint → constraint.isApplicable frontier = true →
    constraint.Accepts context assignment

theorem local_of_byValues (h : ∀ constraint, problem.Attached constraint →
    ∃ identity verdict, constraint.checker = .byValues identity verdict) :
    problem.Local context := by
  intro constraint hattached
  obtain ⟨identity, verdict, hchecker⟩ := h constraint hattached
  refine ⟨verdict, fun assignment memory _ => ⟨memory, ?_⟩⟩
  rw [Constraint.check, hchecker]
  rfl

theorem Local.steady (hlocal : problem.Local context) : problem.Steady context := by
  intro constraint hattached assignment memory hsize
  obtain ⟨verdict, hverdict⟩ := hlocal constraint hattached
  exact ⟨_, hverdict assignment memory hsize⟩

/-- A local checker accepts an assignment or rejects it, whatever it remembers. -/
theorem Local.check (hlocal : problem.Local context) {constraint : Constraint σ κ}
    (hattached : problem.Attached constraint) (hsize : assignment.size = problem.domains.size)
    (memory : σ) : ∃ accepted after, constraint.check assignment context memory = .ok accepted after ∧
      (accepted = true ↔ constraint.Accepts context assignment) := by
  obtain ⟨verdict, hverdict⟩ := hlocal constraint hattached
  obtain ⟨after, hafter⟩ := hverdict assignment memory hsize
  refine ⟨_, after, hafter, ?_, ?_⟩
  · intro htrue other
    rw [← htrue]
    exact hverdict assignment other hsize
  · intro haccepts
    obtain ⟨after', hafter'⟩ := haccepts memory
    rw [hafter] at hafter'
    injection hafter'

/-- A local checker gives the same answer, as long as the assignments agree on its variables. -/
theorem Local.check_congr (hlocal : problem.Local context) {constraint : Constraint σ κ}
    (hattached : problem.Attached constraint) {other : Array Nat}
    (happlicable : constraint.isApplicable frontier = true)
    (hsize : assignment.size = problem.domains.size) (hsize' : other.size = problem.domains.size)
    (hagree : AgreeBelow frontier assignment other) (memory memory' : σ) :
    ∃ accepted after after', constraint.check assignment context memory = .ok accepted after ∧
      constraint.check other context memory' = .ok accepted after' := by
  obtain ⟨verdict, hverdict⟩ := hlocal constraint hattached
  have hscope := (constraint.isApplicable_iff frontier).1 happlicable
  obtain ⟨after, hafter⟩ := hverdict assignment memory hsize
  obtain ⟨after', hafter'⟩ := hverdict other memory' hsize'
  -- All variables of an applicable constraint are below the frontier, so the verdict is asked about
  -- the same values.
  rw [← Constraint.values_congr hagree hscope] at hafter'
  exact ⟨_, after, after', hafter, hafter'⟩

/-- A local checker does not tell assignments apart that begin alike, if its variables lie in the
common part. -/
theorem Local.accepts_of_common (hlocal : problem.Local context) {constraint : Constraint σ κ}
    (hattached : problem.Attached constraint) {common : List Nat} {other : Array Nat}
    (hscope : ∀ v ∈ constraint.scope, v < common.length) (h : common <+: assignment.toList)
    (h' : common <+: other.toList) (hsize : assignment.size = problem.domains.size)
    (hsize' : other.size = problem.domains.size)
    (haccepts : constraint.Accepts context assignment) : constraint.Accepts context other := by
  have happlicable := (constraint.isApplicable_iff common.length).2 hscope
  intro memory
  obtain ⟨accepted, first, second, hcheck, hcheck'⟩ := hlocal.check_congr hattached happlicable hsize
    hsize' (.of_common h h') memory memory
  obtain ⟨after, hafter⟩ := haccepts memory
  cases hcheck.symm.trans hafter
  exact ⟨second, hcheck'⟩

/-! ## Up to a frontier -/

/-- What lies beyond the frontier has no influence. -/
theorem AcceptsUpTo.of_common (hlocal : problem.Local context) {common : List Nat}
    {other : Array Nat} (h : common <+: assignment.toList) (h' : common <+: other.toList)
    (hsize : assignment.size = problem.domains.size) (hsize' : other.size = problem.domains.size)
    (haccepts : problem.AcceptsUpTo context common.length assignment) :
    problem.AcceptsUpTo context common.length other := by
  intro constraint hattached happlicable
  have hscope := (constraint.isApplicable_iff common.length).1 happlicable
  exact hlocal.accepts_of_common hattached hscope h h' hsize hsize'
    (haccepts constraint hattached happlicable)

theorem AcceptsUpTo.mono {later : Nat} (hle : frontier ≤ later)
    (haccepts : problem.AcceptsUpTo context later assignment) :
    problem.AcceptsUpTo context frontier assignment := by
  intro constraint hattached happlicable
  exact haccepts constraint hattached (constraint.isApplicable_mono hle happlicable)

/-- An assignment that every constraint accepts is accepted up to every frontier. -/
theorem Accepts.upTo (haccepts : problem.Accepts context assignment) (frontier : Nat) :
    problem.AcceptsUpTo context frontier assignment := by
  intro constraint hattached _
  exact haccepts constraint hattached

/-- Behind the last variable, every constraint is applicable. -/
theorem AcceptsUpTo.accepts (hvalid : problem.flaw? = none)
    (haccepts : problem.AcceptsUpTo context problem.domains.size assignment) :
    problem.Accepts context assignment := by
  intro constraint hattached
  apply haccepts constraint hattached
  rw [Constraint.isApplicable_iff]
  intro v hv
  exact scope_lt_of_valid hvalid hattached hv

end Problem

end ConstraintSearch
