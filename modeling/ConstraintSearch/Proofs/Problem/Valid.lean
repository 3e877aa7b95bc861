import ConstraintSearch.Proofs.Action
import ConstraintSearch.Proofs.Problem.FirstStop

/-!
# Problems without a flaw

A problem has no flaw exactly when every slot is set and every constraint keeps to the variables of
the problem (`flaw?_eq_none_iff`).  The scan of such a problem never meets an unset slot, so it
answers if no checker gives up (`scan_of_steady`).
-/

namespace ConstraintSearch

theorem Checker.valueAt_of_getElem? {assignment : Array Nat} {v value : Nat}
    (h : assignment[v]? = some value) : valueAt assignment v = .ok value := by
  obtain ⟨hlt, heq⟩ := Array.getElem?_eq_some_iff.1 h
  rw [valueAt, dif_pos hlt, heq]

namespace Problem

variable {σ κ : Type} {problem : Problem σ κ}

theorem slotFlaw?_eq_none_iff {domains index : Nat} {slot : Option (Constraint σ κ)} :
    slotFlaw? domains index slot = none ↔
      ∃ constraint, slot = some constraint ∧ ∀ v ∈ constraint.scope, v < domains := by
  cases slot with
  | none => simp [slotFlaw?]
  | some constraint => simp [slotFlaw?]

/-- A problem has no flaw exactly when every slot is set, to a constraint whose variables the
problem has. -/
theorem flaw?_eq_none_iff :
    problem.flaw? = none ↔
      ∀ (index : Nat) (slot : Option (Constraint σ κ)), problem.slots[index]? = some slot →
        ∃ constraint, slot = some constraint ∧
          ∀ v ∈ constraint.scope, v < problem.domains.size := by
  unfold flaw?
  rw [List.findSome?_eq_none_iff]
  constructor
  · intro h index slot hslot
    have hmem : (slot, index) ∈ problem.slots.toList.zipIdx := by
      rw [List.mk_mem_zipIdx_iff_getElem?]
      simpa using hslot
    exact slotFlaw?_eq_none_iff.1 (h (slot, index) hmem)
  · rintro h ⟨slot, index⟩ hmem
    rw [List.mk_mem_zipIdx_iff_getElem?] at hmem
    exact slotFlaw?_eq_none_iff.2 (h index slot (by simpa using hmem))

/-- Unless the checked build finds the library inactive, a problem is refused for its flaw. -/
theorem validate_apply (problem : Problem σ κ) {build : Build} {library : Library}
    (hactive : ¬(build = .checked ∧ library.activations = 0)) :
    problem.validate build library =
      match problem.flaw? with
      | some error => .error (.problem error) library
      | none => .ok () library := by
  unfold validate
  rw [Action.bind_apply, Action.requireActive_apply, if_neg hactive]
  cases problem.flaw? <;> rfl

/-- Some slot holds the constraint. -/
def Attached (problem : Problem σ κ) (constraint : Constraint σ κ) : Prop :=
  some constraint ∈ problem.slots

theorem attached_of_getElem? {index : Nat} {constraint : Constraint σ κ}
    (h : problem.slots[index]? = some (some constraint)) : problem.Attached constraint :=
  Array.mem_of_getElem? h

theorem scope_lt_of_valid (hvalid : problem.flaw? = none) {constraint : Constraint σ κ}
    (hattached : problem.Attached constraint) {v : Nat} (hv : v ∈ constraint.scope) :
    v < problem.domains.size := by
  obtain ⟨index, hindex⟩ := Array.getElem?_of_mem hattached
  obtain ⟨other, heq, hscope⟩ := flaw?_eq_none_iff.1 hvalid index _ hindex
  injection heq with heq
  subst heq
  exact hscope v hv

theorem slot_ne_none_of_valid (hvalid : problem.flaw? = none) {index : Nat}
    (hindex : index < problem.slots.size) : problem.slots[index] ≠ none := by
  obtain ⟨constraint, heq, -⟩ :=
    flaw?_eq_none_iff.1 hvalid index _ (Array.getElem?_eq_getElem hindex)
  rw [heq]
  exact Option.some_ne_none constraint

theorem none_notMem_of_valid (hvalid : problem.flaw? = none) : none ∉ problem.slots := by
  intro hmem
  obtain ⟨index, hindex⟩ := Array.getElem?_of_mem hmem
  obtain ⟨constraint, heq, -⟩ := flaw?_eq_none_iff.1 hvalid index _ hindex
  cases heq

/-! ## Checkers that do not give up -/

/-- No checker gives up on an assignment to all variables. -/
def Steady (problem : Problem σ κ) (context : κ) : Prop :=
  ∀ constraint, problem.Attached constraint →
    ∀ (assignment : Array Nat) (memory : σ), assignment.size = problem.domains.size →
      ∃ accepted after, constraint.check assignment context memory = .ok accepted after

/-- The scan of a problem without a flaw answers, if no checker gives up. -/
theorem scan_of_steady (hvalid : problem.flaw? = none) {context : κ}
    (hsteady : problem.Steady context) {assignment : Array Nat}
    (hsize : assignment.size = problem.domains.size) (frontier : Nat) (memory : σ) :
    ∃ accepted, (problem.scan assignment context frontier memory).answer = .ok accepted := by
  cases hanswer : (problem.scan assignment context frontier memory).answer with
  | ok accepted => exact ⟨accepted, rfl⟩
  | error fault =>
      obtain ⟨slot, constraint, after, -, hslot, -, hcheck⟩ :=
        exists_gaveUp (none_notMem_of_valid hvalid) hanswer
      obtain ⟨accepted, after', hok⟩ :=
        hsteady constraint (attached_of_getElem? hslot) assignment _ hsize
      cases hcheck.symm.trans hok

end Problem

end ConstraintSearch
