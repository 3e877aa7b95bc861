import ConstraintSearch.Proofs.Problem.FirstStop

/-!
# Problems with other constraints in their slots

Let every constraint of a problem be replaced by one that is applicable at the same time and that,
when a scan asks it, answers the same, as far as a view of the memory shows.  Then scans of the two
problems stop at the same slot (`ReplacedBy.firstStop?`), ask the constraints in the same slots and
come to the same (`ReplacedBy.scanFrom`).
-/

namespace ConstraintSearch

variable {σ τ κ : Type} {view : τ → σ}

/-- What a checker comes to, as far as the view of the memory shows. -/
def seenThrough (view : τ → σ) : EStateM.Result Fault τ Bool → EStateM.Result Fault σ Bool
  | .ok accepted memory => .ok accepted (view memory)
  | .error fault memory => .error fault (view memory)

@[simp]
theorem seenThrough_id (result : EStateM.Result Fault σ Bool) : seenThrough id result = result := by
  cases result <;> rfl

namespace Problem

/-- The other problem has a replacement in the slot of each constraint, which does the same in a scan
of the assignment. -/
structure ReplacedBy (problem : Problem σ κ) (other : Problem τ κ) (view : τ → σ)
    (replace : Nat → Constraint σ κ → Constraint τ κ) (assignment : Array Nat) (context : κ)
    (frontier : Nat) : Prop where
  slots : ∀ slot, other.slots[slot]? = problem.slots[slot]?.map (Option.map (replace slot))
  isApplicable : ∀ slot constraint,
    (replace slot constraint).isApplicable frontier = constraint.isApplicable frontier
  check : ∀ slot constraint, problem.applicableAt? frontier slot = some constraint → ∀ memory,
    seenThrough view ((replace slot constraint).check assignment context memory) =
      constraint.check assignment context (view memory)

namespace ReplacedBy

variable {problem : Problem σ κ} {other : Problem τ κ}
  {replace : Nat → Constraint σ κ → Constraint τ κ} {assignment : Array Nat} {context : κ}
  {frontier : Nat} {memory : τ}

variable (h : problem.ReplacedBy other view replace assignment context frontier)

include h

theorem size_slots : other.slots.size = problem.slots.size := by
  have hle : ∀ count, other.slots.size ≤ count ↔ problem.slots.size ≤ count := by
    intro count
    rw [← Array.getElem?_eq_none_iff, ← Array.getElem?_eq_none_iff, h.slots, Option.map_eq_none_iff]
  exact Nat.le_antisymm ((hle _).2 (Nat.le_refl _)) ((hle _).1 (Nat.le_refl _))

theorem applicableAt? (slot : Nat) :
    other.applicableAt? frontier slot = (problem.applicableAt? frontier slot).map (replace slot) := by
  unfold Problem.applicableAt?
  rw [h.slots]
  cases problem.slots[slot]? with
  | none => rfl
  | some own =>
      cases own with
      | none => rfl
      | some constraint =>
          simp only [Option.map_some, Option.join_some, Option.filter_some, h.isApplicable]
          split <;> rfl

theorem length_applicableBelow (count : Nat) :
    (other.applicableBelow frontier count).length =
      (problem.applicableBelow frontier count).length := by
  induction count with
  | zero => rfl
  | succ count ih =>
      rw [length_applicableBelow_succ, length_applicableBelow_succ, ih, h.applicableAt?]
      cases problem.applicableAt? frontier count <;> rfl

theorem view_memoryAfter (count : Nat) :
    view (other.memoryAfter assignment context frontier memory count) =
      problem.memoryAfter assignment context frontier (view memory) count := by
  induction count with
  | zero => rfl
  | succ count ih =>
      rw [memoryAfter_succ, memoryAfter_succ, h.applicableAt?, ← ih]
      cases happlicable : problem.applicableAt? frontier count with
      | none => rfl
      | some constraint =>
          simp only [Option.map_some, Constraint.memoryAfter, ← h.check count constraint happlicable]
          cases (replace count constraint).check assignment context
            (other.memoryAfter assignment context frontier memory count) <;> rfl

theorem stopAt? (slot : Nat) :
    other.stopAt? assignment context frontier memory slot =
      problem.stopAt? assignment context frontier (view memory) slot := by
  unfold Problem.stopAt?
  rw [h.slots, ← h.view_memoryAfter]
  cases hslot : problem.slots[slot]? with
  | none => rfl
  | some own =>
      cases own with
      | none => rfl
      | some constraint =>
          simp only [Option.map_some, h.isApplicable]
          -- Only an applicable constraint is asked, and for these `h.check` relates the two
          -- answers.
          by_cases happlicable : constraint.isApplicable frontier = true
          · rw [if_pos happlicable, if_pos happlicable,
              ← h.check slot constraint (applicableAt?_eq_some_iff.2 ⟨hslot, happlicable⟩)]
            cases (replace slot constraint).check assignment context
                (other.memoryAfter assignment context frontier memory slot) with
            | error fault after => rfl
            | ok accepted after => cases accepted <;> rfl
          · rw [if_neg happlicable, if_neg happlicable]

/-- The scans stop at the same slot. -/
theorem firstStop? :
    other.firstStop? assignment context frontier memory =
      problem.firstStop? assignment context frontier (view memory) := by
  unfold Problem.firstStop?
  rw [h.size_slots, funext h.stopAt?]

theorem reach :
    other.reach assignment context frontier memory =
      problem.reach assignment context frontier (view memory) := by
  unfold Problem.reach
  rw [h.firstStop?, h.size_slots]

/-- The scans come to the same. -/
theorem scanFrom (calls : Nat) :
    problem.scanFrom assignment context frontier 0 calls (view memory) =
      let scan := other.scanFrom assignment context frontier 0 calls memory
      { answer := scan.answer, calls := scan.calls, memory := view scan.memory } := by
  simp only [scanFrom_eq, asked, h.firstStop?, h.reach, h.length_applicableBelow, h.view_memoryAfter]

end ReplacedBy

end Problem

end ConstraintSearch
