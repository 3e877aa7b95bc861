import ConstraintSearch.Proofs.Problem.Valid
import ConstraintSearch.Proofs.Search.DepthFirst

/-!
# The test asks the applicable constraints

The machine tests an assignment by a scan through the slots.  For a problem without a flaw the scan
is nothing but a conjunction: the applicable constraints are asked one by one, in slot order, up to
the first one that does not accept (`judge_eq`).
-/

namespace ConstraintSearch

variable {σ κ : Type}

/-- The constraints that are applicable at a frontier, in slot order, with their slots. -/
def Problem.applicable (problem : Problem σ κ) (frontier : Nat) : List (Nat × Constraint σ κ) :=
  problem.slots.toList.zipIdx.filterMap fun (slot, index) =>
    (slot.filter (·.isApplicable frontier)).map (index, ·)

/-- They are the applicable constraints in all slots. -/
theorem Problem.applicable_eq (problem : Problem σ κ) (frontier : Nat) :
    problem.applicable frontier = problem.applicableBelow frontier problem.slots.size := by
  have hslots : problem.slots.toList.zipIdx =
      (List.range problem.slots.size).map fun index => (problem.slots[index]?.join, index) := by
    apply List.ext_getElem?
    intro index
    rw [List.getElem?_zipIdx, Array.getElem?_toList, List.getElem?_map, Nat.zero_add]
    by_cases hindex : index < problem.slots.size
    · rw [List.getElem?_range hindex, Option.map_some, Array.getElem?_eq_getElem hindex,
        Option.map_some, Option.join_some]
    · rw [Array.getElem?_eq_none (Nat.not_lt.1 hindex),
        List.getElem?_eq_none (by simpa using hindex)]
      rfl
  rw [applicable, hslots, List.filterMap_map]
  rfl

theorem Problem.mem_applicable {problem : Problem σ κ} {frontier slot : Nat}
    {constraint : Constraint σ κ} :
    (slot, constraint) ∈ problem.applicable frontier ↔
      problem.slots[slot]? = some (some constraint) ∧ constraint.isApplicable frontier = true := by
  rw [applicable_eq, mem_applicableBelow]
  exact and_iff_right_of_imp fun h => (Array.getElem?_eq_some_iff.1 h.1).1

namespace Exploration

/-- Asks a constraint, without a record. -/
def test (context : κ) (constraint : Constraint σ κ) : Exploration σ Bool := fun trail =>
  match constraint.check trail.buffer context trail.memory with
  | .ok accepted memory => .ok accepted { trail with checks := trail.checks + 1, memory }
  | .error fault memory => .error fault { trail with checks := trail.checks + 1, memory }

end Exploration

/-- The applicable constraints in the slots from `index` on. -/
private def applicableFrom (problem : Problem σ κ) (frontier index : Nat) :
    List (Nat × Constraint σ κ) :=
  (problem.slots.toList.zipIdx.drop index).filterMap fun (slot, index) =>
    (slot.filter (·.isApplicable frontier)).map (index, ·)

private theorem applicableFrom_of_lt {problem : Problem σ κ} {frontier index : Nat}
    {constraint : Constraint σ κ} (hindex : index < problem.slots.size)
    (hslot : problem.slots[index] = some constraint) :
    applicableFrom problem frontier index =
      (if constraint.isApplicable frontier then [(index, constraint)] else []) ++
        applicableFrom problem frontier (index + 1) := by
  have hlength : index < problem.slots.toList.zipIdx.length := by simpa using hindex
  have hentry : problem.slots.toList.zipIdx[index] = (some constraint, index) := by
    simp [hslot]
  unfold applicableFrom
  rw [List.drop_eq_getElem_cons hlength, hentry, List.filterMap_cons]
  by_cases happlicable : constraint.isApplicable frontier
  · simp [Option.filter, happlicable]
  · simp [Option.filter, happlicable]

private theorem applicableFrom_of_ge {problem : Problem σ κ} {frontier index : Nat}
    (hindex : problem.slots.size ≤ index) : applicableFrom problem frontier index = [] := by
  unfold applicableFrom
  rw [List.drop_eq_nil_of_le (by simpa using hindex)]
  rfl

private theorem result_scanFrom {problem : Problem σ κ} (hvalid : problem.flaw? = none)
    (context : κ) (frontier index calls : Nat) (memory : σ) (trail : Trail σ) :
    (applicableFrom problem frontier index).allM (m := Exploration σ)
        (fun entry => Exploration.test context entry.2)
        { trail with checks := trail.checks + calls, memory } =
      (problem.scanFrom trail.buffer context frontier index calls memory).result trail := by
  -- Along the recursion of the scan.  In each case the list of applicable constraints loses its head
  -- with the slot: the head is the constraint of the slot, if it is applicable, and the flaws that
  -- would leave a slot unset are excluded.
  fun_induction Problem.scanFrom problem trail.buffer context frontier index calls memory with
  | case1 _ _ _ hindex hslot => exact absurd hslot (Problem.slot_ne_none_of_valid hvalid hindex)
  | case2 index calls memory hindex constraint hslot happlicable after hcheck ih =>
      rw [applicableFrom_of_lt hindex hslot, if_pos happlicable, List.singleton_append,
        Exploration.allM_cons_apply]
      simp only [Exploration.test, hcheck]
      exact ih
  | case3 index calls memory hindex constraint hslot happlicable after hcheck =>
      rw [applicableFrom_of_lt hindex hslot, if_pos happlicable, List.singleton_append,
        Exploration.allM_cons_apply]
      simp only [Exploration.test, hcheck]
      rfl
  | case4 index calls memory hindex constraint hslot happlicable fault after hcheck =>
      rw [applicableFrom_of_lt hindex hslot, if_pos happlicable, List.singleton_append,
        Exploration.allM_cons_apply]
      simp only [Exploration.test, hcheck]
      rfl
  | case5 index calls memory hindex constraint hslot hnot ih =>
      rw [applicableFrom_of_lt hindex hslot, if_neg hnot]
      exact ih
  | case6 index calls memory hindex =>
      rw [applicableFrom_of_ge (Nat.not_lt.1 hindex)]
      rfl

/-- The test of a machine asks the applicable constraints one by one. -/
theorem Search.judge_eq {search : Search σ κ} (hvalid : search.problem.flaw? = none)
    (frontier : Nat) :
    search.machine.judge frontier =
      (search.problem.applicable frontier).allM fun entry =>
        Exploration.test search.context entry.2 := by
  funext trail
  exact (result_scanFrom hvalid search.context frontier 0 0 trail.memory trail).symm

end ConstraintSearch
