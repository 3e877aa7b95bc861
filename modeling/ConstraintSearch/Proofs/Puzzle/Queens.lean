import ConstraintSearch.Proofs.Puzzle.Model
import ConstraintSearch.Puzzle.Queens
import Mathlib.Algebra.BigOperators.Intervals

/-!
# Solving queens

The solutions of a board are the placements of queens that do not attack each other
(`solves_board_iff`).  The checker compares sums of rows and columns instead of distances.  This is
the same as long as the sums are words (`compatible_eq`), which they are on the columns of a board
whose list of constraints can be made (`size_lt_of_room`).  On other columns the checker of the
checked build may meet a fault; a search does not ask it there.

## Strategy

1. The pairs of rows are all `i < j`, and there are `size * (size - 1) / 2` of them.
2. If there is room for as many constraints, `size` is small enough for all sums of rows and columns
   to be words, so checker and model meet no fault (`compatible_eq`, `yields_model`).
3. The model is fit, its checkers are local on the board, and its solutions are the placements; the
   rest is `Model.Fit.yields_answer`.
-/

namespace ConstraintSearch.Queens

variable {build : Build} {size i j : Nat}

/-- So many queens, one on each row, stand on the board, and none attacks another: no two share a
column or a diagonal. -/
structure Placement (size : Nat) (queens : List Nat) : Prop where
  length : queens.length = size
  on_board : ∀ column ∈ queens, column < size
  apart : ∀ i j column other : Nat, i < j → queens[i]? = some column → queens[j]? = some other →
    column ≠ other ∧ ((column : Int) - other).natAbs ≠ j - i

/-! ## The checker -/

/-- Two sums are the same exactly if the columns are as far apart as the rows. -/
theorem sums_ne_iff {column other : Nat} (hlt : i < j) :
    (i + other ≠ j + column ∧ i + column ≠ j + other) ↔
      ((column : Int) - other).natAbs ≠ j - i := by
  omega

/-- On columns of the board, the sums stay in the range of words. -/
theorem compatible_eq {columns : Array Nat} {column other : Nat} (hlt : i < j)
    (hi : columns[i]? = some column) (hj : columns[j]? = some other)
    (hcolumn : j + column < wordCount) (hother : j + other < wordCount) :
    compatible build [i, j] columns =
      .ok (decide (column ≠ other ∧ ((column : Int) - other).natAbs ≠ j - i)) := by
  have hvalue := Checker.valueAt_of_getElem? hi
  have hvalue' := Checker.valueAt_of_getElem? hj
  have hrow : Checker.variableAt [i, j] 0 = .ok i := rfl
  have hrow' : Checker.variableAt [i, j] 1 = .ok j := rfl
  unfold compatible
  simp only [hrow, hrow', hvalue, hvalue', bind, Except.bind, pure, Except.pure,
    build.add_of_lt (show i + other < wordCount by omega), build.add_of_lt hcolumn,
    build.add_of_lt (show i + column < wordCount by omega), build.add_of_lt hother]
  simp only [← sums_ne_iff hlt]
  by_cases hcolumns : column = other
  · simp [hcolumns]
  · by_cases hfalling : i + other = j + column
    · simp [hcolumns, hfalling]
    · simp [hcolumns, hfalling]

/-! ## The pairs -/

theorem mem_pairs : (i, j) ∈ pairs size ↔ i < j ∧ j < size := by
  simp only [pairs, List.mem_flatMap, List.mem_range, List.mem_map, List.mem_range'_1,
    Prod.mk.injEq]
  constructor
  · rintro ⟨row, hrow, other, hother, rfl, rfl⟩
    omega
  · rintro ⟨hlt, hsize⟩
    exact ⟨i, by omega, j, by omega, rfl, rfl⟩

theorem length_pairs (size : Nat) : (pairs size).length = size * (size - 1) / 2 := by
  calc (pairs size).length
      = ((List.range size).map fun i => size - (i + 1)).sum := by
        simp [pairs, List.length_flatMap]
    _ = ∑ i ∈ Finset.range size, (size - 1 - i) := by
        simp only [Nat.sub_sub, Nat.add_comm 1]
        rfl
    _ = ∑ i ∈ Finset.range size, i := Finset.sum_range_reflect (fun i => i) size
    _ = size * (size - 1) / 2 := Finset.sum_range_id size

/-! ## The model of a board -/

/-- The constraint on a pair of rows. -/
def pairConstraint (build : Build) (pair : Nat × Nat) : Constraint Unit Unit where
  scope := [pair.1, pair.2]
  checker := pairwise build

/-- The constraint on a single queen. -/
def loneConstraint : Constraint Unit Unit where
  scope := [0]
  checker := alone

/-- The board that is built. -/
def board (build : Build) (size : Nat) : Model Unit where
  variableCount := size
  domainSize := size
  constraints := ((if size = 1 then [loneConstraint] else []) ++
    (pairs size).map (pairConstraint build)).toArray

/-- A board for which the list of constraints can be made has few rows, compared with the number of
words. -/
theorem size_lt_of_room (hroom : size * (size - 1) / 2 * constraintBytes ≤ largestList) :
    size < 0x100000000 := by
  apply Nat.lt_of_not_le
  intro hge
  have hproduct : 0x100000000 * 0xffffffff ≤ size * (size - 1) :=
    Nat.mul_le_mul hge (by omega)
  unfold constraintBytes largestList at hroom
  omega

/-- The constraints on pairs are added behind those that are there. -/
private theorem yields_pairs (first : Array (Constraint Unit Unit)) :
    Action.Yields
      (do
        let constraints ← (pairs size).foldlM (fun constraints (i, j) =>
          Model.addConstraint constraints (pairwise build) [i, j]) first
        return ({ variableCount := size, domainSize := size, constraints } : Model Unit)) build
      (· = ⟨size, size, (first.toList ++ (pairs size).map (pairConstraint build)).toArray⟩) := by
  have hscope : ∀ pair : Nat × Nat, 0 < [pair.1, pair.2].length := fun _ => Nat.zero_lt_two
  refine (Model.yields_addConstraints hscope (fun _ => rfl) first (pairs size)).bind ?_
  intro constraints hconstraints
  apply Action.Yields.pure
  have hsame : constraints = constraints.toList.toArray := Array.toArray_toList.symm
  rw [hsame, hconstraints]
  rfl

theorem yields_model (hpos : 0 < size)
    (hroom : size * (size - 1) / 2 * constraintBytes ≤ largestList) :
    (model size).Yields build (· = board build size) := by
  have hsize := size_lt_of_room hroom
  -- A list that has room is shorter than the number of words, so the product is worked out without
  -- a fault in either build.
  have hproduct : size * (size - 1) < wordCount := by
    unfold constraintBytes largestList at hroom
    unfold wordCount
    omega
  unfold model board
  refine (Action.yields_require (decide_eq_true hpos)).bind fun _ _ => ?_
  refine Action.yields_read.bind ?_
  rintro build rfl
  refine (Action.yields_ofExcept (build.asWord_of_lt .multiply hproduct)).bind ?_
  rintro _ rfl
  refine (Action.yields_require (decide_eq_true hroom)).bind fun _ _ => ?_
  by_cases hone : size = 1
  · simp only [if_pos hone]
    have hlone : Action.Yields (Model.addConstraint #[] alone [0]) build (· = #[loneConstraint]) :=
      Model.yields_addConstraint Nat.zero_lt_one rfl
    refine hlone.bind ?_
    rintro _ rfl
    exact yields_pairs #[loneConstraint]
  · simp only [if_neg hone]
    exact Action.Yields.bind (.pure rfl) fun _ hnone => hnone ▸ yields_pairs #[]

theorem mem_board {constraint : Constraint Unit Unit} :
    constraint ∈ (board build size).constraints ↔
      (size = 1 ∧ constraint = loneConstraint) ∨
        ∃ i j, i < j ∧ j < size ∧ constraint = pairConstraint build (i, j) := by
  simp only [board, List.mem_toArray, List.mem_append, List.mem_map, Prod.exists, mem_pairs]
  constructor
  · rintro (hlone | ⟨i, j, ⟨hlt, hsize⟩, rfl⟩)
    · split at hlone
      · exact .inl ⟨‹size = 1›, List.mem_singleton.1 hlone⟩
      · cases hlone
    · exact .inr ⟨i, j, hlt, hsize, rfl⟩
  · rintro (⟨hone, rfl⟩ | ⟨i, j, hlt, hsize, rfl⟩)
    · exact .inl (by simp [hone])
    · exact .inr ⟨i, j, ⟨hlt, hsize⟩, rfl⟩

/-- On columns of the board, the constraint on a pair of rows decides whether the queens leave each
other alone. -/
theorem check_pairConstraint (hroom : size * (size - 1) / 2 * constraintBytes ≤ largestList)
    {columns : Array Nat} {column other : Nat} (hlt : i < j) (hj : j < size)
    (hvalue : columns[i]? = some column) (hvalue' : columns[j]? = some other)
    (hcolumn : column < size) (hother : other < size) :
    (pairConstraint build (i, j)).check columns () () =
      .ok (decide (column ≠ other ∧ ((column : Int) - other).natAbs ≠ j - i)) () := by
  have hsize := size_lt_of_room hroom
  have hword : size + size ≤ wordCount := by
    unfold wordCount
    omega
  have hcompatible : compatible build [i, j] columns = _ :=
    compatible_eq hlt hvalue hvalue' (by omega) (by omega)
  unfold Constraint.check pairConstraint pairwise Checker.ofPure
  simp only [hcompatible]

theorem fit_board (hpos : 0 < size)
    (hroom : size * (size - 1) / 2 * constraintBytes ≤ largestList) : (board build size).Fit where
  variables_pos := hpos
  constraints_pos := by
    by_cases hone : size = 1
    · exact Array.size_pos_of_mem (mem_board.2 (.inl ⟨hone, rfl⟩))
    · exact Array.size_pos_of_mem
        (mem_board.2 (.inr ⟨0, 1, Nat.zero_lt_one, by omega, rfl⟩))
  variables_room := by
    have hsize := size_lt_of_room hroom
    apply decide_eq_true
    show size < 0xfffffffffffffff
    omega
  constraints_room := by
    have hlength : (board build size).constraints.size ≤ 1 + size * (size - 1) / 2 := by
      simp only [board, List.size_toArray, List.length_append, List.length_map, length_pairs]
      split <;> simp
    unfold constraintBytes largestList at hroom
    apply decide_eq_true
    show (board build size).constraints.size < 0xfffffffffffffff
    omega
  scope_lt := by
    intro constraint hconstraint v hv
    show v < size
    rcases mem_board.1 hconstraint with ⟨-, rfl⟩ | ⟨i, j, hlt, hj, rfl⟩
    · rw [List.mem_singleton.1 hv]
      exact hpos
    · simp only [pairConstraint, List.mem_cons, List.not_mem_nil, or_false] at hv
      omega

theorem local_board (hroom : size * (size - 1) / 2 * constraintBytes ≤ largestList) :
    (board build size).Local () := by
  intro constraint hconstraint
  rcases mem_board.1 hconstraint with ⟨-, rfl⟩ | ⟨i, j, hlt, hj, rfl⟩
  · exact ⟨fun _ => true, fun _ _ _ => rfl⟩
  · refine ⟨fun values => decide (values.getD 0 0 ≠ values.getD 1 0 ∧
      ((values.getD 0 0 : Int) - values.getD 1 0).natAbs ≠ j - i), ?_⟩
    intro assignment _ hvalues
    obtain ⟨column, hvalue, hcolumn⟩ := hvalues i List.mem_cons_self
    obtain ⟨other, hvalue', hother⟩ := hvalues j (List.mem_cons_of_mem i List.mem_cons_self)
    rw [check_pairConstraint hroom hlt hj hvalue hvalue' hcolumn hother]
    simp [Constraint.values, pairConstraint, hvalue, hvalue']

/-- The solutions of a board are the placements. -/
theorem solves_board_iff (hroom : size * (size - 1) / 2 * constraintBytes ≤ largestList)
    {queens : List Nat} : (board build size).Solves () queens ↔ Placement size queens := by
  constructor
  · -- Each pair of rows has its constraint, and on columns of the board this says that the two
    -- queens are apart.
    rintro ⟨hlength, hlt, haccepted⟩
    refine ⟨hlength, hlt, ?_⟩
    intro i j column other hless hvalue hvalue'
    have hj : j < size := lt_of_lt_of_eq (List.getElem?_eq_some_iff.1 hvalue').1 hlength
    have hcheck := haccepted _ (mem_board.2 (.inr ⟨i, j, hless, hj, rfl⟩))
    rw [check_pairConstraint hroom hless hj ((List.getElem?_toArray ..).trans hvalue)
      ((List.getElem?_toArray ..).trans hvalue') (hlt column (List.mem_of_getElem? hvalue))
      (hlt other (List.mem_of_getElem? hvalue'))] at hcheck
    injection hcheck with hdecide
    exact of_decide_eq_true hdecide
  · rintro ⟨hlength, hlt, hapart⟩
    refine ⟨hlength, hlt, ?_⟩
    intro constraint hconstraint
    rcases mem_board.1 hconstraint with ⟨-, rfl⟩ | ⟨i, j, hless, hj, rfl⟩
    · rfl
    · have hi : i < queens.length := hlength ▸ hless.trans hj
      have hj' : j < queens.length := hlength ▸ hj
      have hvalue : queens[i]? = some queens[i] := List.getElem?_eq_getElem hi
      have hvalue' : queens[j]? = some queens[j] := List.getElem?_eq_getElem hj'
      rw [check_pairConstraint hroom hless hj ((List.getElem?_toArray ..).trans hvalue)
        ((List.getElem?_toArray ..).trans hvalue') (hlt _ (List.mem_of_getElem? hvalue))
        (hlt _ (List.mem_of_getElem? hvalue')),
        decide_eq_true (hapart i j _ _ hless hvalue hvalue')]

/-- The board is solved by the lexicographically first placement, or there is none. -/
theorem yields_solve (hpos : 0 < size)
    (hroom : size * (size - 1) / 2 * constraintBytes ≤ largestList) :
    (withModel size fun board => board.solve ()).Yields build
      (Model.Answers {queens | Placement size queens}) :=
  (fit_board hpos hroom).yields_answer (local_board hroom) (fun _ => solves_board_iff hroom)
    (yields_model hpos hroom)

/-- **Queens.**  On an active library, in either build, the board of any positive size for which the
list of constraints can be made is solved by the lexicographically first placement, and it has no
solution exactly if there is no placement. -/
theorem solve_least_placement (size : Nat) (build : Build) (library : Library)
    (hactive : library.isActive = true) (hpos : 0 < size)
    (hroom : size * (size - 1) / 2 * constraintBytes ≤ largestList) :
    ∃ answer after, withModel size (fun board => board.solve ()) build library = .ok answer after ∧
      (∀ queens, answer = some queens ↔ IsLeast {queens | Placement size queens} queens) ∧
      (answer = none ↔ ∀ queens, ¬Placement size queens) := by
  have hanswers : (withModel size fun board => board.solve ()).Yields build
      (Model.Answers {queens | Placement size queens}) :=
    (fit_board hpos hroom).yields_answer (local_board hroom) (fun queens => solves_board_iff hroom)
      (yields_model hpos hroom)
  obtain ⟨answer, after, hanswer, -, hleast⟩ := hanswers library hactive
  exact ⟨answer, after, hanswer, hleast.eq_some_iff, hleast.eq_none_iff⟩

/-- On four rows the first placement puts the first queen into the second column. -/
theorem solve_least_placement_four :
    let library : Library := { activations := 1 }
    (library.isActive = true ∧ 0 < 4 ∧ 4 * (4 - 1) / 2 * constraintBytes ≤ largestList) ∧
      IsLeast {queens | Placement 4 queens} [1, 3, 0, 2] := by
  intro library
  obtain ⟨answer, after, hanswer, hleast, -⟩ :=
    solve_least_placement 4 .checked library rfl (by decide) (by decide)
  have hvalue : (match withModel 4 (fun board => board.solve ()) .checked library with
      | .ok answer _ => answer
      | .error _ _ => none) = some [1, 3, 0, 2] := by decide +kernel
  rw [hanswer] at hvalue
  exact ⟨⟨rfl, by decide, by decide⟩, (hleast _).1 hvalue⟩

end ConstraintSearch.Queens
