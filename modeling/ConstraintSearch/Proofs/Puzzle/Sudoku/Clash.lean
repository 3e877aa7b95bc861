import ConstraintSearch.Proofs.Puzzle.Sudoku.Model
import ConstraintSearch.Proofs.Search.DeadEnd

/-!
# Clashing digits

When two cells of a row, a column or a box are given the same digit, a search need not go far to
find out.  Each of the two has to hold its digit, and the pair of them has to differ, so no viable
tuple reaches beyond the later one (`Clash.deadEnd`).  This takes a constraint for every two cells
that share a line, in one order or the other (`Linked.mem_cellPairs`).
-/

namespace ConstraintSearch.Sudoku

variable {build : Build} {grid : Grid} {line : Nat → Nat} {first i j : Nat}

/-- The cells share a row, a column or a box. -/
def Linked (cell other : Nat) : Prop :=
  row cell = row other ∨ column cell = column other ∨ box cell = box other

/-- The cells share a row, a column or a box, and are given the same digit. -/
structure Clash (grid : Grid) (i j : Nat) : Prop where
  lt : i < j
  linked : Linked i j
  same : ∃ digit, grid.cells[i]? = some (some digit) ∧ grid.cells[j]? = some (some digit)

/-! ## Every two cells of a line make a pair -/

theorem Lines.mem_cellPairs (h : Lines line first) (hfirst : first ≤ 18) (hline : line i < 9)
    (hi : i < cellCount) (hj : j < cellCount) (hne : i ≠ j) (hsame : line i = line j) :
    (i, j) ∈ cellPairs ∨ (j, i) ∈ cellPairs := by
  obtain ⟨place, hplace, hcell⟩ := h.exists_place i hi
  obtain ⟨other, hother, hcell'⟩ := h.exists_place j hj
  have hgroup : first + line i < 27 := by omega
  rw [← hsame] at hcell'
  rcases Nat.lt_trichotomy place other with hless | heq | hless
  · refine .inl (Sudoku.mem_cellPairs.2 ⟨_, hgroup, place, other, hless, hother, ?_⟩)
    rw [hcell, hcell']
  · rw [heq] at hcell
    exact absurd (hcell.symm.trans hcell') hne
  · refine .inr (Sudoku.mem_cellPairs.2 ⟨_, hgroup, other, place, hless, hplace, ?_⟩)
    rw [hcell, hcell']

theorem Linked.mem_cellPairs (h : Linked i j) (hi : i < cellCount) (hj : j < cellCount)
    (hne : i ≠ j) : (i, j) ∈ cellPairs ∨ (j, i) ∈ cellPairs := by
  have hcell : i < 81 := hi
  have hrow : row i < 9 := by
    unfold row
    omega
  have hcolumn : column i < 9 := Nat.mod_lt i (by omega)
  have hbox : box i < 9 := by
    unfold box
    omega
  rcases h with hsame | hsame | hsame
  · exact lines_row.mem_cellPairs (by omega) hrow hi hj hne hsame
  · exact lines_column.mem_cellPairs (by omega) hcolumn hi hj hne hsame
  · exact lines_box.mem_cellPairs (by omega) hbox hi hj hne hsame

/-! ## No viable tuple reaches beyond a clash -/

section Accepted

variable {bound : List Nat} {assignment : Array Nat}
  (haccepts : (puzzle grid).made.AcceptsUpTo grid.values.toArray bound.length assignment)

include haccepts

/-- A given cell that is bound holds its digit. -/
theorem getElem?_of_accepted_given {cell digit : Nat} (hbound : cell < bound.length)
    (hcell : cell < assignment.size) (hgiven : grid.cells[cell]? = some (some digit)) :
    assignment[cell]? = some (digit - 1) := by
  have hconstraint : givenConstraint cell ∈ (puzzle grid).constraints :=
    mem_puzzle.2 (.inl ⟨cell, Grid.mem_givenCells.2 ⟨digit, hgiven⟩, rfl⟩)
  have happlicable : (givenConstraint cell).isApplicable bound.length = true :=
    (Constraint.isApplicable_iff ..).2 fun v hv => List.mem_singleton.1 hv ▸ hbound
  obtain ⟨_, hcheck⟩ := haccepts _ (Model.mem_made.2 hconstraint) happlicable ()
  have hvalue : assignment[cell]? = some assignment[cell] := Array.getElem?_eq_getElem hcell
  rw [check_givenConstraint hvalue (Grid.getElem?_values_of_given hgiven)] at hcheck
  injection hcheck with hdecide
  rw [hvalue, of_decide_eq_true hdecide]

/-- The cells of a pair that is bound differ. -/
theorem getElem?_ne_of_accepted_pair {pair : Nat × Nat} (hpair : pair ∈ cellPairs)
    (hbound : pair.1 < bound.length) (hbound' : pair.2 < bound.length)
    (hcell : pair.1 < assignment.size) (hcell' : pair.2 < assignment.size) :
    assignment[pair.1]? ≠ assignment[pair.2]? := by
  have hconstraint : pairConstraint pair ∈ (puzzle grid).constraints :=
    mem_puzzle.2 (.inr ⟨pair, hpair, rfl⟩)
  have happlicable : (pairConstraint pair).isApplicable bound.length = true := by
    rw [Constraint.isApplicable_iff]
    intro v hv
    simp only [pairConstraint, List.mem_cons, List.not_mem_nil, or_false] at hv
    rcases hv with rfl | rfl
    · exact hbound
    · exact hbound'
  obtain ⟨_, hcheck⟩ := haccepts _ (Model.mem_made.2 hconstraint) happlicable ()
  have hvalue : assignment[pair.1]? = some assignment[pair.1] := Array.getElem?_eq_getElem hcell
  have hother : assignment[pair.2]? = some assignment[pair.2] := Array.getElem?_eq_getElem hcell'
  rw [check_pairConstraint hvalue hother] at hcheck
  injection hcheck with hdecide
  rw [hvalue, hother]
  exact fun hsame => of_decide_eq_true hdecide (Option.some.inj hsame)

end Accepted

theorem Grid.WellFormed.cell_lt (hgrid : grid.WellFormed) {cell digit : Nat}
    (hgiven : grid.cells[cell]? = some (some digit)) : cell < cellCount :=
  hgrid.length ▸ (List.getElem?_eq_some_iff.1 hgiven).1

/-- A tuple beyond a clash would have its digit in both cells. -/
theorem Clash.deadEnd (hgrid : grid.WellFormed) (h : Clash grid i j) :
    (puzzle grid).made.DeadEnd grid.values.toArray [] j := by
  intro values hviable
  rw [List.length_nil, Nat.zero_add]
  apply Nat.le_of_not_lt
  intro hj
  have hi : i < values.length := h.lt.trans hj
  -- Suppose a viable tuple binds the later cell.  Then some assignment with these values is
  -- accepted: both cells hold the digit, and they differ.
  obtain ⟨assignment, hsize, hprefix, haccepts⟩ :=
    hviable.exists_accepted (List.ne_nil_of_length_pos (Nat.zero_lt_of_lt hj)) (Nat.zero_le _)
  have hlength : values.length ≤ assignment.size := hprefix.length_le
  obtain ⟨digit, hfirst, hsecond⟩ := h.same
  have hsame : assignment[i]? = assignment[j]? := by
    calc assignment[i]?
        = some (digit - 1) :=
          getElem?_of_accepted_given haccepts hi (hi.trans_le hlength) hfirst
      _ = assignment[j]? :=
          (getElem?_of_accepted_given haccepts hj (hj.trans_le hlength) hsecond).symm
  rcases h.linked.mem_cellPairs (hgrid.cell_lt hfirst) (hgrid.cell_lt hsecond)
    (Nat.ne_of_lt h.lt) with hpair | hpair
  · exact getElem?_ne_of_accepted_pair haccepts hpair hi hj (hi.trans_le hlength)
      (hj.trans_le hlength) hsame
  · exact getElem?_ne_of_accepted_pair haccepts hpair hj hi (hj.trans_le hlength)
      (hi.trans_le hlength) hsame.symm

/-- **Clashing digits.**  When a grid that is read from a text gives one digit to two cells of a row,
a column or a box, an unlimited search of its problem is exhausted without coming beyond the later
of these cells: whatever is tried there is rejected, and no later cell is ever tried.  This goes for
every such pair of cells, and so for the one whose later cell comes first. -/
theorem exhausted_of_clash (text : String) (grid : Grid) (build : Build) (library : Library)
    (hparse : Grid.parse text = .ok grid) (hactive : library.isActive = true) :
    ∃ made after, (model grid >>= Model.problem) build library = .ok made after ∧
      ∀ i j, Clash grid i j → ∀ (search : Search Unit (Array Nat)) (buffer : Array Nat)
        (later : Library), search.problem = made → search.context = grid.values.toArray →
        search.start = 0 → search.Unlimited → search.config.flaw? = none → buffer.size = 81 →
        later.isActive = true →
        ∃ result, (search.perform buffer () build later).outcome = .ok result ∧
          result.status = .exhausted ∧ result.stats.maxDepth ≤ j ∧
          ∀ attempt ∈ search.attempts buffer () later.log, attempt.frontier ≤ j ∧
            (attempt.frontier = j → search.machine.rejects attempt = true) := by
  have hgrid := Grid.wellFormed_of_parse hparse
  have hmodel : (model grid >>= Model.problem).Yields build (· = (puzzle grid).made) := by
    refine (yields_model grid).bind ?_
    rintro _ rfl
    exact (fit_puzzle hgrid).yields_problem
  obtain ⟨_, after, hmade, -, rfl⟩ := hmodel library hactive
  refine ⟨_, after, hmade, ?_⟩
  intro i j hclash search buffer later hproblem hcontext hstart hunlimited hconfig hlength hlater
  have hready : search.Ready buffer build later := by
    refine ⟨fun _ => hlater, hconfig, hproblem ▸ (fit_puzzle hgrid).flaw?, ?_, ?_⟩
    · rw [hproblem, hlength]
      rfl
    · rw [hstart]
      exact Nat.zero_le _
  have hlocal : search.problem.Local search.context := by
    rw [hproblem, hcontext]
    exact local_made hgrid
  have hdead : search.problem.DeadEnd search.context (buffer.toList.take search.start) j := by
    rw [hproblem, hcontext, hstart, List.take_zero]
    exact hclash.deadEnd hgrid
  have hdepth : j < search.problem.domains.size := by
    obtain ⟨digit, -, hsecond⟩ := hclash.same
    rw [hproblem, Model.made, Array.size_replicate]
    exact hgrid.cell_lt hsecond
  exact hready.result_of_deadEnd hunlimited hlocal () hdead hdepth

/-- Two fives in the first box, in cells of different rows and columns, end the search at the
second. -/
theorem exhausted_of_clash_fives :
    let library : Library := { activations := 1 }
    let cells : List (Option Nat) :=
      some 5 :: List.replicate 19 none ++ some 5 :: List.replicate 60 none
    (Grid.parse
        "5...................5............................................................" =
        .ok { cells } ∧
      library.isActive = true) ∧
    Clash { cells } 0 20 ∧
    ∃ made after, (model { cells } >>= Model.problem) .checked library = .ok made after ∧
      ∃ result, (({ problem := made, context := (Grid.values { cells }).toArray } :
          Search Unit (Array Nat)).perform (Array.replicate 81 0) () .checked library).outcome =
          .ok result ∧
        result.status = .exhausted ∧ result.stats.maxDepth ≤ 20 := by
  intro library cells
  have hparse : Grid.parse
      "5...................5............................................................" =
      .ok { cells } := by
    decide +kernel
  have hclash : Clash { cells } 0 20 := ⟨by decide, .inr (.inr rfl), 5, rfl, rfl⟩
  obtain ⟨made, after, hmade, hsearch⟩ := exhausted_of_clash _ _ .checked library hparse rfl
  obtain ⟨result, hresult, hexhausted, hdepth, -⟩ := hsearch 0 20 hclash
    { problem := made, context := (Grid.values { cells }).toArray } (Array.replicate 81 0) library rfl
    rfl rfl ⟨rfl, rfl, fun _ _ => rfl⟩ rfl Array.size_replicate rfl
  exact ⟨⟨hparse, rfl⟩, hclash, made, after, hmade, result, hresult, hexhausted, hdepth⟩

end ConstraintSearch.Sudoku
