import ConstraintSearch.Proofs.Puzzle.Queens

/-!
# Which boards have a placement

Two queens on a board of two rows attack each other, and so do two of three queens on a board of
three rows.  On every other board there is room for a queen on each row (`exists_placement_iff`).

On a board of `2 * half` rows the queens climb by two columns from row to row.  Where `half` does
not leave remainder `1` on division by three, they climb twice, over the odd columns and over the
even ones (`stairs`).  Where it does, two of these queens meet on a diagonal.  There the climb
starts near the middle and wraps round, and the lower half of the board is the upper half after half
a turn (`turned`).  Both layouts leave the main diagonal free, so a board with one row more has its
last queen in the corner (`Layout.corner`).
-/

namespace ConstraintSearch.Queens

variable {size half : Nat} {column : Nat → Nat}

/-- A column for each row of the board, such that no two queens attack each other. -/
structure Layout (size : Nat) (column : Nat → Nat) : Prop where
  lt : ∀ row < size, column row < size
  apart : ∀ i j, i < j → j < size →
    column i ≠ column j ∧ ((column i : Int) - column j).natAbs ≠ j - i

theorem Layout.placement (hlayout : Layout size column) :
    Placement size ((List.range size).map column) where
  length := by rw [List.length_map, List.length_range]
  on_board := by
    intro own hown
    obtain ⟨row, hrow, rfl⟩ := List.mem_map.1 hown
    exact hlayout.lt row (List.mem_range.1 hrow)
  apart := by
    intro i j own other hless hown hother
    simp only [List.getElem?_map, Option.map_eq_some_iff, List.getElem?_eq_some_iff,
      List.length_range, List.getElem_range] at hown hother
    obtain ⟨_, ⟨-, rfl⟩, rfl⟩ := hown
    obtain ⟨_, ⟨hj, rfl⟩, rfl⟩ := hother
    exact hlayout.apart _ _ hless hj

/-- A queen in the corner attacks no others if these stay off the main diagonal. -/
theorem Layout.corner (hlayout : Layout size column)
    (hdiagonal : ∀ row < size, column row ≠ row) :
    Layout (size + 1) fun row => if row = size then size else column row where
  lt := by
    intro row hrow
    split
    · exact Nat.lt_succ_self size
    · exact Nat.lt_succ_of_lt (hlayout.lt row (by omega))
  apart := by
    intro i j hless hj
    rw [if_neg (show i ≠ size by omega)]
    split
    · have hlt : column i < size := hlayout.lt i (by omega)
      have hoff : column i ≠ i := hdiagonal i (by omega)
      omega
    · exact hlayout.apart i j hless (by omega)

/-! ## The layouts -/

/-- The queens climb over the odd columns, then over the even ones. -/
def stairs (half row : Nat) : Nat :=
  if row < half then 2 * row + 1 else 2 * (row - half)

/-- Two of these queens are apart by `2 * half + 1` columns more or less than by rows if they stand
in different halves, and this is where division by three comes in. -/
theorem layout_stairs (hhalf : half % 3 ≠ 1) : Layout (2 * half) (stairs half) where
  lt := by
    intro row hrow
    unfold stairs
    split <;> omega
  apart := by
    intro i j hless hj
    unfold stairs
    rcases Nat.lt_or_ge j half with hupper | hlower
    · rw [if_pos hupper, if_pos (hless.trans hupper)]
      omega
    · rw [if_neg (Nat.not_lt.2 hlower)]
      split <;> omega

theorem stairs_ne {row : Nat} (hrow : row < 2 * half) : stairs half row ≠ row := by
  unfold stairs
  split <;> omega

/-- The queens of the upper half climb from near the middle and wrap round. -/
def wrapped (half row : Nat) : Nat :=
  if 2 * row ≤ half then 2 * row + half - 1 else 2 * row - half - 1

/-- The lower half of the board is the upper half after half a turn. -/
def turned (half row : Nat) : Nat :=
  if row < half then wrapped half row else 2 * half - 1 - wrapped half (2 * half - 1 - row)

theorem wrapped_lt {row : Nat} (hhalf : 4 ≤ half) (hrow : row < half) :
    wrapped half row < 2 * half := by
  unfold wrapped
  split <;> omega

theorem layout_turned (hhalf : half % 3 = 1) (hfour : 4 ≤ half) :
    Layout (2 * half) (turned half) where
  lt := by
    intro row hrow
    unfold turned
    split
    · exact wrapped_lt hfour ‹row < half›
    · omega
  apart := by
    intro i j hless hj
    unfold turned wrapped
    -- By the halves of the board that the two rows are in: both above, one in each, or both below.
    -- In each case the columns and the diagonals are compared with or without the wrap.
    rcases Nat.lt_or_ge j half with hupper | hlower
    · rw [if_pos hupper, if_pos (hless.trans hupper)]
      split <;> split <;> omega
    · rw [if_neg (Nat.not_lt.2 hlower)]
      rcases Nat.lt_or_ge i half with hfirst | hsecond
      · rw [if_pos hfirst]
        split <;> split <;> omega
      · rw [if_neg (Nat.not_lt.2 hsecond)]
        split <;> split <;> omega

theorem turned_ne {row : Nat} (hhalf : half % 3 = 1) (hfour : 4 ≤ half) (hrow : row < 2 * half) :
    turned half row ≠ row := by
  unfold turned wrapped
  split <;> split <;> omega

/-- On an even number of rows other than two there is a layout that leaves the main diagonal
free. -/
theorem exists_layout_even (hhalf : half ≠ 1) :
    ∃ column, Layout (2 * half) column ∧ ∀ row < 2 * half, column row ≠ row := by
  by_cases hthird : half % 3 = 1
  · have hfour : 4 ≤ half := by omega
    exact ⟨turned half, layout_turned hthird hfour, fun _ => turned_ne hthird hfour⟩
  · exact ⟨stairs half, layout_stairs hthird, fun _ => stairs_ne⟩

theorem exists_layout (htwo : size ≠ 2) (hthree : size ≠ 3) : ∃ column, Layout size column := by
  have hhalf : size / 2 ≠ 1 := by omega
  obtain ⟨column, hlayout, hdiagonal⟩ := exists_layout_even hhalf
  rcases Nat.mod_two_eq_zero_or_one size with heven | hodd
  · have hsize : 2 * (size / 2) = size := by omega
    rw [hsize] at hlayout
    exact ⟨column, hlayout⟩
  · have hsize : 2 * (size / 2) + 1 = size := by omega
    have hcorner := hlayout.corner hdiagonal
    rw [hsize] at hcorner
    exact ⟨_, hcorner⟩

/-! ## Boards without a placement -/

theorem Placement.layout {queens : List Nat} (hplacement : Placement size queens) :
    Layout size fun row => queens.getD row 0 := by
  have hvalue : ∀ row < size, queens[row]? = some (queens.getD row 0) := by
    intro row hrow
    have hlength : row < queens.length := hplacement.length ▸ hrow
    rw [List.getD_eq_getElem?_getD, List.getElem?_eq_getElem hlength, Option.getD_some]
  constructor
  case lt =>
    intro row hrow
    exact hplacement.on_board _ (List.mem_of_getElem? (hvalue row hrow))
  case apart =>
    intro i j hless hj
    exact hplacement.apart i j _ _ hless (hvalue i (hless.trans hj)) (hvalue j hj)

theorem not_layout_two : ¬Layout 2 column := by
  intro hlayout
  have hfirst := hlayout.lt 0 (by omega)
  have hsecond := hlayout.lt 1 (by omega)
  have hapart := hlayout.apart 0 1 (by omega) (by omega)
  omega

/-- The queen in the middle attacks eight squares. -/
theorem not_layout_three : ¬Layout 3 column := by
  intro hlayout
  have hfirst := hlayout.lt 0 (by omega)
  have hsecond := hlayout.lt 1 (by omega)
  have hthird := hlayout.lt 2 (by omega)
  have hupper := hlayout.apart 0 1 (by omega) (by omega)
  have hlower := hlayout.apart 1 2 (by omega) (by omega)
  have houter := hlayout.apart 0 2 (by omega) (by omega)
  omega

/-- There is a placement on every board but those of two and of three rows. -/
theorem exists_placement_iff : (∃ queens, Placement size queens) ↔ size ≠ 2 ∧ size ≠ 3 := by
  constructor
  · rintro ⟨queens, hplacement⟩
    constructor
    · rintro rfl
      exact not_layout_two hplacement.layout
    · rintro rfl
      exact not_layout_three hplacement.layout
  · rintro ⟨htwo, hthree⟩
    obtain ⟨column, hlayout⟩ := exists_layout htwo hthree
    exact ⟨_, hlayout.placement⟩

/-- **Solvable boards.**  On an active library, in either build, the board of any positive size for
which the list of constraints can be made is solved, and it is found to have no solution exactly if
it has two rows or three. -/
theorem solve_eq_none_iff (size : Nat) (build : Build) (library : Library)
    (hactive : library.isActive = true) (hpos : 0 < size)
    (hroom : size * (size - 1) / 2 * constraintBytes ≤ largestList) :
    ∃ answer after, withModel size (fun board => board.solve ()) build library = .ok answer after ∧
      (answer = none ↔ size = 2 ∨ size = 3) := by
  obtain ⟨answer, after, hanswer, -, hleast⟩ := yields_solve hpos hroom library hactive
  refine ⟨answer, after, hanswer, ?_⟩
  rw [Model.Answers.eq_none_iff hleast]
  show (∀ queens, ¬Placement size queens) ↔ _
  rw [← not_exists, exists_placement_iff]
  omega

/-- Three queens cannot be placed, and fourteen can. -/
theorem solve_eq_none_iff_three :
    let library : Library := { activations := 1 }
    (library.isActive = true ∧ 0 < 14 ∧ 14 * (14 - 1) / 2 * constraintBytes ≤ largestList) ∧
      (∃ after, withModel 3 (fun board => board.solve ()) .checked library = .ok none after) ∧
      ∃ queens after,
        withModel 14 (fun board => board.solve ()) .checked library = .ok (some queens) after := by
  intro library
  refine ⟨⟨rfl, by decide, by decide⟩, ?_, ?_⟩
  · obtain ⟨answer, after, hanswer, hnone⟩ :=
      solve_eq_none_iff 3 .checked library rfl (by decide) (by decide)
    have hempty : answer = none := hnone.2 (.inr rfl)
    exact ⟨after, hempty ▸ hanswer⟩
  · obtain ⟨answer, after, hanswer, hnone⟩ :=
      solve_eq_none_iff 14 .checked library rfl (by decide) (by decide)
    cases answer with
    | some queens => exact ⟨queens, after, hanswer⟩
    | none => exact absurd (hnone.1 rfl) (by decide)

end ConstraintSearch.Queens
