import ConstraintSearch.Puzzle.Sudoku.Grid
import Mathlib.Data.List.Forall2

/-!
# Grids that are read

A grid that is read from a text has 81 cells, and every digit given in it is one of `1, …, 9`.
-/

namespace ConstraintSearch.Sudoku.Grid

/-- What holds of a grid that is read from a text. -/
structure WellFormed (grid : Grid) : Prop where
  length : grid.cells.length = cellCount
  digit : ∀ digit, some digit ∈ grid.cells → 1 ≤ digit ∧ digit ≤ 9

theorem digit_of_readCell {c : Char} {digit : Nat} (h : readCell c = .ok (some digit)) :
    1 ≤ digit ∧ digit ≤ 9 := by
  unfold readCell at h
  split at h
  · cases h
  · split at h
    · rename_i hrange
      injection h with h
      injection h with h
      have hlow : '1'.toNat ≤ c.toNat := hrange.1
      have hhigh : c.toNat ≤ '9'.toNat := hrange.2
      have hone : '1'.toNat = 49 := rfl
      have hnine : '9'.toNat = 57 := rfl
      have hzero : '0'.toNat = 48 := rfl
      omega
    · cases h

/-- The cells are read one by one. -/
theorem mapM_readCell_eq_ok_iff {cs : List Char} {cells : List (Option Nat)} :
    cs.mapM readCell = .ok cells ↔ List.Forall₂ (fun c cell => readCell c = .ok cell) cs cells := by
  induction cs generalizing cells with
  | nil =>
      rw [List.mapM_nil, List.forall₂_nil_left_iff]
      exact ⟨fun h => (Except.ok.inj h).symm, fun h => h ▸ rfl⟩
  | cons c cs ih =>
      rw [List.mapM_cons, List.forall₂_cons_left_iff]
      constructor
      · intro h
        cases hcell : readCell c with
        | error error =>
            rw [hcell] at h
            cases h
        | ok cell =>
            cases hrest : cs.mapM readCell with
            | error error =>
                rw [hcell, hrest] at h
                cases h
            | ok rest =>
                rw [hcell, hrest] at h
                cases h
                exact ⟨cell, rest, rfl, ih.1 hrest, rfl⟩
      · rintro ⟨cell, rest, hcell, hrest, rfl⟩
        rw [hcell, ih.2 hrest]
        rfl

theorem parse_eq_ok_iff_forall₂ {text : String} {grid : Grid} :
    parse text = .ok grid ↔
      List.Forall₂ (fun c cell => readCell c = .ok cell) (text.toList.filter fun c => !isBlank c)
        grid.cells ∧ grid.cells.length = cellCount := by
  rw [← mapM_readCell_eq_ok_iff, parse]
  cases hcells : (text.toList.filter fun c => !isBlank c).mapM readCell with
  | error error =>
      constructor
      · intro h
        cases h
      · rintro ⟨h, -⟩
        cases h
  | ok cells =>
      simp only [bind, Except.bind, pure, Except.pure]
      by_cases hlength : cells.length = cellCount
      · rw [if_pos hlength]
        constructor
        · intro h
          cases h
          exact ⟨rfl, hlength⟩
        · rintro ⟨h, -⟩
          cases h
          rfl
      · rw [if_neg hlength]
        constructor
        · intro h
          cases h
        · rintro ⟨h, hgrid⟩
          cases h
          exact absurd hgrid hlength

theorem wellFormed_of_parse {text : String} {grid : Grid} (h : parse text = .ok grid) :
    grid.WellFormed := by
  obtain ⟨hcells, hlength⟩ := parse_eq_ok_iff_forall₂.1 h
  refine ⟨hlength, ?_⟩
  intro digit hdigit
  obtain ⟨cell, hcell, hvalue⟩ := List.getElem_of_mem hdigit
  have hread := hcells.get (hcells.length_eq ▸ hcell) hcell
  rw [List.get_eq_getElem, List.get_eq_getElem, hvalue] at hread
  exact digit_of_readCell hread

end ConstraintSearch.Sudoku.Grid
