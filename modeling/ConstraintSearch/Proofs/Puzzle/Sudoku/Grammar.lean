import ConstraintSearch.Proofs.Puzzle.Sudoku.Grid
import ConstraintSearch.Proofs.Text.Spelling
import Mathlib.Tactic.IntervalCases
import Std.Data.String.ToNat

/-!
# The texts that are grids

A text is a grid if its visible characters are 81 and each is one of the eleven `symbols`; then
they are the cells, in order.  A text that is no grid is refused in one of two ways.  If it shows a
character that is no symbol, the first such character is named (`firstForeign?`), wherever it
stands and however many cells there are; only a text of symbols alone is told their number.

`parse_eq_ok_iff`, `parse_eq_unexpected_iff` and `parse_eq_miscounted_iff` are the three outcomes,
and `parse_grammar` puts them together.
-/

namespace ConstraintSearch.Sudoku.Grid

variable {text : String} {c : Char} {cs : List Char} {cell : Option Nat}

/-! ## Symbols -/

/-- What stands for a cell: a full stop or a zero for a blank, and each other digit for itself. -/
def symbols : List (Char × Option Nat) :=
  [('.', none), ('0', none), ('1', some 1), ('2', some 2), ('3', some 3), ('4', some 4),
   ('5', some 5), ('6', some 6), ('7', some 7), ('8', some 8), ('9', some 9)]

/-- Whether a character stands for a cell. -/
def IsSymbol (c : Char) : Prop := c ∈ symbols.map Prod.fst

instance : DecidablePred IsSymbol := fun c => inferInstanceAs (Decidable (c ∈ symbols.map Prod.fst))

/-- The characters of a text that are not white space. -/
def visible (text : String) : List Char := text.toList.filter fun c => c.toNat ∉ whiteSpace

/-- The first character of a text that is neither white space nor stands for a cell. -/
def firstForeign? (text : String) : Option Char :=
  text.toList.find? fun c => c.toNat ∉ whiteSpace ∧ ¬IsSymbol c

theorem readCell_eq_ok_iff : readCell c = .ok cell ↔ (c, cell) ∈ symbols := by
  constructor
  · intro h
    unfold readCell at h
    split_ifs at h with hblank hdigit
    · cases h
      rcases hblank with rfl | rfl <;> decide
    · cases h
      have hlow : 49 ≤ c.toNat := hdigit.1
      have hhigh : c.toNat ≤ 57 := hdigit.2
      rw [← Char.ofNat_toNat c]
      generalize c.toNat = n at hlow hhigh
      interval_cases n <;> decide
  · intro h
    simp only [symbols, List.mem_cons, List.not_mem_nil, Prod.mk.injEq, or_false] at h
    rcases h with ⟨rfl, rfl⟩ | ⟨rfl, rfl⟩ | ⟨rfl, rfl⟩ | ⟨rfl, rfl⟩ | ⟨rfl, rfl⟩ | ⟨rfl, rfl⟩ |
      ⟨rfl, rfl⟩ | ⟨rfl, rfl⟩ | ⟨rfl, rfl⟩ | ⟨rfl, rfl⟩ | ⟨rfl, rfl⟩ <;> rfl

theorem isSymbol_iff : IsSymbol c ↔ ∃ cell, readCell c = .ok cell := by
  simp only [readCell_eq_ok_iff, IsSymbol, List.mem_map, Prod.exists, exists_eq_right, exists_and_right]

/-! ## Refusals -/

/-- The refusal that names a character. -/
def unexpected (c : Char) : ProblemError :=
  .invalidPuzzle ("unexpected character " ++ quotedChar c)

/-- The refusal that tells a number of cells. -/
def miscounted (count : Nat) : ProblemError :=
  .invalidPuzzle ("expected 81 cells, found " ++ toString count)

theorem unexpected_inj {other : Char} : unexpected c = unexpected other ↔ c = other := by
  simp only [unexpected, ProblemError.invalidPuzzle.injEq, String.append_right_inj, quotedChar_inj]

theorem miscounted_inj {count other : Nat} : miscounted count = miscounted other ↔ count = other := by
  simp only [miscounted, ProblemError.invalidPuzzle.injEq, String.append_right_inj,
    Nat.toString_eq_repr, Nat.repr_inj]

theorem unexpected_ne_miscounted {count : Nat} : unexpected c ≠ miscounted count := by
  intro h
  injection h with h
  have hhead := congrArg (fun text : String => text.toList.head?) h
  simp at hhead

theorem readCell_of_not_isSymbol (h : ¬IsSymbol c) : readCell c = .error (unexpected c) := by
  cases hcell : readCell c with
  | ok cell => exact absurd (isSymbol_iff.2 ⟨cell, hcell⟩) h
  | error error =>
      unfold readCell at hcell
      split_ifs at hcell
      exact hcell.symm

/-- The first character that stands for no cell is told, and nothing after it is looked at. -/
theorem mapM_readCell_of_find? (h : cs.find? (fun c => ¬IsSymbol c) = some c) :
    cs.mapM readCell = .error (unexpected c) := by
  induction cs with
  | nil => cases h
  | cons first cs ih =>
      rw [List.mapM_cons]
      by_cases hfirst : IsSymbol first
      · rw [List.find?_cons_of_neg (by simpa using hfirst)] at h
        obtain ⟨cell, hcell⟩ := isSymbol_iff.1 hfirst
        rw [hcell, ih h]
        rfl
      · rw [List.find?_cons_of_pos (by simpa using hfirst)] at h
        cases h
        rw [readCell_of_not_isSymbol hfirst]
        rfl

theorem exists_cells (h : ∀ c ∈ cs, IsSymbol c) : ∃ cells, cs.mapM readCell = .ok cells := by
  induction cs with
  | nil => exact ⟨[], rfl⟩
  | cons first cs ih =>
      obtain ⟨cell, hcell⟩ := isSymbol_iff.1 (h first List.mem_cons_self)
      obtain ⟨cells, hcells⟩ := ih fun c hc => h c (List.mem_cons_of_mem first hc)
      refine ⟨cell :: cells, ?_⟩
      rw [List.mapM_cons, hcell, hcells]
      rfl

/-! ## Texts -/

theorem filter_not_isBlank (text : String) :
    text.toList.filter (fun c => !isBlank c) = visible text := by
  refine List.filter_congr fun c _ => ?_
  by_cases hblank : c.toNat ∈ whiteSpace
  · rw [isBlank_iff.2 hblank]
    simp [hblank]
  · rw [Bool.eq_false_iff.2 (mt isBlank_iff.1 hblank)]
    simp [hblank]

theorem firstForeign?_eq (text : String) :
    firstForeign? text = (visible text).find? fun c => ¬IsSymbol c := by
  simp only [firstForeign?, visible, List.find?_filter, decide_eq_true_eq]

theorem firstForeign?_eq_none_iff : firstForeign? text = none ↔ ∀ c ∈ visible text, IsSymbol c := by
  simp [firstForeign?_eq]

theorem not_forall_isSymbol (h : firstForeign? text = some c) : ¬∀ c ∈ visible text, IsSymbol c := by
  rw [← firstForeign?_eq_none_iff, h]
  exact Option.some_ne_none c

theorem parse_of_foreign (h : firstForeign? text = some c) : parse text = .error (unexpected c) := by
  rw [firstForeign?_eq] at h
  rw [parse, filter_not_isBlank, mapM_readCell_of_find? h]
  rfl

/-- A foreign character is told before a wrong number of cells. -/
example : parse "12\n x?" = .error (unexpected 'x') := parse_of_foreign (by decide)

theorem parse_of_symbols (h : ∀ c ∈ visible text, IsSymbol c) :
    ((visible text).length = 81 ∧ ∃ grid, parse text = .ok grid) ∨
      ((visible text).length ≠ 81 ∧ parse text = .error (miscounted (visible text).length)) := by
  obtain ⟨cells, hcells⟩ := exists_cells h
  have hlength : (visible text).length = cells.length :=
    (mapM_readCell_eq_ok_iff.1 hcells).length_eq
  rw [parse, filter_not_isBlank, hcells, hlength]
  simp only [bind, Except.bind, pure, Except.pure]
  by_cases hcount : cells.length = cellCount
  · exact .inl ⟨hcount, ⟨cells⟩, if_pos hcount⟩
  · exact .inr ⟨hcount, if_neg hcount⟩

theorem parse_eq_ok_iff {grid : Grid} :
    parse text = .ok grid ↔ (visible text).length = 81 ∧
      List.Forall₂ (fun c cell => (c, cell) ∈ symbols) (visible text) grid.cells := by
  rw [parse_eq_ok_iff_forall₂, filter_not_isBlank]
  simp only [readCell_eq_ok_iff]
  constructor
  · rintro ⟨hcells, hlength⟩
    exact ⟨hcells.length_eq.trans hlength, hcells⟩
  · rintro ⟨hlength, hcells⟩
    exact ⟨hcells, hcells.length_eq.symm.trans hlength⟩

/-- How the reading of a text ends: with a foreign character, with a grid or with a count. -/
theorem parse_cases (text : String) :
    (∃ c, firstForeign? text = some c ∧ parse text = .error (unexpected c)) ∨
      ((∀ c ∈ visible text, IsSymbol c) ∧ (visible text).length = 81 ∧
        ∃ grid, parse text = .ok grid) ∨
      ((∀ c ∈ visible text, IsSymbol c) ∧ (visible text).length ≠ 81 ∧
        parse text = .error (miscounted (visible text).length)) := by
  cases hforeign : firstForeign? text with
  | some c => exact .inl ⟨c, rfl, parse_of_foreign hforeign⟩
  | none =>
      have hsymbols := firstForeign?_eq_none_iff.1 hforeign
      rcases parse_of_symbols hsymbols with hread | hrefused
      · exact .inr (.inl ⟨hsymbols, hread⟩)
      · exact .inr (.inr ⟨hsymbols, hrefused⟩)

theorem exists_parse_eq_ok_iff :
    (∃ grid, parse text = .ok grid) ↔
      (visible text).length = 81 ∧ ∀ c ∈ visible text, IsSymbol c := by
  rcases parse_cases text with ⟨c, hforeign, hparse⟩ | ⟨hsymbols, hlength, hparse⟩ |
    ⟨hsymbols, hlength, hparse⟩
  · refine iff_of_false (fun ⟨grid, hgrid⟩ => ?_) fun h => not_forall_isSymbol hforeign h.2
    cases hparse.symm.trans hgrid
  · exact iff_of_true hparse ⟨hlength, hsymbols⟩
  · refine iff_of_false (fun ⟨grid, hgrid⟩ => ?_) fun h => hlength h.1
    cases hparse.symm.trans hgrid

theorem parse_eq_unexpected_iff :
    parse text = .error (unexpected c) ↔ firstForeign? text = some c := by
  refine ⟨fun h => ?_, parse_of_foreign⟩
  rcases parse_cases text with ⟨other, hforeign, hparse⟩ | ⟨-, -, grid, hparse⟩ | ⟨-, -, hparse⟩
  · rw [hforeign, unexpected_inj.1 (Except.error.inj (hparse.symm.trans h))]
  · cases hparse.symm.trans h
  · exact absurd (Except.error.inj (h.symm.trans hparse)) unexpected_ne_miscounted

theorem parse_eq_miscounted_iff {count : Nat} :
    parse text = .error (miscounted count) ↔
      (∀ c ∈ visible text, IsSymbol c) ∧ (visible text).length = count ∧ count ≠ 81 := by
  rcases parse_cases text with ⟨c, hforeign, hparse⟩ | ⟨hsymbols, hlength, grid, hparse⟩ |
    ⟨hsymbols, hlength, hparse⟩
  · refine iff_of_false (fun h => ?_) fun h => not_forall_isSymbol hforeign h.1
    exact unexpected_ne_miscounted (Except.error.inj (hparse.symm.trans h))
  · refine iff_of_false (fun h => ?_) fun h => h.2.2 (h.2.1 ▸ hlength)
    cases hparse.symm.trans h
  · rw [hparse, Except.error.injEq, miscounted_inj]
    exact ⟨fun h => ⟨hsymbols, h, h ▸ hlength⟩, fun h => h.2.1⟩

/-- The grammar of grids, for every text: which texts are grids and of which cells; which character
is named where one is foreign, whatever the number of cells; and which number is told of a text
without one. -/
theorem parse_grammar (text : String) :
    ((∃ grid, parse text = .ok grid) ↔
      (visible text).length = 81 ∧ ∀ c ∈ visible text, IsSymbol c) ∧
    (∀ grid, parse text = .ok grid ↔ (visible text).length = 81 ∧
      List.Forall₂ (fun c cell => (c, cell) ∈ symbols) (visible text) grid.cells) ∧
    (∀ c, parse text = .error (unexpected c) ↔ firstForeign? text = some c) ∧
    (∀ count, parse text = .error (miscounted count) ↔
      (∀ c ∈ visible text, IsSymbol c) ∧ (visible text).length = count ∧ count ≠ 81) ∧
    ∀ grid, parse text = .ok grid → grid.cells.length = 81 ∧
      ∀ cell ∈ grid.cells, cell = none ∨ ∃ digit, cell = some digit ∧ 1 ≤ digit ∧ digit ≤ 9 := by
  refine ⟨exists_parse_eq_ok_iff, fun grid => parse_eq_ok_iff, fun c => parse_eq_unexpected_iff,
    fun count => parse_eq_miscounted_iff, fun grid hgrid => ?_⟩
  obtain ⟨hlength, hdigit⟩ := wellFormed_of_parse hgrid
  refine ⟨hlength, fun cell hcell => ?_⟩
  cases cell with
  | none => exact .inl rfl
  | some digit => exact .inr ⟨digit, rfl, hdigit digit hcell⟩

end ConstraintSearch.Sudoku.Grid
