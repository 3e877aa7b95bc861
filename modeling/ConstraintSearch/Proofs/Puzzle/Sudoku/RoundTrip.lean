import ConstraintSearch.Proofs.Puzzle.Sudoku.Grammar

/-!
# Writing and reading grids

A text and its `normalForm`, which has no white space and a full stop for every zero, are the same
grid (`parse_normalForm`).  A grid is written in the normal form of whatever text it was read from
(`text_of_parse`).  So reading what was written gives the grid again, and two texts are the same grid
exactly when they have the same normal form (`parse_writes_normalForm`).

All of this rests on the digits of a grid that was read: they are those from 1 to 9, so each has a
symbol of its own and none is written like a blank.
-/

namespace ConstraintSearch.Sudoku.Grid

variable {text : String} {grid : Grid} {c : Char} {cell : Option Nat} {cs : List Char}
  {cells : List (Option Nat)}

/-- The symbol to write: a blank is always a full stop. -/
def plain (c : Char) : Char := if c = '0' then '.' else c

/-- A text without its white space, and with a full stop for every zero. -/
def normalForm (text : String) : String := String.ofList ((visible text).map plain)

/-! ## Reading a normal form -/

theorem mem_symbols_plain_iff : (plain c, cell) ∈ symbols ↔ (c, cell) ∈ symbols := by
  unfold plain
  split_ifs with hzero
  · subst hzero
    cases cell <;> simp [symbols]
  · rfl

theorem visible_normalForm (text : String) :
    visible (normalForm text) = (visible text).map plain := by
  have hvisible : ∀ c ∈ (visible text).map plain, c.toNat ∉ whiteSpace := by
    intro c hc
    obtain ⟨other, hother, rfl⟩ := List.mem_map.1 hc
    unfold plain
    split_ifs
    · decide
    · exact of_decide_eq_true (List.mem_filter.1 hother).2
  rw [visible, normalForm, String.toList_ofList, List.filter_eq_self]
  exact fun c hc => decide_eq_true (hvisible c hc)

/-- A text and its normal form are the same grid, or both are none. -/
theorem parse_normalForm : parse (normalForm text) = .ok grid ↔ parse text = .ok grid := by
  rw [parse_eq_ok_iff, parse_eq_ok_iff, visible_normalForm, List.length_map,
    List.forall₂_map_left_iff]
  simp only [mem_symbols_plain_iff]

/-! ## Writing -/

theorem cellText_of_mem_symbols (h : (c, cell) ∈ symbols) : (cellText cell).toList = [plain c] := by
  simp only [symbols, List.mem_cons, List.not_mem_nil, Prod.mk.injEq, or_false] at h
  rcases h with ⟨rfl, rfl⟩ | ⟨rfl, rfl⟩ | ⟨rfl, rfl⟩ | ⟨rfl, rfl⟩ | ⟨rfl, rfl⟩ | ⟨rfl, rfl⟩ |
    ⟨rfl, rfl⟩ | ⟨rfl, rfl⟩ | ⟨rfl, rfl⟩ | ⟨rfl, rfl⟩ | ⟨rfl, rfl⟩ <;> decide

theorem flatMap_cellText (h : List.Forall₂ (fun c cell => (c, cell) ∈ symbols) cs cells) :
    cells.flatMap (fun cell => (cellText cell).toList) = cs.map plain := by
  induction h with
  | nil => rfl
  | cons hcell _ ih =>
      rw [List.flatMap_cons, cellText_of_mem_symbols hcell, ih]
      rfl

theorem text_of_parse (h : parse text = .ok grid) : grid.text = normalForm text := by
  have hcells := (parse_eq_ok_iff.1 h).2
  rw [← String.toList_inj, Grid.text, String.toList_join, List.flatMap_map, normalForm,
    String.toList_ofList]
  exact flatMap_cellText hcells

/-- **Reading undoes writing, and writing undoes reading up to the normal form.**  A grid that was
read from a text is written in the normal form of that text, and it is read again from what was
written; writing it once more changes nothing.  The texts that are the same grid are those with the
same normal form. -/
theorem parse_writes_normalForm (h : parse text = .ok grid) :
    parse grid.text = .ok grid ∧ grid.text = normalForm text ∧
      (parse grid.text).map Grid.text = .ok grid.text ∧
      ∀ other, parse other = .ok grid ↔ normalForm other = normalForm text := by
  have htext : grid.text = normalForm text := text_of_parse h
  have hread : parse grid.text = .ok grid := by
    rw [htext]
    exact parse_normalForm.2 h
  refine ⟨hread, htext, ?_, fun other => ⟨fun hother => ?_, fun hnormal => ?_⟩⟩
  · rw [hread]
    rfl
  · rw [← text_of_parse hother, htext]
  · rw [← parse_normalForm, hnormal, parse_normalForm]
    exact h

/-- A text that begins with a tab and a zero and ends with a no-break space and a new line; one cell has
a five, and all other blanks are full stops. -/
theorem parse_writes_normalForm_spaced :
    let spaced :=
      "\t0...................5............................................................\u00a0\n"
    let written :=
      "....................5............................................................"
    let grid : Grid := ⟨List.replicate 20 none ++ some 5 :: List.replicate 60 none⟩
    parse spaced = .ok grid ∧ grid.text = written ∧ parse written = .ok grid := by
  intro spaced written grid
  have hgrid : parse spaced = .ok grid := by decide +kernel
  have hwritten : grid.text = written := by decide +kernel
  obtain ⟨hread, -, -, -⟩ := parse_writes_normalForm hgrid
  exact ⟨hgrid, hwritten, hwritten ▸ hread⟩

end ConstraintSearch.Sudoku.Grid
