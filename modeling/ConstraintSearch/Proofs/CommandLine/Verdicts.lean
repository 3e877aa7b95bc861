import ConstraintSearch.CommandLine.Program
import ConstraintSearch.Proofs.Puzzle.Faithful
import ConstraintSearch.Proofs.Puzzle.Limited
import ConstraintSearch.Proofs.Puzzle.Queens.Existence
import ConstraintSearch.Proofs.Puzzle.Sudoku.Drawing
import ConstraintSearch.Proofs.Puzzle.Sudoku.Model

/-!
# What the programs say

Neither program says anything wrong of its puzzle.  The queens program draws the first placement, or
says that there is none, only if its node limit allows as many tried values as the search needs, and
otherwise it says that it was stopped (`QueensOrder.Verdict`).  The sudoku program has no limit
(`SudokuOrder.Verdict`).

Either program is an operation that is carried out while a guard is held.  What such an operation
yields on an active library is what the program writes (`Ended.of_yields`), and if it fails, the
program writes nothing (`Ended.of_fails`).

How arguments are read is not said here.  `run` takes a parser, and whatever parser it is, a program
that is given an order by it does the work of that order; so the statements are about orders.
-/

namespace ConstraintSearch

/-- Limits with a flaw are refused before anything is tried. -/
theorem Search.fails_within {κ : Type} {search : Search Unit κ} {flaw : ConfigFlaw}
    (hflaw : search.config.flaw? = some flaw) (buffer : Array Nat) (build : Build) :
    (search.within buffer).Fails build (.fault (.invalidConfig flaw)) := by
  intro library hactive
  have hrefused : search.objection? build library.isActive buffer.size =
      some (.invalidConfig flaw) := by
    simp [objection?, hactive, hflaw]
  refine ⟨library, ?_⟩
  unfold within perform
  rw [hrefused]

namespace Queens

variable {build : Build} {size : Nat}

section Use

variable {α : Type} {use : Problem Unit Unit → Action α} (hpos : 0 < size)
  (hroom : size * (size - 1) / 2 * constraintBytes ≤ largestList)

include hpos hroom

/-- What is done with the problem of a board is done with the problem that is built. -/
theorem yields_withProblem {property : α → Prop}
    (h : (use (board build size).made).Yields build property) :
    (withModel size fun board => board.withProblem use).Yields build property := by
  refine (yields_model hpos hroom).bind ?_
  rintro _ rfl
  refine Action.Yields.followedBy ?_ Model.yields_drop
  refine (fit_board hpos hroom).yields_problem.bind ?_
  rintro _ rfl
  exact h.followedBy (Action.yields_record _)

theorem fails_withProblem {failure : Failure}
    (h : (use (board build size).made).Fails build failure) :
    (withModel size fun board => board.withProblem use).Fails build failure := by
  refine (yields_model hpos hroom).bind_fails ?_
  rintro _ rfl
  refine Action.Fails.followedBy ?_ _
  refine (fit_board hpos hroom).yields_problem.bind_fails ?_
  rintro _ rfl
  exact h.followedBy _

end Use

end Queens

namespace CommandLine

variable {build : Build}

/-! ## Ends -/

section Ended

variable {work : Action String}

theorem Ended.of_yields {property : String → Prop} (h : work.Yields build property) :
    ∃ output, (Ended.ofAction build work).1 = { exit := 0, output } ∧ property output := by
  obtain ⟨output, after, houtput, hproperty⟩ := h.whileHeld {}
  refine ⟨output, ?_, hproperty⟩
  unfold Ended.ofAction
  rw [houtput]

theorem Ended.of_fails {failure : Failure} (h : work.Fails build failure) :
    (Ended.ofAction build work).1 = Ended.ofFailure failure := by
  obtain ⟨after, hfailed⟩ := h.whileHeld {}
  unfold Ended.ofAction
  rw [hfailed]

end Ended

/-! ## Queens -/

namespace QueensOrder

variable {order : QueensOrder} {elapsed : Nat → Nat}

/-- The output is the drawing of the queens: each stands in its column, and all other squares are
empty. -/
structure Shows (queens : List Nat) (output : String) : Prop where
  drawing : output = Queens.render queens
  square : ∀ row < queens.length, ∀ column < queens.length,
    BoxGrid.cellAt? output row column = some (if queens[row]? = some column then '♛' else ' ')

theorem shows_render (queens : List Nat) : Shows queens (Queens.render queens) :=
  ⟨rfl, fun _ hrow _ hcolumn => Queens.cellAt?_render hrow hcolumn⟩

/-- What the program writes if its search needs so many tried values. -/
structure Verdict (order : QueensOrder) (needed : Nat) (output : String) : Prop where
  placed : order.config.Allows needed → (∃ queens, Queens.Placement order.size queens) →
    ∃ queens, IsLeast {queens | Queens.Placement order.size queens} queens ∧ Shows queens output
  unsolvable : output = "No solution found\n" ↔
    order.config.Allows needed ∧ ∀ queens, ¬Queens.Placement order.size queens
  stopped : output = "Search stopped early: NodeLimit\n" ↔ ¬order.config.Allows needed

/-- No drawing of a board is a sentence. -/
theorem render_ne (queens : List Nat) {text : String} (htext : text.toList.head? ≠ some '┌') :
    Queens.render queens ≠ text := by
  rintro rfl
  exact htext (BoxGrid.head?_render _ _)

/-- The conclusion is right. -/
theorem verdict_conclusion
    (hroom : order.size * (order.size - 1) / 2 * Queens.constraintBytes ≤ largestList)
    {found : Result × Array Nat}
    (hfound : (Queens.board build order.size).Verdict () order.config found) :
    order.Verdict ((Queens.board build order.size).triedValues ())
      (conclusion found.1 found.2) := by
  have hsolves : ∀ queens, (Queens.board build order.size).Solves () queens ↔
      Queens.Placement order.size queens := fun _ => Queens.solves_board_iff hroom
  have hplacements : {queens | (Queens.board build order.size).Solves () queens} =
      {queens | Queens.Placement order.size queens} := Set.ext hsolves
  cases hfound with
  | solved hallows hstatus hleast =>
      -- Solved: a drawing is written, and a drawing is none of the two messages.
      have houtput : conclusion found.1 found.2 = Queens.render found.2.toList := by
        simp [conclusion, Result.isSolved, hstatus]
      rw [hplacements] at hleast
      rw [houtput]
      refine ⟨fun _ _ => ⟨_, hleast, shows_render _⟩, ?_, ?_⟩
      · exact iff_of_false (render_ne _ (by decide)) fun hnone => hnone.2 _ hleast.1
      · exact iff_of_false (render_ne _ (by decide)) (not_not_intro hallows)
  | exhausted hallows hstatus hnone =>
      -- Exhausted: there is no placement, and the search was not stopped.
      have houtput : conclusion found.1 found.2 = "No solution found\n" := by
        simp [conclusion, Result.isSolved, Result.isInfeasible, hstatus]
      have hempty : ∀ queens, ¬Queens.Placement order.size queens :=
        fun queens hqueens => hnone queens ((hsolves queens).2 hqueens)
      rw [houtput]
      refine ⟨fun _ hsome => absurd hsome.choose_spec (hempty _), ?_, ?_⟩
      · exact iff_of_true rfl ⟨hallows, hempty⟩
      · exact iff_of_false (by decide) (not_not_intro hallows)
  | stopped hnot hstatus =>
      -- Stopped: neither of the other two may be said, and neither is.
      have houtput : conclusion found.1 found.2 = QueensOrder.stopped .nodeLimit := by
        simp [conclusion, Result.isSolved, Result.isInfeasible, hstatus]
      rw [houtput]
      refine ⟨fun hallows => absurd hallows hnot, ?_, ?_⟩
      · exact iff_of_false (by decide) fun hnone => hnot hnone.1
      · exact iff_of_true (by decide) hnot

section Placed

variable (hpos : 0 < order.size)
  (hroom : order.size * (order.size - 1) / 2 * Queens.constraintBytes ≤ largestList)

include hpos hroom

theorem yields_work (hconfig : order.config.flaw? = none) (htime : order.config.timeLimit = none) :
    (order.work elapsed).Yields build
      (order.Verdict ((Queens.board build order.size).triedValues ())) := by
  have hsearch : (((Queens.board build order.size).limited () order.config elapsed).within
      (Array.replicate order.size 0)).Yields build
      ((Queens.board build order.size).Verdict () order.config) :=
    (Queens.fit_board hpos hroom).yields_verdict (Queens.local_board hroom) hconfig htime elapsed
  exact Queens.yields_withProblem hpos hroom
    (hsearch.bind fun _ hfound =>
      (Action.yields_record _).bind fun _ _ => .pure (verdict_conclusion hroom hfound))

theorem fails_work {flaw : ConfigFlaw} (hflaw : order.config.flaw? = some flaw) :
    (order.work elapsed).Fails build (.fault (.invalidConfig flaw)) :=
  Queens.fails_withProblem hpos hroom ((Search.fails_within hflaw _ build).bind _)

/-- A limit of zero is a fault. -/
theorem ended_of_zero (hlimit : order.config.nodeLimit = some 0)
    (hinterval : 0 < order.config.checkInterval) :
    (Ended.ofAction build (order.work elapsed)).1.exit = 101 ∧
      (Ended.ofAction build (order.work elapsed)).1.output = "" := by
  have hflaw : order.config.flaw? = some .zeroNodeLimit := by
    rw [Config.flaw?, if_neg (Nat.ne_of_gt hinterval), if_pos hlimit]
  rw [Ended.of_fails (fails_work hpos hroom hflaw)]
  exact ⟨rfl, rfl⟩

theorem ended_of_ne_zero (hlimit : order.config.nodeLimit ≠ some 0)
    (hinterval : 0 < order.config.checkInterval) (htime : order.config.timeLimit = none) :
    (Ended.ofAction build (order.work elapsed)).1.exit = 0 ∧
      order.Verdict ((Queens.board build order.size).triedValues ())
        (Ended.ofAction build (order.work elapsed)).1.output := by
  have hconfig : order.config.flaw? = none :=
    (Config.flaw?_eq_none_iff _).2 ⟨hinterval, hlimit, by simp [htime]⟩
  obtain ⟨output, hended, hverdict⟩ := Ended.of_yields (yields_work hpos hroom hconfig htime)
  rw [hended]
  exact ⟨rfl, hverdict⟩

end Placed

/-- Given its arguments, the program does the work they ask for, however they are read. -/
theorem run_of_parse {parse : List String → Except Stop QueensOrder} {arguments : List String}
    (hparse : parse arguments = .ok order) :
    run parse build elapsed arguments = (Ended.ofAction build (order.work elapsed)).1 := by
  unfold run
  rw [hparse]

end QueensOrder

/-! ## Sudoku -/

namespace SudokuOrder

variable {order : SudokuOrder} {grid : Sudoku.Grid}

/-- What the program writes about a grid. -/
structure Verdict (grid : Sudoku.Grid) (output : String) : Prop where
  completed : (∃ values, Sudoku.Completion grid values) →
    ∃ values drawing, IsLeast {values | Sudoku.Completion grid values} values ∧
      output = "Solution found\n" ++ drawing ∧
      Sudoku.readDrawing drawing = .ok (.ofValues values)
  unsolvable : output = "No solution found\n" ↔ ∀ values, ¬Sudoku.Completion grid values

theorem yields_work (hparse : Sudoku.Grid.parse order.puzzle = .ok grid) :
    order.work.Yields build (Verdict grid) := by
  have hgrid := Sudoku.Grid.wellFormed_of_parse hparse
  unfold work
  rw [hparse]
  refine Action.Yields.bind (.pure rfl) ?_
  rintro _ rfl
  refine (Sudoku.yields_solve hgrid).bind ?_
  intro solution hsolution
  cases solution with
  | none =>
      refine .pure ⟨fun hsome => absurd hsome.choose_spec (hsolution _), ?_⟩
      exact iff_of_true rfl hsolution
  | some values =>
      have hleast : IsLeast {values | Sudoku.Completion grid values} values := hsolution
      have hlength := hleast.1.length
      have hlt := hleast.1.lt
      refine Action.yields_read.bind ?_
      rintro build rfl
      refine (Action.yields_ofExcept (Sudoku.render_eq_drawing hlength hlt)).bind ?_
      rintro _ rfl
      refine .pure ⟨fun _ => ⟨values, _, hleast, rfl, Sudoku.readDrawing_drawing hlength hlt⟩, ?_⟩
      refine iff_of_false ?_ fun hnone => hnone values hleast.1
      intro hsame
      have hhead : ("Solution found\n" ++ Sudoku.drawing values).toList.head? = some 'S' := by
        rw [String.toList_append]
        rfl
      rw [hsame] at hhead
      exact absurd hhead (by decide)

theorem fails_work {error : ProblemError}
    (hparse : Sudoku.Grid.parse order.puzzle = .error error) :
    order.work.Fails build (.problem error) := by
  unfold work
  rw [hparse]
  exact (Action.fails_refused error).bind _

theorem ended_of_ok (hparse : Sudoku.Grid.parse order.puzzle = .ok grid) :
    (Ended.ofAction build order.work).1.exit = 0 ∧
      Verdict grid (Ended.ofAction build order.work).1.output := by
  obtain ⟨output, hended, hverdict⟩ := Ended.of_yields (yields_work hparse)
  rw [hended]
  exact ⟨rfl, hverdict⟩

theorem ended_of_error {error : ProblemError}
    (hparse : Sudoku.Grid.parse order.puzzle = .error error) :
    (Ended.ofAction build order.work).1.exit = 1 ∧
      (Ended.ofAction build order.work).1.output = "" := by
  rw [Ended.of_fails (fails_work hparse)]
  exact ⟨rfl, rfl⟩

/-- Given its arguments, the program does the work they ask for, however they are read. -/
theorem run_of_parse {parse : List String → Except Stop SudokuOrder} {arguments : List String}
    (hparse : parse arguments = .ok order) :
    run parse build arguments = (Ended.ofAction build order.work).1 := by
  unfold run
  rw [hparse]

end SudokuOrder

/-- **Verdicts.**  Once its arguments are read, by whatever reads them, neither program says anything
wrong of its puzzle, in either build and by any clock.

Let no time limit be given for a board of any positive size for which the list of constraints can be
made.  There is a number of tried values that the search for its queens needs without limits.  A limit
of zero is a fault, and nothing is written.  With any other limit, or none, the program succeeds: it
draws the first placement if there is one and the limit allows the needed values, says that there is
no solution exactly if there is none and the limit allows them, and says that it was stopped exactly
if the limit does not allow them.

A puzzle that is not read as a grid, and no other, ends the program with exit code 1, and nothing is
written.  Of any other puzzle the program writes a drawing that reads back as the first completion, or
that there is no solution exactly if there is none. -/
theorem verdicts (build : Build) (elapsed : Nat → Nat) :
    (∀ (size : Nat) (limit : Option Nat) (verbose : Bool), 0 < size →
      size * (size - 1) / 2 * Queens.constraintBytes ≤ largestList →
      ∃ needed,
        (Queens.withModel size fun board => board.withProblem fun problem =>
          ({ problem, context := () } : Search Unit Unit).within
            (Array.replicate size 0)).Yields build (·.1.stats.nodes = needed) ∧
        let order : QueensOrder := { size, config := { nodeLimit := limit }, verbose }
        let ended := (Ended.ofAction build (order.work elapsed)).1
        (∀ (parse : List String → Except Stop QueensOrder) (arguments : List String),
          parse arguments = .ok order → QueensOrder.run parse build elapsed arguments = ended) ∧
        (limit = some 0 → ended.exit = 101 ∧ ended.output = "") ∧
        (limit ≠ some 0 → ended.exit = 0 ∧ order.Verdict needed ended.output)) ∧
    ∀ (puzzle : String) (verbose : Bool),
      let order : SudokuOrder := { puzzle, verbose }
      let ended := (Ended.ofAction build order.work).1
      (∀ (parse : List String → Except Stop SudokuOrder) (arguments : List String),
        parse arguments = .ok order → SudokuOrder.run parse build arguments = ended) ∧
      (ended.exit = 1 ∧ ended.output = "" ↔ ∃ error, Sudoku.Grid.parse puzzle = .error error) ∧
      ∀ grid, Sudoku.Grid.parse puzzle = .ok grid →
        ended.exit = 0 ∧ SudokuOrder.Verdict grid ended.output := by
  constructor
  · intro size limit verbose hpos hroom
    -- What the search needs is what it tries without a limit.
    refine ⟨(Queens.board build size).triedValues (), ?_, ?_⟩
    · have hsearch : (((Queens.board build size).limited () {} fun _ => 0).within
          (Array.replicate size 0)).Yields build
          (·.1.stats.nodes = (Queens.board build size).triedValues ()) :=
        (Queens.fit_board hpos hroom).yields_unlimited (Queens.local_board hroom) _
      exact Queens.yields_withProblem hpos hroom hsearch
    · intro order ended
      refine ⟨fun _ _ hparse => QueensOrder.run_of_parse hparse, ?_, ?_⟩
      · intro hlimit
        exact QueensOrder.ended_of_zero hpos hroom hlimit (Nat.succ_pos _)
      · intro hlimit
        exact QueensOrder.ended_of_ne_zero hpos hroom hlimit (Nat.succ_pos _) rfl
  · intro puzzle verbose order ended
    refine ⟨fun _ _ hparse => SudokuOrder.run_of_parse hparse, ?_,
      fun _ hparse => SudokuOrder.ended_of_ok hparse⟩
    -- A text that is a grid ends with exit code 0, so exit code 1 is for the other texts.
    cases hparse : Sudoku.Grid.parse puzzle with
    | ok grid =>
        have hexit : ended.exit = 0 := (SudokuOrder.ended_of_ok hparse).1
        exact iff_of_false (fun h => by omega) nofun
    | error error => exact iff_of_true (SudokuOrder.ended_of_error hparse) ⟨error, rfl⟩

/-- Two queens need six tried values to find out that there is no solution.  With a limit of six the
program says so, though it stops trying where the limit would have stopped it, and with a limit of
five it does not.  Three digits are no sudoku. -/
theorem verdicts_twoQueens :
    let order : Nat → QueensOrder := fun limit =>
      { size := 2, config := { nodeLimit := some limit }, verbose := false }
    let queens : Nat → Ended := fun limit =>
      (Ended.ofAction .checked ((order limit).work fun _ => 0)).1
    (0 < 2 ∧ 2 * (2 - 1) / 2 * Queens.constraintBytes ≤ largestList) ∧
      (queens 6).output = "No solution found\n" ∧
      (queens 5).output = "Search stopped early: NodeLimit\n" ∧
      (Ended.ofAction .checked ({ puzzle := "123", verbose := false } : SudokuOrder).work).1.exit =
        1 := by
  intro order queens
  obtain ⟨hqueens, hsudoku⟩ := verdicts .checked fun _ => 0
  have hneeded : ∀ {needed}, (Queens.withModel 2 fun board => board.withProblem fun problem =>
      ({ problem, context := () } : Search Unit Unit).within (Array.replicate 2 0)).Yields .checked
      (·.1.stats.nodes = needed) → needed = 6 := by
    intro needed hyields
    obtain ⟨found, after, hfound, -, rfl⟩ := hyields { activations := 1 } rfl
    have hsix : (match (Queens.withModel 2 fun board => board.withProblem fun problem =>
        ({ problem, context := () } : Search Unit Unit).within (Array.replicate 2 0)) .checked
        { activations := 1 } with
        | .ok found _ => found.1.stats.nodes
        | .error _ _ => 0) = 6 := by decide +kernel
    rw [hfound] at hsix
    exact hsix
  have hnone : ∀ placed, ¬Queens.Placement 2 placed := by
    intro placed hplaced
    exact (Queens.exists_placement_iff.1 ⟨placed, hplaced⟩).1 rfl
  refine ⟨⟨by decide, by decide⟩, ?_, ?_, ?_⟩
  · obtain ⟨needed, hyields, -, -, hverdict⟩ := hqueens 2 (some 6) false (by decide) (by decide)
    obtain rfl := hneeded hyields
    refine (hverdict (by decide)).2.unsolvable.2 ⟨fun limit hlimit => ?_, hnone⟩
    exact Nat.le_of_eq (Option.some.inj hlimit)
  · obtain ⟨needed, hyields, -, -, hverdict⟩ := hqueens 2 (some 5) false (by decide) (by decide)
    obtain rfl := hneeded hyields
    refine (hverdict (by decide)).2.stopped.2 fun hallows => ?_
    exact absurd (hallows 5 rfl) (by decide)
  · obtain ⟨-, hfailed, -⟩ := hsudoku "123" false
    exact (hfailed.2 ⟨.invalidPuzzle "expected 81 cells, found 3", by decide +kernel⟩).1

end CommandLine

end ConstraintSearch
