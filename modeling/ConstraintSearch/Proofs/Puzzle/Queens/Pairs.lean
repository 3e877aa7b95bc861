import ConstraintSearch.Proofs.Puzzle.Queens
import Mathlib.Tactic.Ring

/-!
# The constraints of a board

The pairs of rows stand in lexicographic order, and each one stands in the list once
(`mem_pairs`, `pairwise_pairs`).  Row `i` is the first row of `size - i - 1` pairs, so the rows
above it make `i * (2 * size - i - 1) / 2` of them (`two_mul_length_pairsAbove`), and that is where
the pairs of row `i` begin (`getElem?_pairs`).

Whatever the library was when a model was made, its list of constraints is that of `board`
(`determined_model`), so every statement on the pairs is one on the model
(`constraints_are_pairs`).
-/

namespace ConstraintSearch.Queens

variable {build : Build} {size i j : Nat}

/-! ## Places in the list of pairs -/

/-- The pairs whose first row is the given one. -/
def pairsOf (size i : Nat) : List (Nat × Nat) := (List.range' (i + 1) (size - (i + 1))).map (i, ·)

theorem length_pairsOf (size i : Nat) : (pairsOf size i).length = size - (i + 1) := by
  rw [pairsOf, List.length_map, List.length_range']

/-- The pairs of the rows above, of the row, and of the rows below. -/
theorem pairs_eq (hi : i < size) :
    pairs size = (List.range i).flatMap (pairsOf size) ++
      (pairsOf size i ++ (List.range' (i + 1) (size - (i + 1))).flatMap (pairsOf size)) := by
  have hrows : List.range size = List.range i ++ i :: List.range' (i + 1) (size - (i + 1)) := by
    have hbelow : List.range' i (size - i) = i :: List.range' (i + 1) (size - (i + 1)) := by
      rw [show size - i = size - (i + 1) + 1 by omega, List.range'_succ]
    have hsplit : List.range' 0 i ++ List.range' (0 + i) (size - i) = List.range' 0 (i + (size - i)) :=
      List.range'_append_1
    rw [Nat.zero_add, Nat.add_sub_cancel' (Nat.le_of_lt hi), hbelow] at hsplit
    rw [List.range_eq_range', List.range_eq_range', hsplit]
  show (List.range size).flatMap (pairsOf size) = _
  rw [hrows, List.flatMap_append, List.flatMap_cons]

/-- The rows above row `i` make `size - 1`, `size - 2`, … pairs. -/
theorem two_mul_length_pairsAbove (hi : i ≤ size) :
    2 * ((List.range i).flatMap (pairsOf size)).length = i * (2 * size - i - 1) := by
  induction i with
  | zero => simp
  | succ i ih =>
      obtain ⟨below, rfl⟩ := Nat.exists_eq_add_of_le hi
      have habove : 2 * (i + 1 + below) - i - 1 = i + 1 + 2 * below := by omega
      have hnext : 2 * (i + 1 + below) - (i + 1) - 1 = i + 2 * below := by omega
      have hrow : i + 1 + below - (i + 1) = below := by omega
      have hbefore := ih (by omega)
      rw [habove] at hbefore
      rw [List.range_succ, List.flatMap_append, List.length_append, List.flatMap_singleton,
        length_pairsOf, Nat.mul_add, hbefore, hnext, hrow]
      ring

theorem getElem?_pairs (hlt : i < j) (hj : j < size) :
    (pairs size)[i * (2 * size - i - 1) / 2 + (j - i - 1)]? = some (i, j) := by
  have habove : i * (2 * size - i - 1) / 2 = ((List.range i).flatMap (pairsOf size)).length := by
    rw [← two_mul_length_pairsAbove (by omega : i ≤ size)]
    exact Nat.mul_div_cancel_left _ Nat.zero_lt_two
  have hrow : j - i - 1 < (pairsOf size i).length := by
    rw [length_pairsOf]
    omega
  rw [pairs_eq (show i < size by omega), habove, List.getElem?_append_right (Nat.le_add_right _ _),
    Nat.add_sub_cancel_left, List.getElem?_append_left hrow, pairsOf, List.getElem?_map,
    List.getElem?_range' (by omega)]
  simp only [Option.map_some, Option.some.injEq, Prod.mk.injEq, true_and]
  omega

/-- The pairs stand in lexicographic order. -/
theorem pairwise_pairs (size : Nat) :
    (pairs size).Pairwise fun earlier later =>
      [earlier.1, earlier.2] < [later.1, later.2] := by
  show ((List.range size).flatMap (pairsOf size)).Pairwise _
  rw [List.pairwise_flatMap]
  constructor
  · intro i _
    rw [pairsOf, List.pairwise_map]
    refine (List.pairwise_lt_range' 1 Nat.zero_lt_one).imp fun hlt => ?_
    exact List.Lex.cons (List.Lex.rel hlt)
  · refine List.pairwise_lt_range.imp fun hlt earlier hearlier later hlater => ?_
    obtain ⟨_, -, rfl⟩ := List.mem_map.1 hearlier
    obtain ⟨_, -, rfl⟩ := List.mem_map.1 hlater
    exact List.Lex.rel hlt

/-! ## The model that is made -/

theorem determined_model (size : Nat) : (model size).Determined build := by
  -- None of the steps looks at the library: the tests, the reading of the build and the constraints
  -- are all determined.
  have hpairs (other : Build) (first : Array (Constraint Unit Unit)) :
      Action.Determined ((pairs size).foldlM (fun constraints pair =>
        Model.addConstraint constraints (pairwise other) [pair.1, pair.2]) first) build :=
    Action.Determined.foldlM (fun _ _ => Model.determined_addConstraint _ _ _) (pairs size) first
  refine (Action.determined_unit _).bind fun _ => ?_
  refine Action.determined_read.bind fun other => ?_
  refine (Action.determined_ofExcept _).bind fun _ => ?_
  refine (Action.determined_unit _).bind fun _ => ?_
  by_cases hone : size = 1
  · simp only [if_pos hone]
    refine (Model.determined_addConstraint _ _ _).bind fun first => ?_
    exact (hpairs other first).bind fun _ => Action.determined_pure _
  · simp only [if_neg hone]
    refine (Action.determined_pure _).bind fun first => ?_
    exact (hpairs other first).bind fun _ => Action.determined_pure _

/-- A product that does not wrap around is that of the natural numbers. -/
theorem multiply_eq_of_ok {a b n : Nat} (h : build.multiply a b = .ok n)
    (hwords : build = .unchecked → a * b < wordCount) : n = a * b := by
  by_cases hlt : a * b < wordCount
  · rw [Build.multiply, build.asWord_of_lt .multiply hlt] at h
    exact (Except.ok.inj h).symm
  · cases build with
    | checked =>
        rw [Build.multiply, Build.asWord, if_neg hlt] at h
        cases h
    | unchecked => exact absurd (hwords rfl) hlt

/-- A model that is made had room for its constraints. -/
theorem room_of_ok {library after : Library} {made : Model Unit}
    (hmade : model size build library = .ok made after)
    (hwords : build = .unchecked → size * (size - 1) < wordCount) :
    0 < size ∧ size * (size - 1) / 2 * constraintBytes ≤ largestList := by
  obtain ⟨_, _, hpos, hmade⟩ := Action.exists_of_bind_ok hmade
  obtain ⟨_, _, ⟨⟩, hmade⟩ := Action.exists_of_bind_ok hmade
  obtain ⟨ordered, _, hordered, hmade⟩ := Action.exists_of_bind_ok hmade
  obtain ⟨_, _, hroom, -⟩ := Action.exists_of_bind_ok hmade
  obtain rfl := multiply_eq_of_ok (Action.eq_ok_of_ofExcept_ok hordered) hwords
  exact ⟨of_decide_eq_true (Action.eq_true_of_require_ok hpos),
    of_decide_eq_true (Action.eq_true_of_require_ok hroom)⟩

/-- With two rows or more, the constraints are those on the pairs. -/
theorem constraints_board (hsize : 2 ≤ size) :
    (board build size).constraints = ((pairs size).map (pairConstraint build)).toArray := by
  rw [board, if_neg (by omega : ¬size = 1), List.nil_append]

/-- The problem that is made from a board, whatever the library is by then. -/
theorem eq_made_of_ok (hpos : 0 < size)
    (hroom : size * (size - 1) / 2 * constraintBytes ≤ largestList) {library after : Library}
    {problem : Problem Unit Unit}
    (hproblem : (board build size).problem build library = .ok problem after) :
    problem = (board build size).made :=
  (fit_board hpos hroom).yields_problem.eq_of_ok (Model.determined_problem _) hproblem

/-- **The constraints of a board.**  Let the model of a board be made, in either build and whatever
the library was.  In the unchecked build let the product that the room is made by not wrap around: it
does so only where the list of constraints could not be addressed.

On two rows or more, the constraints are those on the pairs of rows, the upper row first.  They
stand in lexicographic order, each one once, and there are `size * (size - 1) / 2` of them, which is
what room was made for.  The constraint on rows `i` and `j` stands at place
`i * (2 * size - i - 1) / 2 + (j - i - 1)`.

On an active library a problem can be made from the model.  On any library, the problem that is made
has a domain of that size for every row, it passes validation, and its slots hold the constraints of
the model in order. -/
theorem constraints_are_pairs {library after : Library} {made : Model Unit}
    (hmade : model size build library = .ok made after)
    (hwords : build = .unchecked → size * (size - 1) < wordCount) :
    (2 ≤ size →
      (∀ constraint, constraint ∈ made.constraints ↔
        ∃ i j, i < j ∧ j < size ∧ constraint = pairConstraint build (i, j)) ∧
      (made.constraints.toList.Pairwise fun earlier later => earlier.scope < later.scope) ∧
      made.constraints.size = size * (size - 1) / 2 ∧
      (∀ ordered, build.multiply size (size - 1) = .ok ordered →
        made.constraints.size = ordered / 2) ∧
      ∀ i j, i < j → j < size →
        made.constraints[i * (2 * size - i - 1) / 2 + (j - i - 1)]? =
          some (pairConstraint build (i, j))) ∧
    (∀ current : Library, current.isActive = true →
      ∃ problem later, made.problem build current = .ok problem later) ∧
    ∀ (current later : Library) (problem : Problem Unit Unit),
      made.problem build current = .ok problem later →
        problem.domains.size = size ∧ (∀ row < size, problem.domains[row]? = some size) ∧
        (∀ own : Library, (build = .checked → own.isActive = true) →
          problem.validate build own = .ok () own) ∧
        problem.slots.size = made.constraints.size ∧
        ∀ (k : Nat) constraint, made.constraints[k]? = some constraint →
          problem.slots[k]? = some (some constraint) := by
  obtain ⟨hpos, hroom⟩ := room_of_ok hmade hwords
  -- The model was made, maybe on an inactive library; what it is does not depend on that.
  obtain rfl := (yields_model hpos hroom).eq_of_ok (determined_model size) hmade
  have hfit : (board build size).Fit := fit_board hpos hroom
  refine ⟨fun hsize => ?_, ?_, ?_⟩
  · have hlength : (board build size).constraints.size = size * (size - 1) / 2 := by
      rw [constraints_board hsize, List.size_toArray, List.length_map, length_pairs]
    refine ⟨?_, ?_, hlength, ?_, ?_⟩
    · intro constraint
      rw [mem_board]
      have hmany : size ≠ 1 := by omega
      simp only [hmany, false_and, false_or]
    · rw [constraints_board hsize, List.pairwise_map]
      exact pairwise_pairs size
    · intro ordered hordered
      rw [hlength, multiply_eq_of_ok hordered hwords]
    · intro i j hlt hj
      rw [constraints_board hsize, List.getElem?_toArray, List.getElem?_map,
        getElem?_pairs hlt hj]
      rfl
  · intro current hactive
    have hyields : (board build size).problem.Yields build (· = (board build size).made) :=
      hfit.yields_problem
    obtain ⟨problem, later, hproblem, -, -⟩ := hyields current hactive
    exact ⟨problem, later, hproblem⟩
  · intro current later problem hproblem
    obtain rfl := eq_made_of_ok hpos hroom hproblem
    refine ⟨Array.size_replicate, ?_, ?_, Array.size_map, ?_⟩
    · intro row hrow
      show (Array.replicate size size)[row]? = some size
      rw [Array.getElem?_replicate, if_pos hrow]
    · intro own hactive
      have husable : ¬(build = .checked ∧ own.activations = 0) := by
        rintro ⟨hchecked, hzero⟩
        have hpositive : 0 < own.activations := of_decide_eq_true (hactive hchecked)
        omega
      rw [Problem.validate_apply _ husable, hfit.flaw?]
    · intro k constraint hconstraint
      exact (Array.getElem?_map).trans (congrArg (Option.map some) hconstraint)

/-- In the unchecked build a board of five rows is made even on an inactive library.  The constraint
on its third and fifth row is the ninth of ten. -/
theorem constraints_are_pairs_five :
    ∃ made after, model 5 .unchecked {} = .ok made after ∧ 5 * (5 - 1) < wordCount ∧
      made.constraints.size = 10 ∧
      made.constraints[8]? = some (pairConstraint .unchecked (2, 4)) := by
  have hwords : 5 * (5 - 1) < wordCount := by decide
  cases hmade : model 5 .unchecked {} with
  | error failure after =>
      have hok : (match model 5 .unchecked {} with
        | .ok _ _ => true
        | .error _ _ => false) = true := by decide +kernel
      rw [hmade] at hok
      cases hok
  | ok made after =>
      obtain ⟨hpairs, -, -⟩ := constraints_are_pairs hmade fun _ => hwords
      obtain ⟨-, -, hlength, -, hplace⟩ := hpairs (by decide)
      exact ⟨made, after, rfl, hwords, hlength, hplace 2 4 (by decide) (by decide)⟩

end ConstraintSearch.Queens
