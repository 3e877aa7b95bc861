import ConstraintSearch.Proofs.Search.Moves
import Mathlib.Algebra.BigOperators.Group.Finset.Sigma
import Mathlib.Algebra.Order.BigOperators.Group.Finset
import Mathlib.Data.Finset.Lattice.Fold
import Mathlib.Order.Lattice.Nat

/-!
# The tuples that a search tries

With local checkers and without limits, the attempts of a run go through the tentative tuples in the
lexicographic order, from the cursor up to the first full tuple (`Tour`).  Each of the five moves
takes the cursor past the tuple that it tries, and past nothing else that is tentative
(`Rejects.pending_iff`, `Accepts.pending_iff`, `StepsBack.pending_iff`).

If the run is exhausted, it has seen the whole tree of viable tuples, and its counters tell how
large that tree is (`attempts_eq_tentative`).

## Strategy

Everything is about one number line, the tuples in the lexicographic order, and about one point on
it, the cursor.  A tuple is *pending* if it is tentative, not before the cursor, and not behind a
full tuple.  `Tour` says of a state what is true of the rest of its run:

1. the attempts that are left try exactly the pending tuples, in order;
2. if the search is exhausted, no full tuple is ahead, and the counters at the end are those of the
   state and the viable tuples among the ones that are left.

The induction is on the run, from its end backwards.  For each move it is shown how the pending
tuples change (`pending_iff`), and from this how the tour of the next state gives that of this one
(`tour_back`, `tour_rejected`, `tour_accepted`).
-/

namespace ConstraintSearch.Search

variable {σ κ : Type} {search : Search σ κ} {fixed tuple : List Nat} {state next : SearchState σ}
  {before value : Nat}

/-- The tuples that the attempts of a run make, in order. -/
def tuples (search : Search σ κ) (state : SearchState σ) : List (List Nat) :=
  (search.machine.attempts state).map search.machine.tuple

/-- The tuple is still to come: it is tentative, it does not come before the cursor, and it does not
come behind any full tuple. -/
structure Pending (search : Search σ κ) (fixed : List Nat) (state : SearchState σ)
    (tuple : List Nat) : Prop where
  frontier : state.frontier < search.problem.domains.size
  tentative : search.problem.Tentative search.context fixed tuple
  cursor_le : search.machine.cursor state ≤ tuple
  le_full : ∀ full, search.problem.Full search.context fixed full → tuple ≤ full

/-- No full tuple was passed over. -/
def FullAhead (search : Search σ κ) (fixed : List Nat) (state : SearchState σ) : Prop :=
  state.frontier < search.problem.domains.size →
    ∀ full, search.problem.Full search.context fixed full → search.machine.cursor state ≤ full

theorem tuples_of_onward (hstep : search.machine.step state = .onward next) :
    search.tuples state =
      (if search.machine.tries state then [search.machine.tuple state] else []) ++
        search.tuples next := by
  unfold tuples
  rw [Machine.attempts_of_onward hstep, List.map_append]
  cases search.machine.tries state <;> rfl

theorem tuples_of_ended {status : Status} {last : SearchState σ}
    (hstep : search.machine.step state = .ended status last)
    (htries : search.machine.tries state = false) : search.tuples state = [] := by
  unfold tuples
  rw [Machine.attempts_of_ended hstep, htries]
  rfl

/-! ## What is still to come -/

/-- A step back passes over nothing that is tentative. -/
theorem StepsBack.cursor_le_iff (hback : search.StepsBack state before value next)
    (h : search.Explores fixed state)
    (htentative : search.problem.Tentative search.context fixed tuple) :
    search.machine.cursor state ≤ tuple ↔ search.machine.cursor next ≤ tuple := by
  obtain ⟨size, hsize, hspent⟩ := hback.spent
  rw [hback.cursor, hback.bound, hback.cursor_next]
  apply htentative.le_iff_of_spent _ hspent
  rw [← hback.bound, h.length_bound]
  exact hsize

theorem StepsBack.pending_iff (hback : search.StepsBack state before value next)
    (h : search.Explores fixed state) :
    search.Pending fixed state tuple ↔ search.Pending fixed next tuple := by
  obtain ⟨size, hsize, -⟩ := hback.spent
  have hlt : state.frontier < search.problem.domains.size := (Array.getElem?_eq_some_iff.1 hsize).1
  have hlt' : next.frontier < search.problem.domains.size := by
    have hfrontier := hback.frontier
    omega
  constructor
  · rintro ⟨-, htentative, hle, hfull⟩
    exact ⟨hlt', htentative, (hback.cursor_le_iff h htentative).1 hle, hfull⟩
  · rintro ⟨-, htentative, hle, hfull⟩
    exact ⟨hlt, htentative, (hback.cursor_le_iff h htentative).2 hle, hfull⟩

/-- The tuple that an attempt makes is the first of those to come. -/
theorem Tries.pending_cursor (htries : search.Tries fixed state value next)
    (h : search.Explores fixed state) (hahead : search.FullAhead fixed state) :
    search.Pending fixed state (search.machine.cursor state) := by
  obtain ⟨size, hsize, hless⟩ := htries.left
  have hlt : state.frontier < search.problem.domains.size := (Array.getElem?_eq_some_iff.1 hsize).1
  refine ⟨hlt, ?_, le_refl _, hahead hlt⟩
  rw [htries.cursor]
  exact ⟨_, value, size, rfl, h.viable, h.length_bound.symm ▸ hsize, hless⟩

theorem Rejects.cursor_le_iff (hrejects : search.Rejects fixed state value next)
    (hlocal : search.problem.Local search.context) (h : search.Explores fixed state)
    (htentative : search.problem.Tentative search.context fixed tuple) :
    search.machine.cursor state ≤ tuple ↔
      tuple = search.machine.cursor state ∨ search.machine.cursor next ≤ tuple := by
  have hnot := hrejects.not_viable
  rw [hrejects.cursor] at hnot ⊢
  rw [hrejects.cursor_next]
  exact htentative.le_iff_of_rejected hlocal h.fixed_le hnot

theorem Rejects.pending_iff (hrejects : search.Rejects fixed state value next)
    (hlocal : search.problem.Local search.context) (h : search.Explores fixed state)
    (hahead : search.FullAhead fixed state) :
    search.Pending fixed state tuple ↔
      tuple = search.machine.cursor state ∨ search.Pending fixed next tuple := by
  constructor
  · rintro ⟨hlt, htentative, hle, hfull⟩
    apply ((hrejects.cursor_le_iff hlocal h htentative).1 hle).imp_right
    intro hnext
    exact ⟨hrejects.frontier ▸ hlt, htentative, hnext, hfull⟩
  · rintro (rfl | ⟨hlt, htentative, hle, hfull⟩)
    · exact hrejects.pending_cursor h hahead
    · exact ⟨hrejects.frontier ▸ hlt, htentative,
        (hrejects.cursor_le_iff hlocal h htentative).2 (.inr hle), hfull⟩

theorem Accepts.cursor_le_iff (haccepts : search.Accepts fixed state value next) :
    search.machine.cursor state ≤ tuple ↔
      tuple = search.machine.cursor state ∨ search.machine.cursor next ≤ tuple := by
  rw [haccepts.cursor_next, ← lt_iff_concat_zero_le, le_iff_lt_or_eq, or_comm]
  exact or_congr_left eq_comm

/-- If the accepted tuple is full, nothing comes behind it. -/
theorem Accepts.pending_iff (haccepts : search.Accepts fixed state value next)
    (h : search.Explores fixed state) (hahead : search.FullAhead fixed state) :
    search.Pending fixed state tuple ↔
      tuple = search.machine.cursor state ∨ search.Pending fixed next tuple := by
  constructor
  · rintro ⟨hlt, htentative, hle, hfull⟩
    rcases haccepts.cursor_le_iff.1 hle with heq | hnext
    · exact .inl heq
    -- If the accepted tuple is full, nothing behind it is pending: a full tuple is the end of the
    -- tour.
    by_cases hlast : next.frontier < search.problem.domains.size
    · exact .inr ⟨hlast, htentative, hnext, hfull⟩
    · refine .inl (le_antisymm (hfull _ ⟨haccepts.viable, ?_⟩) hle)
      have hlength := h.length_bound
      have hfrontier := haccepts.frontier
      rw [haccepts.cursor, List.length_append, List.length_singleton]
      omega
  · rintro (rfl | ⟨hlt, htentative, hle, hfull⟩)
    · exact haccepts.pending_cursor h hahead
    · obtain ⟨size, hsize, -⟩ := haccepts.left
      exact ⟨(Array.getElem?_eq_some_iff.1 hsize).1, htentative,
        haccepts.cursor_le_iff.2 (.inr hle), hfull⟩

/-! ## No full tuple is passed over -/

theorem StepsBack.fullAhead (hback : search.StepsBack state before value next)
    (hlocal : search.problem.Local search.context)
    (hfixed : fixed.length < search.problem.domains.size) (h : search.Explores fixed state)
    (hahead : search.FullAhead fixed state) :
    search.FullAhead fixed next := by
  intro _ full hfull
  obtain ⟨size, hsize, -⟩ := hback.spent
  exact (hback.cursor_le_iff h (hfull.tentative hlocal hfixed)).1
    (hahead (Array.getElem?_eq_some_iff.1 hsize).1 full hfull)

theorem Rejects.fullAhead (hrejects : search.Rejects fixed state value next)
    (hlocal : search.problem.Local search.context)
    (hfixed : fixed.length < search.problem.domains.size) (h : search.Explores fixed state)
    (hahead : search.FullAhead fixed state) :
    search.FullAhead fixed next := by
  intro hlt full hfull
  have hle := hahead (hrejects.frontier ▸ hlt) full hfull
  rcases (hrejects.cursor_le_iff hlocal h (hfull.tentative hlocal hfixed)).1 hle with rfl | hnext
  · exact absurd hfull.1 hrejects.not_viable
  · exact hnext

theorem Accepts.fullAhead (haccepts : search.Accepts fixed state value next)
    (h : search.Explores fixed state) (hahead : search.FullAhead fixed state) :
    search.FullAhead fixed next := by
  intro hlt full hfull
  have hfrontier := haccepts.frontier
  rcases haccepts.cursor_le_iff.1 (hahead (by omega) full hfull) with rfl | hnext
  · have hlength := hfull.2
    have hbound := h.length_bound
    rw [haccepts.cursor, List.length_append, List.length_singleton] at hlength
    omega
  · exact hnext

/-! ## The whole run -/

section Run

open scoped Classical

/-- The viable ones among the tuples that a run tries. -/
noncomputable def viableTuples (search : Search σ κ) (fixed : List Nat) (state : SearchState σ) :
    Finset (List Nat) :=
  (search.tuples state).toFinset.filter (search.problem.Viable search.context fixed)

/-- What a run from a state on does. -/
structure Tour (search : Search σ κ) (fixed : List Nat) (state : SearchState σ) : Prop where
  sorted : (search.tuples state).Pairwise (· < ·)
  mem_iff : ∀ tuple, tuple ∈ search.tuples state ↔ search.Pending fixed state tuple
  not_full : (search.machine.run state).ending = .ok .exhausted →
    ∀ full, ¬search.problem.Full search.context fixed full
  backtracks : (search.machine.run state).ending = .ok .exhausted →
    (search.machine.run state).state.backtracks =
      state.backtracks + (state.frontier - search.start) + (search.viableTuples fixed state).card
  maxDepth : (search.machine.run state).ending = .ok .exhausted →
    (search.machine.run state).state.maxDepth = max state.maxDepth
      ((search.viableTuples fixed state).sup fun tuple => search.start + tuple.length)

private theorem tour_solved (hfrontier : state.frontier = search.problem.domains.size)
    (htries : search.machine.tries state = false)
    (hstep : search.machine.step state = .ended .solved state) : search.Tour fixed state := by
  have htuples := tuples_of_ended hstep htries
  have hending : (search.machine.run state).ending ≠ .ok .exhausted := by
    rw [Machine.run_of_ended hstep]
    simp
  refine ⟨htuples ▸ .nil, ?_, fun h => absurd h hending, fun h => absurd h hending,
    fun h => absurd h hending⟩
  intro tuple
  rw [htuples]
  refine ⟨fun hmem => absurd hmem List.not_mem_nil, ?_⟩
  rintro ⟨hlt, -, -, -⟩
  exact absurd hfrontier (Nat.ne_of_lt hlt)

private theorem tour_exhausted (hlocal : search.problem.Local search.context)
    (h : search.Explores fixed state) (hahead : search.FullAhead fixed state)
    {last : SearchState σ} (hfrontier : state.frontier = search.start)
    (hcursor : search.machine.cursor state = [value])
    (hspent : ∃ size, search.problem.domains[search.start]? = some size ∧ size ≤ value)
    (htries : search.machine.tries state = false)
    (hstep : search.machine.step state = .ended .exhausted last)
    (hbacktracks : last.backtracks = state.backtracks)
    (hmaxDepth : last.maxDepth = state.maxDepth) : search.Tour fixed state := by
  have htuples := tuples_of_ended hstep htries
  have hrun := Machine.run_of_ended hstep
  obtain ⟨size, hsize, hspent⟩ := hspent
  have hlt : search.start < search.problem.domains.size := (Array.getElem?_eq_some_iff.1 hsize).1
  have hnone : ∀ tuple, search.problem.Tentative search.context fixed tuple →
      ¬search.machine.cursor state ≤ tuple := by
    intro tuple htentative
    rw [hcursor]
    have hfirst : search.problem.domains[fixed.length + ([] : List Nat).length]? =
        some size := h.length ▸ hsize
    exact htentative.lt_concat_of_spent hfirst hspent List.nil_prefix
  refine ⟨htuples ▸ .nil, ?_, ?_, ?_, ?_⟩
  · intro tuple
    rw [htuples]
    refine ⟨fun hmem => absurd hmem List.not_mem_nil, ?_⟩
    rintro ⟨-, htentative, hle, -⟩
    exact absurd hle (hnone tuple htentative)
  · intro _ full hfull
    exact hnone full (hfull.tentative hlocal (h.length ▸ hlt)) (hahead (hfrontier ▸ hlt) full hfull)
  · intro _
    rw [hrun, hfrontier, viableTuples, htuples]
    simpa using hbacktracks
  · intro _
    rw [hrun, viableTuples, htuples]
    simpa using hmaxDepth

private theorem tour_back (hback : search.StepsBack state before value next)
    (h : search.Explores fixed state) (htour : search.Tour fixed next)
    (hstart : search.start ≤ next.frontier) : search.Tour fixed state := by
  -- Stepping back tries nothing, so what is left to try is the same.  Only the count of the steps
  -- back changes, and with it the frontier.
  have htuples : search.tuples state = search.tuples next := by
    rw [tuples_of_onward hback.step, hback.tries]
    rfl
  have hviable : search.viableTuples fixed state = search.viableTuples fixed next := by
    unfold viableTuples
    rw [htuples]
  have hrun := Machine.run_of_onward hback.step
  refine ⟨htuples ▸ htour.sorted, ?_, ?_, ?_, ?_⟩
  · intro tuple
    rw [htuples, hback.pending_iff h]
    exact htour.mem_iff tuple
  · rw [hrun]
    exact htour.not_full
  · rw [hrun, hviable]
    intro hending
    have hfrontier := hback.frontier
    rw [htour.backtracks hending, hback.backtracks]
    omega
  · rw [hrun, hviable, ← hback.maxDepth]
    exact htour.maxDepth

theorem Tries.tuples_eq (htries : search.Tries fixed state value next) :
    search.tuples state = search.machine.cursor state :: search.tuples next := by
  rw [tuples_of_onward htries.step, htries.tries, if_pos rfl, htries.tuple]
  rfl

/-- The tuples that come behind an attempt are greater. -/
private theorem Tries.lt_of_mem (hless : search.machine.cursor state < search.machine.cursor next)
    (htour : search.Tour fixed next) (hmem : tuple ∈ search.tuples next) :
    search.machine.cursor state < tuple :=
  lt_of_lt_of_le hless ((htour.mem_iff tuple).1 hmem).cursor_le

private theorem tour_rejected (hrejects : search.Rejects fixed state value next)
    (hlocal : search.problem.Local search.context) (h : search.Explores fixed state)
    (hahead : search.FullAhead fixed state) (htour : search.Tour fixed next) :
    search.Tour fixed state := by
  have htuples := hrejects.tuples_eq
  have hrun := Machine.run_of_onward hrejects.step
  have hless : search.machine.cursor state < search.machine.cursor next := by
    rw [hrejects.cursor, hrejects.cursor_next]
    exact concat_lt_succ
  have hviable : search.viableTuples fixed state = search.viableTuples fixed next := by
    unfold viableTuples
    rw [htuples, List.toFinset_cons, Finset.filter_insert, if_neg hrejects.not_viable]
  refine ⟨?_, ?_, ?_, ?_, ?_⟩
  · rw [htuples]
    exact List.pairwise_cons.2 ⟨fun tuple => Tries.lt_of_mem hless htour, htour.sorted⟩
  · intro tuple
    rw [htuples, List.mem_cons, htour.mem_iff, hrejects.pending_iff hlocal h hahead]
  · rw [hrun]
    exact htour.not_full
  · rw [hrun, hviable, ← hrejects.backtracks, ← hrejects.frontier]
    exact htour.backtracks
  · rw [hrun, hviable, ← hrejects.maxDepth]
    exact htour.maxDepth

private theorem tour_accepted (haccepts : search.Accepts fixed state value next)
    (h : search.Explores fixed state) (hahead : search.FullAhead fixed state)
    (htour : search.Tour fixed next) : search.Tour fixed state := by
  have htuples := haccepts.tuples_eq
  have hrun := Machine.run_of_onward haccepts.step
  have hless : search.machine.cursor state < search.machine.cursor next := by
    rw [haccepts.cursor_next, lt_iff_concat_zero_le]
  have hbehind : ∀ tuple ∈ search.tuples next, search.machine.cursor state < tuple :=
    fun tuple => Tries.lt_of_mem hless htour
  have hviable : search.viableTuples fixed state =
      insert (search.machine.cursor state) (search.viableTuples fixed next) := by
    unfold viableTuples
    rw [htuples, List.toFinset_cons, Finset.filter_insert, if_pos haccepts.viable]
  refine ⟨?_, ?_, ?_, ?_, ?_⟩
  · rw [htuples]
    exact List.pairwise_cons.2 ⟨hbehind, htour.sorted⟩
  · intro tuple
    rw [htuples, List.mem_cons, htour.mem_iff, haccepts.pending_iff h hahead]
  · rw [hrun]
    exact htour.not_full
  · intro hending
    rw [hrun] at hending ⊢
    have hnew : search.machine.cursor state ∉ search.viableTuples fixed next := by
      intro hmem
      exact lt_irrefl _ (hbehind _ (List.mem_toFinset.1 (Finset.mem_filter.1 hmem).1))
    have hstart := h.start_le
    have hfrontier := haccepts.frontier
    rw [hviable, Finset.card_insert_of_notMem hnew, htour.backtracks hending, haccepts.backtracks]
    omega
  · intro hending
    rw [hrun] at hending ⊢
    have hlength : search.start + (search.machine.cursor state).length = state.frontier + 1 := by
      rw [haccepts.cursor, List.length_append, List.length_singleton, ← h.length, ← Nat.add_assoc,
        h.length_bound]
    rw [hviable, Finset.sup_insert, hlength, htour.maxDepth hending, haccepts.maxDepth]
    exact max_assoc _ _ _

/-- With local checkers and without limits, a run tries the tuples that are still to come. -/
theorem Explores.tour (hvalid : search.problem.flaw? = none) (hunlimited : search.Unlimited)
    (hlocal : search.problem.Local search.context)
    (hstart : search.start < search.problem.domains.size) (h : search.Explores fixed state)
    (hahead : search.FullAhead fixed state) : search.Tour fixed state := by
  have hfixed : fixed.length < search.problem.domains.size := h.length ▸ hstart
  -- Along the run; the move of a turn says which of the lemmas above applies.
  induction state using Machine.run.induct search.machine with
  | case1 state next hnext ih =>
      have hexplores := h.step hvalid hunlimited hlocal hnext
      have hmove := h.move hvalid hunlimited hlocal
      rw [hnext] at hmove
      cases hmove with
      | back before value _ hback =>
          exact tour_back hback h (ih hexplores (hback.fullAhead hlocal hfixed h hahead))
            hexplores.start_le
      | rejected value _ hrejects =>
          exact tour_rejected hrejects hlocal h hahead
            (ih hexplores (hrejects.fullAhead hlocal hfixed h hahead))
      | accepted value _ haccepts =>
          exact tour_accepted haccepts h hahead (ih hexplores (haccepts.fullAhead h hahead))
  | case2 state status last hlast =>
      have hmove := h.move hvalid hunlimited hlocal
      rw [hlast] at hmove
      cases hmove with
      | solved hfrontier htries => exact tour_solved hfrontier htries hlast
      | exhausted _ value hfrontier hcursor hspent htries hbacktracks hmaxDepth =>
          exact tour_exhausted hlocal h hahead hfrontier hcursor hspent htries hlast hbacktracks
            hmaxDepth
  | case3 state fault last hlast =>
      have hmove := h.move hvalid hunlimited hlocal
      rw [hlast] at hmove
      cases hmove

/-! ## From the first turn on -/

/-- The empty tuple binds no variable, and the longest one binds the most. -/
private theorem max_sup_eq (start : Nat) (tuples : Finset (List Nat)) :
    max start (tuples.sup fun tuple => start + tuple.length) =
      start + (insert [] tuples).sup List.length := by
  apply le_antisymm
  · apply max_le (Nat.le_add_right start _)
    apply Finset.sup_le
    intro tuple htuple
    exact Nat.add_le_add_left (Finset.le_sup (Finset.mem_insert_of_mem htuple)) start
  · obtain ⟨longest, hlongest, hsup⟩ :=
      Finset.exists_mem_eq_sup (insert [] tuples) (Finset.insert_nonempty [] tuples) List.length
    rw [hsup]
    rcases Finset.mem_insert.1 hlongest with rfl | hmem
    · exact le_max_left _ _
    · exact le_max_of_le_right (Finset.le_sup (f := fun tuple => start + tuple.length) hmem)

variable {buffer : Array Nat} {build : Build} {library : Library}

theorem Ready.cursor_initial (hready : search.Ready buffer build library) (memory : σ)
    (log : Array Message) : search.machine.cursor (search.initial buffer memory log) = [0] := by
  have hlength := (hready.stackInvariant memory log).length_bound
  have hnil : search.machine.bound (search.initial buffer memory log) = [] :=
    List.eq_nil_of_length_eq_zero (hlength.trans (Nat.sub_self _))
  have hcandidate : (search.initial buffer memory log).candidates[search.start - search.start]? =
      some 0 := by
    rw [Nat.sub_self]
    rfl
  rw [Machine.cursor_of_candidate hcandidate, hnil, List.nil_append]

/-- No tentative tuple comes before the first cursor. -/
theorem Ready.cursor_initial_le (hready : search.Ready buffer build library) (memory : σ)
    (log : Array Message) (h : search.problem.Tentative search.context fixed tuple) :
    search.machine.cursor (search.initial buffer memory log) ≤ tuple := by
  obtain ⟨front, value, -, rfl, -⟩ := h
  rw [hready.cursor_initial, ← List.nil_append [0], ← lt_iff_concat_zero_le]
  cases front <;> exact List.nil_lt_cons ..

theorem Ready.tour (hready : search.Ready buffer build library) (hunlimited : search.Unlimited)
    (hlocal : search.problem.Local search.context)
    (hstart : search.start < search.problem.domains.size) (memory : σ) (log : Array Message) :
    search.Tour (buffer.toList.take search.start) (search.initial buffer memory log) := by
  have hexplores := hready.explores memory log
  apply hexplores.tour hready.problem hunlimited hlocal hstart
  intro _ full hfull
  have hfixed : (buffer.toList.take search.start).length < search.problem.domains.size := by
    rw [hexplores.length]
    exact hstart
  exact hready.cursor_initial_le memory log (hfull.tentative hlocal hfixed)

/-- The tuples tried are the tentative ones up to the first full tuple. -/
theorem Ready.mem_tuples_iff (hready : search.Ready buffer build library)
    (hunlimited : search.Unlimited) (hlocal : search.problem.Local search.context)
    (hstart : search.start < search.problem.domains.size) (memory : σ) (log : Array Message) :
    tuple ∈ search.tuples (search.initial buffer memory log) ↔
      search.problem.Tentative search.context (buffer.toList.take search.start) tuple ∧
        ∀ full, search.problem.Full search.context (buffer.toList.take search.start) full →
          tuple ≤ full := by
  rw [(hready.tour hunlimited hlocal hstart memory log).mem_iff]
  constructor
  · rintro ⟨-, htentative, -, hfull⟩
    exact ⟨htentative, hfull⟩
  · rintro ⟨htentative, hfull⟩
    exact ⟨hstart, htentative, hready.cursor_initial_le memory log htentative, hfull⟩

/-- What an exhausted run counts. -/
theorem Ready.counts_of_exhausted (hready : search.Ready buffer build library)
    (hunlimited : search.Unlimited) (hlocal : search.problem.Local search.context)
    (hstart : search.start < search.problem.domains.size) (memory : σ) (log : Array Message)
    (hending : (search.run buffer memory log).ending = .ok .exhausted) :
    ∃ viable : Finset (List Nat),
      (∀ values, values ∈ viable ↔
        search.problem.Viable search.context (buffer.toList.take search.start) values) ∧
      (search.run buffer memory log).state.nodes =
        ∑ values ∈ viable, search.problem.domains.getD (search.start + values.length) 0 ∧
      (search.run buffer memory log).state.backtracks = (viable.erase []).card ∧
      (search.run buffer memory log).state.maxDepth = search.start + viable.sup List.length := by
  have htour := hready.tour hunlimited hlocal hstart memory log
  have hfixed := (hready.explores memory log).length
  have htentative : ∀ tuple, tuple ∈ (search.tuples (search.initial buffer memory log)).toFinset ↔
      search.problem.Tentative search.context (buffer.toList.take search.start) tuple := by
    intro tuple
    rw [List.mem_toFinset, hready.mem_tuples_iff hunlimited hlocal hstart]
    exact and_iff_left fun full hfull => absurd hfull (htour.not_full hending full)
  have hbacktracks := htour.backtracks hending
  have hmaxDepth := htour.maxDepth hending
  generalize hmore : search.viableTuples (buffer.toList.take search.start)
    (search.initial buffer memory log) = more at *
  have hmem : ∀ values, values ∈ more ↔ values ≠ [] ∧
      search.problem.Viable search.context (buffer.toList.take search.start) values := by
    intro values
    rw [← hmore, viableTuples, Finset.mem_filter, htentative]
    refine and_congr_left fun hviable => ⟨?_, ?_⟩
    · rintro ⟨front, value, -, rfl, -⟩
      simp
    · exact hviable.tentative hlocal (hfixed.trans_le hready.start_le)
  have hviable : ∀ values, values ∈ insert [] more ↔
      search.problem.Viable search.context (buffer.toList.take search.start) values := by
    intro values
    rw [Finset.mem_insert, hmem]
    by_cases hnil : values = []
    · simp [hnil, Problem.Viable]
    · simp [hnil]
  have hnew : [] ∉ more := fun h => ((hmem []).1 h).1 rfl
  refine ⟨insert [] more, hviable, ?_, ?_, ?_⟩
  · calc (search.run buffer memory log).state.nodes
        = (search.attempts buffer memory log).length :=
          (hready.stackInvariant memory log).nodes_run.trans (Nat.zero_add _)
      _ = (search.tuples (search.initial buffer memory log)).length := (List.length_map _).symm
      _ = (search.tuples (search.initial buffer memory log)).toFinset.card :=
          (List.toFinset_card_of_nodup (htour.sorted.imp ne_of_lt)).symm
      _ = _ := by rw [Problem.card_tentative hviable htentative, hfixed]
  · rw [Finset.erase_insert hnew]
    simpa [initial, run] using hbacktracks
  · exact hmaxDepth.trans (max_sup_eq search.start more)

/-- **The tuples tried.**  Let all checkers be local, and let the search have no limits, no flag and
at least one variable to bind.  Then the tuples that it tries stand in the lexicographic order, and
they are the tentative ones up to the first full tuple; the result tells how many there are.  If the
search is exhausted, it has tried all values of the next variable behind every viable tuple, has
stepped back from every viable tuple that is not empty, and has bound as many variables as the
longest viable tuple binds. -/
theorem attempts_eq_tentative (search : Search σ κ) (buffer : Array Nat) (memory : σ)
    (build : Build) (library : Library) (hready : search.Ready buffer build library)
    (hunlimited : search.Unlimited) (hlocal : search.problem.Local search.context)
    (hstart : search.start < search.problem.domains.size) :
    let problem := search.problem
    let fixed := buffer.toList.take search.start
    let tuples := (search.attempts buffer memory library.log).map search.machine.tuple
    let report := search.perform buffer memory build library
    tuples.Pairwise (· < ·) ∧
      (∀ tuple, tuple ∈ tuples ↔ problem.Tentative search.context fixed tuple ∧
        ∀ full, problem.Full search.context fixed full → tuple ≤ full) ∧
      ∃ result, report.outcome = .ok result ∧ result.stats.nodes = tuples.length ∧
        (result.status = .exhausted → ∃ viable : Finset (List Nat),
          (∀ values, values ∈ viable ↔ problem.Viable search.context fixed values) ∧
            result.stats.nodes =
              ∑ values ∈ viable, problem.domains.getD (search.start + values.length) 0 ∧
            result.stats.backtracks = (viable.erase []).card ∧
            result.stats.maxDepth = search.start + viable.sup List.length) := by
  intro problem fixed tuples report
  obtain ⟨status, hstatus⟩ := (hready.stackInvariant memory library.log).exists_status
    (hready.steady_machine hlocal.steady)
  have hlength : tuples.length = (search.attempts buffer memory library.log).length :=
    List.length_map _
  refine ⟨(hready.tour hunlimited hlocal hstart memory library.log).sorted,
    fun tuple => hready.mem_tuples_iff hunlimited hlocal hstart memory library.log, _,
    hready.outcome_of_ending hstatus, ?_, ?_⟩
  · exact ((hready.stackInvariant memory library.log).nodes_run.trans (Nat.zero_add _)).trans
      hlength.symm
  rintro rfl
  exact hready.counts_of_exhausted hunlimited hlocal hstart memory library.log hstatus

end Run

/-- Three variables: the first two differ, and the last two should add up to more than they can. -/
def hopeless : Search Unit Unit where
  problem :=
    { domains := #[2, 3, 2]
      slots := #[
        some { scope := [0, 1], checker := .byValues 0 fun values => values[0]? != values[1]? },
        some { scope := [2, 1], checker := .byValues 1 fun values => 4 ≤ values.foldl (· + ·) 0 }] }
  context := ()
  start := 1

/-- Behind the empty tuple there are three values to try, and two of them are viable, with two
values behind each. -/
theorem attempts_eq_tentative_hopeless :
    (hopeless.Ready #[1, 9, 9] .unchecked {} ∧ hopeless.Unlimited ∧ hopeless.problem.Local () ∧
      hopeless.start < hopeless.problem.domains.size) ∧
    hopeless.problem.Tentative () [1] [2, 0] ∧
    ∃ viable : Finset (List Nat),
      (∀ values, values ∈ viable ↔ hopeless.problem.Viable () [1] values) ∧
      ∑ values ∈ viable, hopeless.problem.domains.getD (1 + values.length) 0 = 7 ∧
      (viable.erase []).card = 2 ∧ viable.sup List.length = 1 := by
  have hready : hopeless.Ready #[1, 9, 9] .unchecked {} := ⟨by decide, rfl, rfl, rfl, by decide⟩
  have hunlimited : hopeless.Unlimited := ⟨rfl, rfl, fun _ _ => rfl⟩
  have hlocal : hopeless.problem.Local () := by
    apply Problem.local_of_byValues
    intro constraint hattached
    simp only [Problem.Attached, hopeless, List.mem_toArray, List.mem_cons, Option.some.injEq,
      List.not_mem_nil, or_false] at hattached
    rcases hattached with rfl | rfl
    · exact ⟨0, fun values => values[0]? != values[1]?, rfl⟩
    · exact ⟨1, fun values => 4 ≤ values.foldl (· + ·) 0, rfl⟩
  obtain ⟨-, hmem, result, hresult, -, hcounts⟩ := attempts_eq_tentative hopeless #[1, 9, 9] ()
    .unchecked {} hready hunlimited hlocal (by decide)
  have hvalue : (hopeless.perform #[1, 9, 9] () .unchecked {}).outcome.toOption =
      some ⟨.exhausted, ⟨7, 11, 2, 2, 0⟩⟩ := by decide +kernel
  rw [hresult] at hvalue
  obtain rfl := Option.some.inj hvalue
  obtain ⟨viable, hviable, hnodes, hbacktracks, hmaxDepth⟩ := hcounts rfl
  have htried : [2, 0] ∈ (hopeless.attempts #[1, 9, 9] () #[]).map hopeless.machine.tuple := by
    decide +kernel
  exact ⟨⟨hready, hunlimited, hlocal, by decide⟩, ((hmem [2, 0]).1 htried).1, viable, hviable,
    hnodes.symm, hbacktracks.symm, (Nat.add_left_cancel hmaxDepth).symm⟩

end ConstraintSearch.Search
