import ConstraintSearch.Proofs.Search.Branch
import ConstraintSearch.Proofs.Search.Ready

/-!
# The writes of a run

A run changes its buffer by the writes of its attempts and by nothing else.  So it leaves the buffer
that these writes make of the one it began with, one after the other (`Wrote.run`), and this is so
however it ends.  A slot that is written holds the value of its last write, and any other slot holds
what it held at first.

The writes go to slots between the start and the greatest depth of the run, and each value is below
the size of its domain (`mem_writes`).

`replay` is that buffer as a function of the writes, so that the statements about slots are facts about
lists of writes and do not mention the machine.
-/

namespace ConstraintSearch

variable {σ κ : Type}

/-! ## Writing to a buffer -/

/-- The buffer after some writes to its slots, one after the other. -/
def replay (writes : List (Nat × Nat)) (buffer : Array Nat) : Array Nat :=
  writes.foldl (fun buffer (slot, value) => buffer.setIfInBounds slot value) buffer

section Replay

variable {writes : List (Nat × Nat)} {buffer : Array Nat} {slot : Nat}

theorem replay_cons (slot value : Nat) (writes : List (Nat × Nat)) (buffer : Array Nat) :
    replay ((slot, value) :: writes) buffer = replay writes (buffer.setIfInBounds slot value) := rfl

theorem replay_concat (slot value : Nat) (writes : List (Nat × Nat)) (buffer : Array Nat) :
    replay (writes ++ [(slot, value)]) buffer = (replay writes buffer).setIfInBounds slot value := by
  simp [replay]

@[simp]
theorem size_replay (writes : List (Nat × Nat)) (buffer : Array Nat) :
    (replay writes buffer).size = buffer.size := by
  induction writes generalizing buffer with
  | nil => rfl
  | cons write writes ih => rw [replay_cons, ih, Array.size_setIfInBounds]

/-- A slot that nothing is written to keeps its value. -/
theorem getElem?_replay_of_unwritten (h : ∀ value, (slot, value) ∉ writes) :
    (replay writes buffer)[slot]? = buffer[slot]? := by
  induction writes generalizing buffer with
  | nil => rfl
  | cons write writes ih =>
      have hne : write.1 ≠ slot := by
        intro heq
        exact h write.2 (by simp [← heq])
      have hrest : ∀ value, (slot, value) ∉ writes := by
        intro value hmem
        exact h value (List.mem_cons_of_mem write hmem)
      rw [replay_cons, ih hrest, Array.getElem?_setIfInBounds_ne hne]

/-- A slot that is written holds one of the values that are written to it. -/
theorem getElem?_replay_of_written {value : Nat} (h : (slot, value) ∈ writes)
    (hslot : slot < buffer.size) :
    ∃ last, (slot, last) ∈ writes ∧ (replay writes buffer)[slot]? = some last := by
  induction writes generalizing buffer value with
  | nil => cases h
  | cons write writes ih =>
      rw [replay_cons]
      -- The last write counts: if a later one goes to the slot, the induction hypothesis finds it.
      by_cases hlater : ∃ later, (slot, later) ∈ writes
      · obtain ⟨later, hmem⟩ := hlater
        have hslot' : slot < (buffer.setIfInBounds write.1 write.2).size := by simpa using hslot
        obtain ⟨last, hlast, hget⟩ := ih hmem hslot'
        exact ⟨last, List.mem_cons_of_mem write hlast, hget⟩
      · have hunwritten : ∀ later, (slot, later) ∉ writes := fun later hmem => hlater ⟨later, hmem⟩
        obtain rfl : (slot, value) = write :=
          (List.mem_cons.1 h).resolve_right (hunwritten value)
        refine ⟨value, List.mem_cons_self, ?_⟩
        rw [getElem?_replay_of_unwritten hunwritten,
          Array.getElem?_setIfInBounds_self_of_lt hslot]

end Replay

namespace Machine

variable {machine : Machine σ} {state : SearchState σ} {past : List (SearchState σ)}
  {initial : Array Nat} {value : Nat}

theorem written_of_nextValue (hvalue : machine.nextValue? state = some value) :
    machine.written state = (state.frontier, value) := by
  simp [written, hvalue]

/-- The buffer is what the writes of some attempts have made of the first one, and these writes went
to slots between the start and the greatest depth. -/
structure Wrote (machine : Machine σ) (initial : Array Nat) (past : List (SearchState σ))
    (state : SearchState σ) : Prop where
  buffer : state.buffer = replay (past.map machine.written) initial
  frontier_le : state.frontier ≤ state.maxDepth
  slots : ∀ attempt ∈ past, machine.start ≤ attempt.frontier ∧ attempt.frontier ≤ state.maxDepth

private theorem Wrote.back (h : Wrote machine initial past state) :
    Wrote machine initial past state.steppedBack where
  buffer := h.buffer
  frontier_le := Nat.le_trans (Nat.sub_le _ _) h.frontier_le
  slots := h.slots

/-- One more write, be it for a value that is rejected or for one that breaks the search off. -/
private theorem Wrote.tested (h : Wrote machine initial past state)
    (hinv : StackInvariant machine state) (hvalue : machine.nextValue? state = some value) :
    Wrote machine initial (past ++ [state]) (machine.tested state value) where
  buffer := by
    calc (machine.tested state value).buffer
        = state.buffer.setIfInBounds state.frontier value := rfl
      _ = (replay (past.map machine.written) initial).setIfInBounds state.frontier value := by
          rw [h.buffer]
      _ = replay ((past ++ [state]).map machine.written) initial := by
          rw [List.map_append, List.map_singleton, written_of_nextValue hvalue, replay_concat]
  frontier_le := h.frontier_le
  slots := by
    intro attempt hattempt
    rcases List.mem_append.1 hattempt with hold | hnew
    · exact h.slots attempt hold
    · rw [List.mem_singleton.1 hnew]
      exact ⟨hinv.start_le, h.frontier_le⟩

private theorem Wrote.accepted (h : Wrote machine initial past state)
    (hinv : StackInvariant machine state) (hvalue : machine.nextValue? state = some value) :
    Wrote machine initial (past ++ [state]) (machine.descended state value) where
  buffer := (h.tested hinv hvalue).buffer
  frontier_le := Nat.le_max_right _ _
  slots := by
    intro attempt hattempt
    obtain ⟨hstart, hdepth⟩ := (h.tested hinv hvalue).slots attempt hattempt
    exact ⟨hstart, Nat.le_trans hdepth (Nat.le_max_left _ _)⟩

/-- However a run ends, it leaves what its writes make of the buffer. -/
theorem Wrote.run (hinv : StackInvariant machine state) (hdepth : state.frontier ≤ state.maxDepth) :
    Wrote machine state.buffer (machine.attempts state) (machine.run state).state := by
  have hfirst : Wrote machine state.buffer [] state :=
    ⟨rfl, hdepth, fun attempt hattempt => absurd hattempt List.not_mem_nil⟩
  obtain ⟨past, last, hlast, hwrote, hattempts, hturn⟩ :=
    StackInvariant.course_induction (motive := Wrote machine state.buffer)
      (fun _ _ _ _ _ _ h => h.back) (fun _ _ _ hinv hvalue _ _ h => h.tested hinv hvalue)
      (fun _ _ _ hinv hvalue _ _ h => h.accepted hinv hvalue) hinv hfirst
  rw [hattempts]
  generalize machine.run state = ended at hturn
  -- The last turn may be another attempt only if the test broke the search off in it.
  cases hturn with
  | ended status final hended =>
      rw [(hlast.tries_of_ended (hended.step hlast)).1]
      obtain ⟨candidates, rfl⟩ := hended.exists_candidates
      simpa using (⟨hwrote.buffer, hwrote.frontier_le, hwrote.slots⟩ :
        Wrote machine state.buffer past { last with candidates })
  | broken value fault hvalue hfree _ =>
      rw [tries_of_tried hvalue hfree]
      exact hwrote.tested hlast hvalue

/-- A written value is below the size of its domain. -/
theorem written_lt_of_mem_attempts {attempt : SearchState σ}
    (hattempt : attempt ∈ machine.attempts state) :
    ∃ size, machine.domains[(machine.written attempt).1]? = some size ∧
      (machine.written attempt).2 < size := by
  obtain ⟨value, hvalue⟩ := exists_nextValue_of_mem_attempts hattempt
  rw [written_of_nextValue hvalue]
  exact (nextValue?_eq_some hvalue).2

end Machine

/-! ## The writes of a search -/

namespace Search

variable {search : Search σ κ} {buffer : Array Nat} {build : Build} {library : Library}
  {slot value : Nat}

/-- The slots that a search writes to and the values that it writes, in order. -/
def writes (search : Search σ κ) (buffer : Array Nat) (memory : σ) (log : Array Message) :
    List (Nat × Nat) :=
  (search.attempts buffer memory log).map search.machine.written

theorem Ready.wrote (hready : search.Ready buffer build library) (memory : σ)
    (log : Array Message) :
    search.machine.Wrote buffer (search.attempts buffer memory log)
      (search.run buffer memory log).state :=
  Machine.Wrote.run (hready.stackInvariant memory log) (Nat.le_refl _)

/-- The writes go to slots between the start and the greatest depth, and keep to the domains. -/
theorem Ready.mem_writes (hready : search.Ready buffer build library) {memory : σ}
    {log : Array Message} (hwrite : (slot, value) ∈ search.writes buffer memory log) :
    search.start ≤ slot ∧ slot ≤ (search.run buffer memory log).state.maxDepth ∧
      ∃ size, search.problem.domains[slot]? = some size ∧ value < size := by
  obtain ⟨attempt, hattempt, heq⟩ := List.mem_map.1 hwrite
  have hslots := (hready.wrote memory log).slots attempt hattempt
  have hsize := Machine.written_lt_of_mem_attempts hattempt
  have hslot : attempt.frontier = slot := congrArg Prod.fst heq
  rw [heq] at hsize
  rw [hslot] at hslots
  exact ⟨hslots.1, hslots.2, hsize⟩

theorem Ready.buffer_eq_replay (hready : search.Ready buffer build library) (memory : σ) :
    (search.perform buffer memory build library).buffer =
      replay (search.writes buffer memory library.log) buffer := by
  rw [hready.buffer_perform]
  exact (hready.wrote memory library.log).buffer

/-- What a search does not write to, it keeps. -/
theorem Ready.getElem?_of_unwritten (hready : search.Ready buffer build library) {memory : σ}
    (h : ∀ value, (slot, value) ∉ search.writes buffer memory library.log) :
    (search.perform buffer memory build library).buffer[slot]? = buffer[slot]? := by
  rw [hready.buffer_eq_replay]
  exact getElem?_replay_of_unwritten h

/-- What a search writes to holds a value in its domain. -/
theorem Ready.getElem?_of_written (hready : search.Ready buffer build library) {memory : σ}
    (h : (slot, value) ∈ search.writes buffer memory library.log) :
    ∃ last size, (search.perform buffer memory build library).buffer[slot]? = some last ∧
      search.problem.domains[slot]? = some size ∧ last < size := by
  obtain ⟨-, -, size, hsize, -⟩ := hready.mem_writes h
  have hslot : slot < buffer.size := by
    rw [hready.length]
    exact (Array.getElem?_eq_some_iff.1 hsize).1
  obtain ⟨last, hlast, hget⟩ := getElem?_replay_of_written h hslot
  obtain ⟨-, -, hless⟩ := hready.mem_writes hlast
  rw [hready.buffer_eq_replay]
  exact ⟨last, hless.choose, hget, hless.choose_spec⟩

/-- Nothing is written below the start, nor above the greatest depth. -/
theorem Ready.getElem?_of_outside (hready : search.Ready buffer build library) {memory : σ}
    (h : slot < search.start ∨ (search.run buffer memory library.log).state.maxDepth < slot) :
    (search.perform buffer memory build library).buffer[slot]? = buffer[slot]? := by
  apply hready.getElem?_of_unwritten
  intro value hwrite
  obtain ⟨hstart, hdepth, -⟩ := hready.mem_writes hwrite
  omega

theorem size_buffer_perform (search : Search σ κ) (buffer : Array Nat) (memory : σ) (build : Build)
    (library : Library) : (search.perform buffer memory build library).buffer.size = buffer.size := by
  cases hobjection : search.objection? build library.isActive buffer.size with
  | some fault => simp only [perform, hobjection]
  | none =>
      have hready : search.Ready buffer build library := ready_of_objection?_eq_none hobjection
      rw [hready.buffer_eq_replay, size_replay]

/-- A search keeps the values below its start, even if it does not begin. -/
theorem getElem?_of_lt_start (search : Search σ κ) (buffer : Array Nat) (memory : σ)
    (build : Build) (library : Library) {v : Nat} (hv : v < search.start) :
    (search.perform buffer memory build library).buffer[v]? = buffer[v]? := by
  cases hobjection : search.objection? build library.isActive buffer.size with
  | some fault => simp only [perform, hobjection]
  | none =>
      have hready : search.Ready buffer build library := ready_of_objection?_eq_none hobjection
      exact hready.getElem?_of_outside (.inl hv)

end Search

end ConstraintSearch
