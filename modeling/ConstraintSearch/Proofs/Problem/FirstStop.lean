import ConstraintSearch.Problem.Scan

/-!
# Where a scan stops

A scan stops at the first slot that is unset, or whose constraint is applicable and does not accept.
Checkers may remember earlier calls, so what a constraint answers hangs on the calls before its own:
it is asked with the memory that the applicable constraints in the slots before it leave
(`memoryAfter`).  `stopAt?` says what stops a scan at a slot, if it comes that far, and `firstStop?`
finds the first slot where something does.

The scan asks exactly the applicable constraints in the slots that it looks at, which are those up to
the first stop (`scanFrom_eq`).  So what a scan answers is a question of single slots
(`answer_scan_eq_true_iff`, `exists_rejected`, `exists_gaveUp`), and no later statement about it needs
an induction over the slots.

The one induction is on the slots that are passed (`scanFrom_of_passed`, `scanFrom_of_passes`), up to
the slot that stops the scan (`scanFrom_of_stopped`) or to the end.
-/

namespace ConstraintSearch

variable {σ κ : Type}

/-- What is found first stands behind items for which there is nothing to find. -/
theorem findSome?_eq_some_iff_getElem? {α β : Type} {items : List α} {found? : α → Option β}
    {found : β} :
    items.findSome? found? = some found ↔
      ∃ (i : Nat) (item : α), items[i]? = some item ∧ found? item = some found ∧
        ∀ j < i, ∀ earlier, items[j]? = some earlier → found? earlier = none := by
  rw [List.findSome?_eq_some_iff]
  constructor
  · rintro ⟨before, item, behind, rfl, hfound, hnone⟩
    refine ⟨before.length, item, by simp, hfound, fun j hj earlier hearlier => ?_⟩
    rw [List.getElem?_append_left hj] at hearlier
    exact hnone earlier (List.mem_of_getElem? hearlier)
  · rintro ⟨i, item, hitem, hfound, hnone⟩
    obtain ⟨hi, rfl⟩ := List.getElem?_eq_some_iff.1 hitem
    refine ⟨items.take i, items[i], items.drop (i + 1), ?_, hfound, fun earlier hearlier => ?_⟩
    · rw [List.getElem_cons_drop, List.take_append_drop]
    · obtain ⟨j, hj, rfl⟩ := List.mem_take_iff_getElem.1 hearlier
      exact hnone j (by omega) _ (List.getElem?_eq_getElem (by omega))

/-- What stops a scan, and at which slot. -/
inductive Stop where
  /-- The slot has no constraint. -/
  | unset (slot : Nat)
  /-- The constraint in the slot is applicable and rejects. -/
  | rejected (slot : Nat)
  /-- The constraint in the slot is applicable and gives up. -/
  | gaveUp (slot : Nat) (fault : Fault)
  deriving DecidableEq, Repr

namespace Stop

def slot : Stop → Nat
  | .unset slot => slot
  | .rejected slot => slot
  | .gaveUp slot _ => slot

/-- What a scan that is stopped so answers. -/
def answer : Stop → Except Fault Bool
  | .unset slot => .error (.unsetSlot slot)
  | .rejected _ => .ok false
  | .gaveUp _ fault => .error fault

theorem answer_ne_true (stop : Stop) : stop.answer ≠ .ok true := by
  cases stop with
  | unset slot => nofun
  | rejected slot => nofun
  | gaveUp slot fault => nofun

end Stop

/-- The memory that the checker leaves, whatever it answers. -/
def Constraint.memoryAfter (constraint : Constraint σ κ) (assignment : Array Nat) (context : κ)
    (memory : σ) : σ :=
  match constraint.check assignment context memory with
  | .ok _ after => after
  | .error _ after => after

namespace Problem

variable (problem : Problem σ κ) (assignment : Array Nat) (context : κ) (frontier : Nat)
  (memory : σ)

/-! ## Definitions -/

/-- The constraint in a slot, if it is set and applicable. -/
def applicableAt? (slot : Nat) : Option (Constraint σ κ) :=
  problem.slots[slot]?.join.filter (·.isApplicable frontier)

/-- The applicable constraints in the first `count` slots, in order, with their slots. -/
def applicableBelow (count : Nat) : List (Nat × Constraint σ κ) :=
  (List.range count).filterMap fun slot => (problem.applicableAt? frontier slot).map (slot, ·)

/-- The memory that the applicable constraints in the first `count` slots leave, when they are asked
one after the other. -/
def memoryAfter (count : Nat) : σ :=
  (problem.applicableBelow frontier count).foldl
    (fun memory entry => entry.2.memoryAfter assignment context memory) memory

/-- What stops a scan at a slot, if it comes that far. -/
def stopAt? (slot : Nat) : Option Stop :=
  match problem.slots[slot]? with
  | none => none
  | some none => some (.unset slot)
  | some (some constraint) =>
      if constraint.isApplicable frontier then
        match constraint.check assignment context
            (problem.memoryAfter assignment context frontier memory slot) with
        | .ok true _ => none
        | .ok false _ => some (.rejected slot)
        | .error fault _ => some (.gaveUp slot fault)
      else none

/-- What stops a scan at the first slot where something does. -/
def firstStop? : Option Stop :=
  (List.range problem.slots.size).findSome?
    (problem.stopAt? assignment context frontier memory)

/-- The number of slots that a scan looks at: all of them, or those up to the first stop. -/
def reach : Nat :=
  match problem.firstStop? assignment context frontier memory with
  | none => problem.slots.size
  | some stop => stop.slot + 1

/-- The applicable constraints in the slots that a scan looks at. -/
def asked : List (Nat × Constraint σ κ) :=
  problem.applicableBelow frontier (problem.reach assignment context frontier memory)

/-! ## Applicable constraints -/

variable {problem assignment context frontier memory}

theorem applicableAt?_eq_some_iff {slot : Nat} {constraint : Constraint σ κ} :
    problem.applicableAt? frontier slot = some constraint ↔
      problem.slots[slot]? = some (some constraint) ∧ constraint.isApplicable frontier = true := by
  rw [applicableAt?, Option.filter_eq_some_iff, Option.join_eq_some_iff]

theorem mem_applicableBelow {count slot : Nat} {constraint : Constraint σ κ} :
    (slot, constraint) ∈ problem.applicableBelow frontier count ↔
      slot < count ∧ problem.slots[slot]? = some (some constraint) ∧
        constraint.isApplicable frontier = true := by
  unfold applicableBelow
  rw [List.mem_filterMap, ← applicableAt?_eq_some_iff]
  constructor
  · rintro ⟨index, hindex, hentry⟩
    obtain ⟨own, hown, heq⟩ := Option.map_eq_some_iff.1 hentry
    cases heq
    exact ⟨List.mem_range.1 hindex, hown⟩
  · rintro ⟨hslot, happlicable⟩
    exact ⟨slot, List.mem_range.2 hslot, by rw [happlicable]; rfl⟩

theorem applicableBelow_succ (count : Nat) :
    problem.applicableBelow frontier (count + 1) =
      problem.applicableBelow frontier count ++
        ((problem.applicableAt? frontier count).map (count, ·)).toList := by
  unfold applicableBelow
  rw [List.range_succ, List.filterMap_append]
  cases h : problem.applicableAt? frontier count <;> simp [h]

/-- The applicable constraints stand in the order of their slots. -/
theorem pairwise_applicableBelow (count : Nat) :
    ((problem.applicableBelow frontier count).map Prod.fst).Pairwise (· < ·) := by
  -- On the number of slots looked at; the next slot lies behind all of them.
  induction count with
  | zero => exact .nil
  | succ count ih =>
      rw [applicableBelow_succ, List.map_append, List.pairwise_append]
      refine ⟨ih, ?_, ?_⟩
      · cases problem.applicableAt? frontier count with
        | none => exact .nil
        | some constraint => exact List.pairwise_singleton _ _
      · intro slot hslot other hother
        obtain ⟨⟨_, constraint⟩, hentry, rfl⟩ := List.mem_map.1 hslot
        obtain rfl : count = other := by
          cases happlicable : problem.applicableAt? frontier count with
          | none => simp [happlicable] at hother
          | some constraint => simpa [happlicable, eq_comm] using hother
        exact (mem_applicableBelow.1 hentry).1

theorem memoryAfter_succ (count : Nat) :
    problem.memoryAfter assignment context frontier memory (count + 1) =
      match problem.applicableAt? frontier count with
      | none => problem.memoryAfter assignment context frontier memory count
      | some constraint => constraint.memoryAfter assignment context
          (problem.memoryAfter assignment context frontier memory count) := by
  unfold memoryAfter
  rw [applicableBelow_succ, List.foldl_append]
  cases problem.applicableAt? frontier count <;> rfl

theorem length_applicableBelow_succ (count : Nat) :
    (problem.applicableBelow frontier (count + 1)).length =
      (problem.applicableBelow frontier count).length +
        (problem.applicableAt? frontier count).toList.length := by
  rw [applicableBelow_succ, List.length_append]
  cases problem.applicableAt? frontier count <;> rfl

theorem length_applicableBelow_le (count : Nat) :
    (problem.applicableBelow frontier count).length ≤ count :=
  Nat.le_trans (List.length_filterMap_le _ _) (Nat.le_of_eq List.length_range)

theorem length_applicableBelow (count : Nat) :
    (problem.applicableBelow frontier count).length =
      (problem.slots.toList.take count).countP (·.any (·.isApplicable frontier)) := by
  induction count with
  | zero => rfl
  | succ count ih =>
      rw [length_applicableBelow_succ, ih, List.take_add_one, List.countP_append, applicableAt?,
        Array.getElem?_toList]
      cases problem.slots[count]? with
      | none => rfl
      | some own =>
          cases own with
          | none => rfl
          | some constraint => cases h : constraint.isApplicable frontier <;> simp [h]

/-! ## What stops a scan -/

theorem stopAt?_of_unset {slot : Nat} (hslot : problem.slots[slot]? = some none) :
    problem.stopAt? assignment context frontier memory slot = some (.unset slot) := by
  rw [stopAt?, hslot]

theorem stopAt?_of_set {slot : Nat} {constraint : Constraint σ κ}
    (hslot : problem.slots[slot]? = some (some constraint)) :
    problem.stopAt? assignment context frontier memory slot =
      if constraint.isApplicable frontier then
        match constraint.check assignment context
            (problem.memoryAfter assignment context frontier memory slot) with
        | .ok true _ => none
        | .ok false _ => some (.rejected slot)
        | .error fault _ => some (.gaveUp slot fault)
      else none := by
  rw [stopAt?, hslot]

/-- A constraint that is applicable and does not stop a scan accepts. -/
theorem exists_check_of_stopAt?_none {slot : Nat} {constraint : Constraint σ κ}
    (hslot : problem.slots[slot]? = some (some constraint))
    (happlicable : constraint.isApplicable frontier = true)
    (hnone : problem.stopAt? assignment context frontier memory slot = none) :
    ∃ after, constraint.check assignment context
      (problem.memoryAfter assignment context frontier memory slot) = .ok true after := by
  rw [stopAt?_of_set hslot, if_pos happlicable] at hnone
  split at hnone
  next after hcheck => exact ⟨after, hcheck⟩
  next => cases hnone
  next => cases hnone

/-- What stops a scan at a slot: it is unset, or its constraint is applicable and rejects or gives
up. -/
theorem stopAt?_cases {slot : Nat} {stop : Stop}
    (hstop : problem.stopAt? assignment context frontier memory slot = some stop) :
    problem.slots[slot]? = some none ∧ stop = .unset slot ∨
      ∃ constraint after, problem.slots[slot]? = some (some constraint) ∧
        constraint.isApplicable frontier = true ∧
        (constraint.check assignment context
            (problem.memoryAfter assignment context frontier memory slot) = .ok false after ∧
          stop = .rejected slot ∨
        ∃ fault, constraint.check assignment context
            (problem.memoryAfter assignment context frontier memory slot) = .error fault after ∧
          stop = .gaveUp slot fault) := by
  cases hslot : problem.slots[slot]? with
  | none =>
      rw [stopAt?, hslot] at hstop
      cases hstop
  | some own =>
      cases own with
      | none =>
          rw [stopAt?_of_unset hslot] at hstop
          cases hstop
          exact .inl ⟨rfl, rfl⟩
      | some constraint =>
          rw [stopAt?_of_set hslot] at hstop
          split at hstop
          next happlicable =>
            split at hstop
            next => cases hstop
            next after hcheck =>
              cases hstop
              exact .inr ⟨constraint, after, rfl, happlicable, .inl ⟨hcheck, rfl⟩⟩
            next fault after hcheck =>
              cases hstop
              exact .inr ⟨constraint, after, rfl, happlicable, .inr ⟨fault, hcheck, rfl⟩⟩
          next => cases hstop

/-! ## Slot by slot -/

/-- A scan that comes to a slot where nothing stops it goes on behind it. -/
theorem scanFrom_of_passed {slot calls : Nat} (hslot : slot < problem.slots.size)
    (hpassed : problem.stopAt? assignment context frontier memory slot = none) :
    problem.scanFrom assignment context frontier slot calls
        (problem.memoryAfter assignment context frontier memory slot) =
      problem.scanFrom assignment context frontier (slot + 1)
        (calls + (problem.applicableAt? frontier slot).toList.length)
        (problem.memoryAfter assignment context frontier memory (slot + 1)) := by
  have hget := Array.getElem?_eq_getElem hslot
  rw [memoryAfter_succ, scanFrom, dif_pos hslot]
  cases hown : problem.slots[slot] with
  | none =>
      rw [stopAt?_of_unset (hget.trans (congrArg some hown))] at hpassed
      cases hpassed
  | some constraint =>
      rw [hown] at hget
      -- A set slot is passed in two ways: its constraint accepts, and one call is counted, or it is
      -- not applicable, and none is.
      by_cases happlicable : constraint.isApplicable frontier = true
      · obtain ⟨after, hcheck⟩ := exists_check_of_stopAt?_none hget happlicable hpassed
        rw [applicableAt?_eq_some_iff.2 ⟨hget, happlicable⟩]
        simp only [if_pos happlicable, Constraint.memoryAfter, hcheck]
        rfl
      · have hnone : problem.applicableAt? frontier slot = none := by
          simp [applicableAt?, hget, happlicable]
        simp only [if_neg happlicable, hnone]
        rfl

/-- A scan that comes to a slot where something stops it ends there. -/
theorem scanFrom_of_stopped {slot calls : Nat} {stop : Stop}
    (hstop : problem.stopAt? assignment context frontier memory slot = some stop) :
    problem.scanFrom assignment context frontier slot calls
        (problem.memoryAfter assignment context frontier memory slot) =
      { answer := stop.answer
        calls := calls + (problem.applicableAt? frontier slot).toList.length
        memory := problem.memoryAfter assignment context frontier memory (slot + 1) } := by
  rw [memoryAfter_succ, scanFrom]
  obtain ⟨hslot, rfl⟩ | ⟨constraint, after, hslot, happlicable, hanswer⟩ := stopAt?_cases hstop
  · obtain ⟨hlt, hget⟩ := Array.getElem?_eq_some_iff.1 hslot
    have hnone : problem.applicableAt? frontier slot = none := by simp [applicableAt?, hslot]
    rw [dif_pos hlt, hget, hnone]
    rfl
  · obtain ⟨hlt, hget⟩ := Array.getElem?_eq_some_iff.1 hslot
    rw [dif_pos hlt, hget, applicableAt?_eq_some_iff.2 ⟨hslot, happlicable⟩]
    simp only [if_pos happlicable, Constraint.memoryAfter]
    obtain ⟨hcheck, rfl⟩ | ⟨fault, hcheck, rfl⟩ := hanswer
    · rw [hcheck]
      rfl
    · rw [hcheck]
      rfl

/-- A scan that nothing stops at the first `count` slots comes to the one behind them. -/
theorem scanFrom_of_passes {count : Nat} (hcount : count ≤ problem.slots.size)
    (hpasses : ∀ slot < count, problem.stopAt? assignment context frontier memory slot = none)
    (calls : Nat) :
    problem.scanFrom assignment context frontier 0 calls memory =
      problem.scanFrom assignment context frontier count
        (calls + (problem.applicableBelow frontier count).length)
        (problem.memoryAfter assignment context frontier memory count) := by
  induction count with
  | zero => rfl
  | succ count ih =>
      rw [ih (Nat.le_of_succ_le hcount) fun slot hslot => hpasses slot (Nat.lt_succ_of_lt hslot),
        scanFrom_of_passed hcount (hpasses count (Nat.lt_succ_self count)),
        length_applicableBelow_succ, Nat.add_assoc]

/-! ## The first stop -/

theorem slot_of_stopAt? {slot : Nat} {stop : Stop}
    (hstop : problem.stopAt? assignment context frontier memory slot = some stop) :
    slot < problem.slots.size ∧ stop.slot = slot := by
  obtain ⟨hslot, rfl⟩ | ⟨constraint, after, hslot, -, ⟨-, rfl⟩ | ⟨fault, -, rfl⟩⟩ :=
    stopAt?_cases hstop
  · exact ⟨(Array.getElem?_eq_some_iff.1 hslot).1, rfl⟩
  · exact ⟨(Array.getElem?_eq_some_iff.1 hslot).1, rfl⟩
  · exact ⟨(Array.getElem?_eq_some_iff.1 hslot).1, rfl⟩

theorem firstStop?_eq_none_iff :
    problem.firstStop? assignment context frontier memory = none ↔
      ∀ slot < problem.slots.size,
        problem.stopAt? assignment context frontier memory slot = none := by
  simp [firstStop?]

theorem firstStop?_eq_some_iff {stop : Stop} :
    problem.firstStop? assignment context frontier memory = some stop ↔
      problem.stopAt? assignment context frontier memory stop.slot = some stop ∧
        ∀ slot < stop.slot, problem.stopAt? assignment context frontier memory slot = none := by
  unfold firstStop?
  rw [findSome?_eq_some_iff_getElem?]
  constructor
  · rintro ⟨i, slot, hslot, hstop, hpasses⟩
    obtain ⟨hi, rfl⟩ := List.getElem?_eq_some_iff.1 hslot
    -- The slots are searched in the order of a range, so the position in it is the slot.
    rw [List.getElem_range] at hstop
    obtain ⟨hlt, rfl⟩ := slot_of_stopAt? hstop
    refine ⟨hstop, fun earlier hearlier => hpasses earlier hearlier earlier ?_⟩
    exact List.getElem?_range (Nat.lt_trans hearlier hlt)
  · rintro ⟨hstop, hpasses⟩
    refine ⟨stop.slot, stop.slot, List.getElem?_range (slot_of_stopAt? hstop).1, hstop, ?_⟩
    intro j hj earlier hearlier
    obtain ⟨hlt, rfl⟩ := List.getElem?_eq_some_iff.1 hearlier
    rw [List.getElem_range]
    exact hpasses j hj

theorem reach_le : problem.reach assignment context frontier memory ≤ problem.slots.size := by
  unfold reach
  cases hfirst : problem.firstStop? assignment context frontier memory with
  | none => exact Nat.le_refl _
  | some stop => exact (slot_of_stopAt? (firstStop?_eq_some_iff.1 hfirst).1).1

/-- The constraints that a scan asks are the applicable ones up to the first stop. -/
theorem mem_asked {slot : Nat} {constraint : Constraint σ κ} :
    (slot, constraint) ∈ problem.asked assignment context frontier memory ↔
      problem.slots[slot]? = some (some constraint) ∧ constraint.isApplicable frontier = true ∧
        ∀ stop, problem.firstStop? assignment context frontier memory = some stop →
          slot ≤ stop.slot := by
  -- To be within reach is to be no later than the first stop; the slot that stops the scan is
  -- within reach, since its constraint has been asked.
  have hreach : slot < problem.slots.size →
      (slot < problem.reach assignment context frontier memory ↔
        ∀ stop, problem.firstStop? assignment context frontier memory = some stop →
          slot ≤ stop.slot) := by
    intro hslot
    unfold reach
    cases problem.firstStop? assignment context frontier memory with
    | none => exact iff_of_true hslot nofun
    | some stop =>
        refine ⟨fun hlt other hother => ?_, fun hle => Nat.lt_succ_of_le (hle stop rfl)⟩
        cases hother
        exact Nat.le_of_lt_succ hlt
  rw [asked, mem_applicableBelow]
  constructor
  · rintro ⟨hlt, hslot, happlicable⟩
    exact ⟨hslot, happlicable, (hreach (Array.getElem?_eq_some_iff.1 hslot).1).1 hlt⟩
  · rintro ⟨hslot, happlicable, hstop⟩
    exact ⟨(hreach (Array.getElem?_eq_some_iff.1 hslot).1).2 hstop, hslot, happlicable⟩

/-- What a scan comes to that `calls` checkers have been asked before. -/
theorem scanFrom_eq (calls : Nat) :
    problem.scanFrom assignment context frontier 0 calls memory =
      { answer := (problem.firstStop? assignment context frontier memory).elim (.ok true) Stop.answer
        calls := calls + (problem.asked assignment context frontier memory).length
        memory := problem.memoryAfter assignment context frontier memory
          (problem.reach assignment context frontier memory) } := by
  unfold asked reach
  cases hfirst : problem.firstStop? assignment context frontier memory with
  | none =>
      rw [scanFrom_of_passes (Nat.le_refl _) (firstStop?_eq_none_iff.1 hfirst), scanFrom,
        dif_neg (Nat.lt_irrefl _)]
      rfl
  | some stop =>
      obtain ⟨hstop, hpasses⟩ := firstStop?_eq_some_iff.1 hfirst
      rw [scanFrom_of_passes (Nat.le_of_lt (slot_of_stopAt? hstop).1) hpasses,
        scanFrom_of_stopped hstop]
      simp only [length_applicableBelow_succ, Nat.add_assoc, Option.elim_some]

/-! ## Whole scans -/

theorem answer_scan :
    (problem.scan assignment context frontier memory).answer =
      (problem.firstStop? assignment context frontier memory).elim (.ok true) Stop.answer :=
  congrArg Scan.answer (scanFrom_eq 0)

/-- A constraint that rejects hides the unset slot behind it.  One that is not applicable does not. -/
example :
    let checker : Checker Unit Unit := .ofPure 0 fun _ _ _ => .ok false
    let problem : Problem Unit Unit :=
      { domains := #[2, 2], slots := #[some { scope := [0], checker }, none] }
    (problem.scan #[0, 0] () 1 ()).answer = .ok false ∧
      (problem.scan #[0, 0] () 0 ()).answer = .error (.unsetSlot 1) := by
  intro checker problem
  rw [answer_scan, answer_scan]
  exact ⟨rfl, rfl⟩

theorem calls_scan :
    (problem.scan assignment context frontier memory).calls =
      (problem.asked assignment context frontier memory).length :=
  (congrArg Scan.calls (scanFrom_eq 0)).trans (Nat.zero_add _)

/-- A scan accepts exactly if nothing stops it. -/
theorem answer_scan_eq_true_iff :
    (problem.scan assignment context frontier memory).answer = .ok true ↔
      problem.firstStop? assignment context frontier memory = none := by
  rw [answer_scan]
  cases problem.firstStop? assignment context frontier memory with
  | none => exact iff_of_true rfl rfl
  | some stop => exact iff_of_false stop.answer_ne_true nofun

/-- A scan that does not accept is stopped, and answers accordingly. -/
theorem exists_stop {answer : Except Fault Bool}
    (hanswer : (problem.scan assignment context frontier memory).answer = answer)
    (hne : answer ≠ .ok true) :
    ∃ stop, problem.firstStop? assignment context frontier memory = some stop ∧
      stop.answer = answer := by
  cases hfirst : problem.firstStop? assignment context frontier memory with
  | none => exact absurd (hanswer.symm.trans (answer_scan_eq_true_iff.2 hfirst)) hne
  | some stop =>
      rw [answer_scan, hfirst] at hanswer
      exact ⟨stop, rfl, hanswer⟩

/-- A scan rejects only if an applicable constraint does. -/
theorem exists_rejected
    (hanswer : (problem.scan assignment context frontier memory).answer = .ok false) :
    ∃ slot constraint after,
      problem.firstStop? assignment context frontier memory = some (.rejected slot) ∧
        problem.slots[slot]? = some (some constraint) ∧
        constraint.isApplicable frontier = true ∧
        constraint.check assignment context
          (problem.memoryAfter assignment context frontier memory slot) = .ok false after := by
  obtain ⟨stop, hfirst, hstop⟩ := exists_stop hanswer nofun
  obtain ⟨-, hown⟩ | ⟨constraint, after, hslot, happlicable, ⟨hcheck, hown⟩ | ⟨fault, -, hown⟩⟩ :=
    stopAt?_cases (firstStop?_eq_some_iff.1 hfirst).1
  · rw [hown] at hstop
    cases hstop
  · exact ⟨stop.slot, constraint, after, hown ▸ hfirst, hslot, happlicable, hcheck⟩
  · rw [hown] at hstop
    cases hstop

/-- If all slots are set, a scan meets a fault only if an applicable constraint gives up. -/
theorem exists_gaveUp (hfilled : none ∉ problem.slots) {fault : Fault}
    (hanswer : (problem.scan assignment context frontier memory).answer = .error fault) :
    ∃ slot constraint after,
      problem.firstStop? assignment context frontier memory = some (.gaveUp slot fault) ∧
        problem.slots[slot]? = some (some constraint) ∧
        constraint.isApplicable frontier = true ∧
        constraint.check assignment context
          (problem.memoryAfter assignment context frontier memory slot) = .error fault after := by
  obtain ⟨stop, hfirst, hstop⟩ := exists_stop hanswer nofun
  obtain ⟨hunset, -⟩ | ⟨constraint, after, hslot, happlicable, ⟨-, hown⟩ | ⟨other, hcheck, hown⟩⟩ :=
    stopAt?_cases (firstStop?_eq_some_iff.1 hfirst).1
  · exact absurd (Array.mem_of_getElem? hunset) hfilled
  · rw [hown] at hstop
    cases hstop
  · rw [hown] at hstop
    cases hstop
    exact ⟨stop.slot, constraint, after, hown ▸ hfirst, hslot, happlicable, hcheck⟩

end Problem

end ConstraintSearch
