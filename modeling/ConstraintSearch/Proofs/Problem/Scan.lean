import ConstraintSearch.Proofs.Problem.Local

/-!
# What a scan finds

A scan makes at most one call for each slot (`calls_scan_le`), and one that rejects makes at least
one (`calls_scan_pos`).  A scan that accepts has asked every applicable constraint, and each has
accepted (`exists_check_of_scan`), so it has made one call for each of them
(`calls_scan_of_accepting`).

Where checkers have made up their mind about an assignment, whatever they remember, a scan accepts it
exactly if they all do (`answer_scan_of_decided`).  So it is with checkers that answer by the whole
assignment and never give up (`Pure.answer_scan`).  With local checkers a scan finds the same in
assignments that agree below the frontier (`Local.scan_congr`).
-/

namespace ConstraintSearch.Problem

variable {σ κ : Type} {problem : Problem σ κ} {assignment : Array Nat} {context : κ}
  {frontier : Nat} {memory : σ}

/-! ## Counting calls -/

/-- A scan makes at most one call for each slot. -/
theorem calls_scan_le (problem : Problem σ κ) (assignment : Array Nat) (context : κ)
    (frontier : Nat) (memory : σ) :
    (problem.scan assignment context frontier memory).calls ≤ problem.slots.size := by
  rw [calls_scan]
  calc (problem.asked assignment context frontier memory).length
      ≤ problem.reach assignment context frontier memory := length_applicableBelow_le _
    _ ≤ problem.slots.size := reach_le

/-- It takes a call to reject. -/
theorem calls_scan_pos
    (hanswer : (problem.scan assignment context frontier memory).answer = .ok false) :
    0 < (problem.scan assignment context frontier memory).calls := by
  obtain ⟨slot, constraint, after, hfirst, hslot, happlicable, -⟩ := exists_rejected hanswer
  have hasked : (slot, constraint) ∈ problem.asked assignment context frontier memory := by
    refine mem_asked.2 ⟨hslot, happlicable, fun stop hstop => ?_⟩
    cases hfirst.symm.trans hstop
    exact Nat.le_refl slot
  rw [calls_scan]
  exact List.length_pos_of_mem hasked

/-! ## Accepting -/

/-- A scan accepts only if every applicable constraint does, with some memory. -/
theorem exists_check_of_scan
    (hanswer : (problem.scan assignment context frontier memory).answer = .ok true)
    {constraint : Constraint σ κ} (hattached : problem.Attached constraint)
    (happlicable : constraint.isApplicable frontier = true) :
    ∃ before after, constraint.check assignment context before = .ok true after := by
  obtain ⟨slot, hslot⟩ := Array.getElem?_of_mem hattached
  have hpasses := firstStop?_eq_none_iff.1 (answer_scan_eq_true_iff.1 hanswer)
  exact ⟨_, exists_check_of_stopAt?_none hslot happlicable
    (hpasses slot (Array.getElem?_eq_some_iff.1 hslot).1)⟩

/-- If all slots are set and every applicable constraint accepts, so does the scan. -/
theorem scan_of_acceptsUpTo (hfilled : none ∉ problem.slots)
    (haccepts : problem.AcceptsUpTo context frontier assignment) (memory : σ) :
    (problem.scan assignment context frontier memory).answer = .ok true := by
  rw [answer_scan_eq_true_iff, firstStop?_eq_none_iff]
  intro slot _
  rw [Option.eq_none_iff_forall_ne_some]
  intro stop hstop
  obtain ⟨hunset, -⟩ | ⟨constraint, after, hslot, happlicable, hanswer⟩ := stopAt?_cases hstop
  · exact hfilled (Array.mem_of_getElem? hunset)
  · obtain ⟨after', haccepted⟩ := haccepts constraint (attached_of_getElem? hslot) happlicable
      (problem.memoryAfter assignment context frontier memory slot)
    obtain ⟨hcheck, -⟩ | ⟨fault, hcheck, -⟩ := hanswer
    · cases hcheck.symm.trans haccepted
    · cases hcheck.symm.trans haccepted

/-- If all slots are set and every applicable constraint has made up its mind, a scan answers, and it
accepts exactly if all of them do. -/
theorem answer_scan_of_decided (hfilled : none ∉ problem.slots)
    (hdecided : ∀ constraint, problem.Attached constraint →
      constraint.isApplicable frontier = true →
      ∃ accepted, ∀ memory, ∃ after,
        constraint.check assignment context memory = .ok accepted after) (memory : σ) :
    ∃ accepted, (problem.scan assignment context frontier memory).answer = .ok accepted ∧
      (accepted = true ↔ problem.AcceptsUpTo context frontier assignment) := by
  cases hanswer : (problem.scan assignment context frontier memory).answer with
  | error fault =>
      obtain ⟨slot, constraint, after, -, hslot, happlicable, hcheck⟩ := exists_gaveUp hfilled hanswer
      obtain ⟨accepted, haccepted⟩ := hdecided constraint (attached_of_getElem? hslot) happlicable
      obtain ⟨after', hafter'⟩ := haccepted _
      cases hcheck.symm.trans hafter'
  | ok accepted =>
      refine ⟨accepted, rfl, ?_, ?_⟩
      · rintro rfl constraint hattached happlicable
        obtain ⟨before, after, hcheck⟩ := exists_check_of_scan hanswer hattached happlicable
        obtain ⟨accepted, haccepted⟩ := hdecided constraint hattached happlicable
        obtain ⟨after', hafter'⟩ := haccepted before
        cases hcheck.symm.trans hafter'
        exact haccepted
      · intro haccepts
        exact Except.ok.inj (hanswer.symm.trans (scan_of_acceptsUpTo hfilled haccepts memory))

/-- A scan that accepts makes one call for each slot with an applicable constraint. -/
theorem calls_scan_of_accepting
    (hanswer : (problem.scan assignment context frontier memory).answer = .ok true) :
    (problem.scan assignment context frontier memory).calls =
      problem.slots.toList.countP (·.any (·.isApplicable frontier)) := by
  have hreach : problem.reach assignment context frontier memory = problem.slots.size := by
    rw [reach, answer_scan_eq_true_iff.1 hanswer]
  rw [calls_scan, asked, hreach, length_applicableBelow, ← Array.length_toList, List.take_length]

/-! ## Checkers that answer by the whole assignment -/

/-- Each constraint has a checker that answers, or gives up, by the whole assignment and nothing
else. -/
def Pure (problem : Problem σ κ) (context : κ) : Prop :=
  ∀ constraint, problem.Attached constraint → ∃ verdict : Array Nat → Except Fault Bool,
    ∀ (assignment : Array Nat) (memory : σ), ∃ after,
      constraint.check assignment context memory =
        match verdict assignment with
        | .ok accepted => .ok accepted after
        | .error fault => .error fault after

/-- What such a checker has accepted it accepts again. -/
theorem Pure.accepts (hpure : problem.Pure context) {constraint : Constraint σ κ}
    (hattached : problem.Attached constraint) {before after : σ}
    (hcheck : constraint.check assignment context before = .ok true after) :
    constraint.Accepts context assignment := by
  obtain ⟨verdict, hverdict⟩ := hpure constraint hattached
  intro memory
  obtain ⟨first, hfirst⟩ := hverdict assignment before
  obtain ⟨second, hsecond⟩ := hverdict assignment memory
  rw [hcheck] at hfirst
  -- The verdict is the same before and with any other memory, so the one answer that is known
  -- decides.
  cases hanswer : verdict assignment with
  | ok accepted =>
      rw [hanswer] at hfirst hsecond
      cases hfirst
      exact ⟨second, hsecond⟩
  | error fault =>
      rw [hanswer] at hfirst
      cases hfirst

theorem Pure.acceptsUpTo_of_scan (hpure : problem.Pure context)
    (hanswer : (problem.scan assignment context frontier memory).answer = .ok true) :
    problem.AcceptsUpTo context frontier assignment := by
  intro constraint hattached happlicable
  obtain ⟨before, after, hcheck⟩ := exists_check_of_scan hanswer hattached happlicable
  exact hpure.accepts hattached hcheck

/-- If no such checker gives up, a scan accepts or rejects, whatever the checkers remember. -/
theorem Pure.answer_scan (hpure : problem.Pure context) (hvalid : problem.flaw? = none)
    (hsteady : problem.Steady context) (hsize : assignment.size = problem.domains.size)
    (memory : σ) :
    ∃ accepted, (problem.scan assignment context frontier memory).answer = .ok accepted ∧
      (accepted = true ↔ problem.AcceptsUpTo context frontier assignment) := by
  refine answer_scan_of_decided (none_notMem_of_valid hvalid) (fun constraint hattached _ => ?_) memory
  obtain ⟨verdict, hverdict⟩ := hpure constraint hattached
  obtain ⟨accepted, after, hcheck⟩ := hsteady constraint hattached assignment memory hsize
  obtain ⟨after', hafter'⟩ := hverdict assignment memory
  cases hanswer : verdict assignment with
  | ok accepted =>
      refine ⟨accepted, fun memory => ?_⟩
      obtain ⟨after, hafter⟩ := hverdict assignment memory
      rw [hanswer] at hafter
      exact ⟨after, hafter⟩
  | error fault =>
      rw [hanswer] at hafter'
      cases hcheck.symm.trans hafter'

/-! ## Local checkers -/

variable {other : Array Nat}

/-- Local checkers stop a scan at the same slots of assignments that agree below the frontier. -/
theorem Local.stopAt?_congr (hlocal : problem.Local context)
    (hsize : assignment.size = problem.domains.size) (hsize' : other.size = problem.domains.size)
    (hagree : AgreeBelow frontier assignment other) (memory memory' : σ) (slot : Nat) :
    problem.stopAt? other context frontier memory' slot =
      problem.stopAt? assignment context frontier memory slot := by
  cases hslot : problem.slots[slot]? with
  | none => rw [stopAt?, stopAt?, hslot]
  | some own =>
      cases own with
      | none => rw [stopAt?_of_unset hslot, stopAt?_of_unset hslot]
      | some constraint =>
          rw [stopAt?_of_set hslot, stopAt?_of_set hslot]
          by_cases happlicable : constraint.isApplicable frontier = true
          · -- The two memories before the slot may differ, but a local checker answers by its own
            -- variables, which are below the frontier.
            obtain ⟨accepted, after, after', hcheck, hcheck'⟩ :=
              hlocal.check_congr (attached_of_getElem? hslot) happlicable hsize hsize' hagree
                (problem.memoryAfter assignment context frontier memory slot)
                (problem.memoryAfter other context frontier memory' slot)
            rw [if_pos happlicable, if_pos happlicable, hcheck, hcheck']
            cases accepted <;> rfl
          · rw [if_neg happlicable, if_neg happlicable]

/-- With local checkers a scan finds the same in assignments that agree below the frontier, with as
many calls. -/
theorem Local.scan_congr (hlocal : problem.Local context)
    (hsize : assignment.size = problem.domains.size) (hsize' : other.size = problem.domains.size)
    (hagree : AgreeBelow frontier assignment other) (memory memory' : σ) :
    (problem.scan other context frontier memory').answer =
        (problem.scan assignment context frontier memory).answer ∧
      (problem.scan other context frontier memory').calls =
        (problem.scan assignment context frontier memory).calls := by
  have hstops := funext (hlocal.stopAt?_congr hsize hsize' hagree memory memory')
  have hfirst : problem.firstStop? other context frontier memory' =
      problem.firstStop? assignment context frontier memory := by
    rw [firstStop?, firstStop?, hstops]
  rw [answer_scan, answer_scan, calls_scan, calls_scan, asked, asked, reach, reach, hfirst]
  exact ⟨rfl, rfl⟩

end ConstraintSearch.Problem
