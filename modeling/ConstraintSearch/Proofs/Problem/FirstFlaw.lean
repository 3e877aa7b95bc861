import ConstraintSearch.Proofs.Problem.Valid
import ConstraintSearch.Proofs.Search.Asked

/-!
# The first flaw of a problem

A slot is in order if it is set, to a constraint that keeps to the variables of the problem.  Any
other slot has a flaw, and exactly one: it is unset, or its constraint refers to variables that the
problem does not have, and then the first of them in the tuple counts (`FlawAt`).  A problem is
refused for the flaw of the first slot that has one, and for nothing else
(`validate_reports_first_flaw`).

A problem that is not refused can be scanned with any assignment to its variables: the scan meets no
unset slot, and every constraint that is asked finds its variables in the assignment.
-/

namespace ConstraintSearch.Problem

variable {σ κ : Type} {problem : Problem σ κ} {slot : Nat} {flaw : ProblemError}

/-- The slot is set, to a constraint that keeps to the variables of the problem. -/
def InOrder (problem : Problem σ κ) (slot : Nat) : Prop :=
  ∃ constraint, problem.slots[slot]? = some (some constraint) ∧
    ∀ v ∈ constraint.scope, v < problem.domains.size

/-- What is wrong with a slot. -/
inductive FlawAt (problem : Problem σ κ) (slot : Nat) : ProblemError → Prop where
  /-- It is not set. -/
  | unset (hslot : problem.slots[slot]? = some none) :
      FlawAt problem slot (.unsetConstraint slot)
  /-- Its constraint refers to a variable that the problem does not have, the first in the tuple. -/
  | outOfRange {constraint : Constraint σ κ} {before behind : List Nat} {v : Nat}
      (hslot : problem.slots[slot]? = some (some constraint))
      (hscope : constraint.scope = before ++ v :: behind)
      (hbefore : ∀ w ∈ before, w < problem.domains.size) (hv : problem.domains.size ≤ v) :
      FlawAt problem slot (.variableOutOfRange slot v problem.domains.size)

/-! ## Single slots -/

theorem slotFlaw?_eq_some_iff {own : Option (Constraint σ κ)}
    (hslot : problem.slots[slot]? = some own) :
    slotFlaw? problem.domains.size slot own = some flaw ↔ problem.FlawAt slot flaw := by
  constructor
  · intro hflaw
    cases own with
    | none =>
        cases hflaw
        exact .unset hslot
    | some constraint =>
        obtain ⟨v, hfind, rfl⟩ := Option.map_eq_some_iff.1 hflaw
        obtain ⟨hv, before, behind, hscope, hbefore⟩ := List.find?_eq_some_iff_append.1 hfind
        exact .outOfRange hslot hscope (by simpa using hbefore) (of_decide_eq_true hv)
  · rintro (hunset | ⟨hset, hscope, hbefore, hv⟩)
    · cases hslot.symm.trans hunset
      rfl
    · cases hslot.symm.trans hset
      refine Option.map_eq_some_iff.2 ⟨_, List.find?_eq_some_iff_append.2 ?_, rfl⟩
      exact ⟨decide_eq_true hv, _, _, hscope, by simpa using hbefore⟩

theorem slotFlaw?_eq_none_iff_inOrder {own : Option (Constraint σ κ)}
    (hslot : problem.slots[slot]? = some own) :
    slotFlaw? problem.domains.size slot own = none ↔ problem.InOrder slot := by
  rw [slotFlaw?_eq_none_iff, InOrder, hslot]
  simp

/-! ## The first flaw -/

theorem flaw?_eq_none_iff_inOrder :
    problem.flaw? = none ↔ ∀ slot < problem.slots.size, problem.InOrder slot := by
  rw [flaw?_eq_none_iff]
  constructor
  · intro h slot hslot
    have hown := Array.getElem?_eq_getElem hslot
    obtain ⟨constraint, heq, hscope⟩ := h slot _ hown
    exact ⟨constraint, hown.trans (congrArg some heq), hscope⟩
  · intro h slot own hown
    obtain ⟨constraint, hset, hscope⟩ := h slot (Array.getElem?_eq_some_iff.1 hown).1
    cases hown.symm.trans hset
    exact ⟨constraint, rfl, hscope⟩

/-- The flaw of a problem is the one of the first slot that has one. -/
theorem flaw?_eq_some_iff :
    problem.flaw? = some flaw ↔
      ∃ slot, problem.FlawAt slot flaw ∧ ∀ earlier < slot, problem.InOrder earlier := by
  have hitem : ∀ (i : Nat) (item : Option (Constraint σ κ) × Nat),
      problem.slots.toList.zipIdx[i]? = some item ↔
        problem.slots[i]? = some item.1 ∧ item.2 = i := by
    rintro i ⟨own, index⟩
    rw [List.getElem?_zipIdx, Array.getElem?_toList, Option.map_eq_some_iff, Nat.zero_add]
    constructor
    · rintro ⟨_, hown, heq⟩
      cases heq
      exact ⟨hown, rfl⟩
    · rintro ⟨hown, rfl⟩
      exact ⟨own, hown, rfl⟩
  unfold flaw?
  rw [findSome?_eq_some_iff_getElem?]
  constructor
  · rintro ⟨slot, ⟨own, index⟩, hown, hflaw, hnone⟩
    obtain ⟨hslot, rfl⟩ := (hitem slot _).1 hown
    refine ⟨index, (slotFlaw?_eq_some_iff hslot).1 hflaw, fun earlier hearlier => ?_⟩
    have hlt := Nat.lt_trans hearlier (Array.getElem?_eq_some_iff.1 hslot).1
    have hearlier' := Array.getElem?_eq_getElem hlt
    exact (slotFlaw?_eq_none_iff_inOrder hearlier').1
      (hnone earlier hearlier (_, earlier) ((hitem earlier _).2 ⟨hearlier', rfl⟩))
  · rintro ⟨slot, hflaw, hinOrder⟩
    obtain ⟨own, hslot⟩ : ∃ own, problem.slots[slot]? = some own := by
      cases hflaw with
      | unset hslot => exact ⟨_, hslot⟩
      | outOfRange hslot => exact ⟨_, hslot⟩
    refine ⟨slot, (own, slot), (hitem slot _).2 ⟨hslot, rfl⟩, (slotFlaw?_eq_some_iff hslot).2 hflaw,
      ?_⟩
    rintro earlier hearlier ⟨own', index⟩ hown'
    obtain ⟨hslot', rfl⟩ := (hitem earlier _).1 hown'
    exact (slotFlaw?_eq_none_iff_inOrder hslot').2 (hinOrder _ hearlier)

/-! ## Scans of a problem without a flaw -/

section Scan

variable (hvalid : problem.flaw? = none) {assignment : Array Nat} {context : κ} {frontier : Nat}
  {memory : σ}

include hvalid

/-- A fault in a scan comes from a checker. -/
theorem exists_check_of_scan_error {fault : Fault}
    (hfault : (problem.scan assignment context frontier memory).answer = .error fault) :
    ∃ (slot : Nat) (constraint : Constraint σ κ) (before after : σ),
      problem.slots[slot]? = some (some constraint) ∧
        constraint.check assignment context before = .error fault after := by
  obtain ⟨slot, constraint, after, -, hslot, -, hcheck⟩ :=
    exists_gaveUp (none_notMem_of_valid hvalid) hfault
  exact ⟨slot, constraint, _, after, hslot, hcheck⟩

/-- Every constraint that a scan asks finds its variables in an assignment to all of them. -/
theorem scope_lt_of_call (hsize : assignment.size = problem.domains.size) {call : Call}
    (hcall : call ∈
      (problem.recording.scan assignment context frontier { own := memory }).memory.calls) :
    ∃ constraint, problem.slots[call.slot]? = some (some constraint) ∧
      ∀ v ∈ constraint.scope, v < assignment.size := by
  rw [scan, scanFrom_recording] at hcall
  obtain ⟨-, -, constraint, hslot, -⟩ := mem_callsBelow.1 hcall
  refine ⟨constraint, hslot, fun v hv => ?_⟩
  rw [hsize]
  exact scope_lt_of_valid hvalid (attached_of_getElem? hslot) hv

end Scan

/-! ## Main statement -/

section Validate

variable {build : Build} {library after : Library}
  (hactive : ¬(build = .checked ∧ library.activations = 0))

include hactive

theorem validate_eq_ok_iff :
    problem.validate build library = .ok () after ↔ after = library ∧ problem.flaw? = none := by
  rw [problem.validate_apply hactive]
  cases problem.flaw? with
  | none => simp [eq_comm]
  | some flaw => simp

theorem validate_eq_error_iff {failure : Failure} :
    problem.validate build library = .error failure after ↔
      after = library ∧ ∃ flaw, failure = .problem flaw ∧ problem.flaw? = some flaw := by
  rw [problem.validate_apply hactive]
  cases problem.flaw? with
  | none => simp
  | some flaw => simp [eq_comm, and_comm]

end Validate

/-- **The first flaw.**  In either build, and as long as the checked build finds the library active, a
problem passes exactly if every slot is set, to a constraint that keeps to the variables of the
problem.  Otherwise it is refused for the first slot of which this is not so: because it is unset, or
else because of the first variable in its tuple that the problem does not have.  Nothing else comes of
it, and the library stays as it is.

Once a problem has passed, a scan of an assignment to all its variables meets no unset slot, so a
fault in it is one of a checker, and all constraints that it asks find their variables in the
assignment. -/
theorem validate_reports_first_flaw (problem : Problem σ κ) {build : Build} {library : Library}
    (hactive : ¬(build = .checked ∧ library.activations = 0)) :
    (∀ after, problem.validate build library = .ok () after ↔
      after = library ∧ ∀ slot < problem.slots.size, problem.InOrder slot) ∧
    (∀ failure after, problem.validate build library = .error failure after ↔
      after = library ∧ ∃ flaw slot, failure = .problem flaw ∧ problem.FlawAt slot flaw ∧
        ∀ earlier < slot, problem.InOrder earlier) ∧
    (∀ after, problem.validate build library = .ok () after →
      ∀ (assignment : Array Nat) (context : κ) (frontier : Nat) (memory : σ),
        assignment.size = problem.domains.size →
        (∀ fault, (problem.scan assignment context frontier memory).answer = .error fault →
          ∃ (slot : Nat) (constraint : Constraint σ κ) (before after : σ),
            problem.slots[slot]? = some (some constraint) ∧
              constraint.check assignment context before = .error fault after) ∧
        ∀ call ∈
            (problem.recording.scan assignment context frontier { own := memory }).memory.calls,
          ∃ constraint, problem.slots[call.slot]? = some (some constraint) ∧
            ∀ v ∈ constraint.scope, v < assignment.size) := by
  refine ⟨fun after => ?_, fun failure after => ?_, ?_⟩
  · rw [validate_eq_ok_iff hactive, flaw?_eq_none_iff_inOrder]
  · rw [validate_eq_error_iff hactive]
    refine and_congr_right' (exists_congr fun flaw => ?_)
    rw [flaw?_eq_some_iff, exists_and_left]
  · intro after hpassed assignment context frontier memory hsize
    have hvalid := ((validate_eq_ok_iff hactive).1 hpassed).2
    exact ⟨fun fault => exists_check_of_scan_error hvalid, fun call => scope_lt_of_call hvalid hsize⟩

/-- Two slots with a flaw, behind one that is in order: the second constraint refers to two variables
that a problem over two variables does not have, and the last slot is not set. -/
def twoFlaws : Problem Unit Unit where
  domains := #[2, 2]
  slots :=
    #[some { scope := [0, 1], checker := .ofPure 0 fun _ _ _ => .ok true },
      some { scope := [1, 5, 3], checker := .ofPure 0 fun _ _ _ => .ok true },
      none]

/-- An unchecked build, which can attach such a constraint, refuses the problem for the first of the
foreign variables, though the library is not active. -/
theorem validate_reports_first_flaw_twoFlaws :
    ¬(Build.unchecked = .checked ∧ (0 : Nat) = 0) ∧
      twoFlaws.validate .unchecked {} = .error (.problem (.variableOutOfRange 1 5 2)) {} := by
  have hactive : ¬(Build.unchecked = .checked ∧ ({} : Library).activations = 0) := by decide
  refine ⟨hactive, ((validate_reports_first_flaw twoFlaws hactive).2.1 _ _).2 ?_⟩
  have hscope : [1, 5, 3] = [1] ++ 5 :: [3] := rfl
  refine ⟨rfl, _, 1, rfl, .outOfRange rfl hscope (by simp [twoFlaws]) (by decide), ?_⟩
  · intro earlier hearlier
    obtain rfl := Nat.lt_one_iff.1 hearlier
    exact ⟨_, rfl, by simp [twoFlaws]⟩

end ConstraintSearch.Problem
