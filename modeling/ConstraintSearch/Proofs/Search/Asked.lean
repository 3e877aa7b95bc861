import ConstraintSearch.Proofs.Problem.Replaced
import ConstraintSearch.Proofs.Search.Recursive

/-!
# The calls of a scan

Checkers that note their calls do not change where a scan stops (`replacedBy_recording`), and what
they note are the calls of the scan: one for each applicable constraint up to the first stop, in slot
order, under the assignment that is scanned (`scanFrom_recording`).
-/

namespace ConstraintSearch

variable {σ κ : Type}

/-- A noting checker answers like the own one, and notes the call. -/
theorem Constraint.check_recording (constraint : Constraint σ κ) (index : Nat)
    (assignment : Array Nat) (context : κ) (memory : Recorded σ) :
    (constraint.recording index).check assignment context memory =
      match constraint.check assignment context memory.own with
      | .ok accepted own => .ok accepted { own, calls := memory.calls ++ [⟨index, assignment⟩] }
      | .error fault own =>
          .error fault { own, calls := memory.calls ++ [⟨index, assignment⟩] } := rfl

theorem Constraint.memoryAfter_recording (constraint : Constraint σ κ) (index : Nat)
    (assignment : Array Nat) (context : κ) (memory : Recorded σ) :
    (constraint.recording index).memoryAfter assignment context memory =
      { own := constraint.memoryAfter assignment context memory.own
        calls := memory.calls ++ [⟨index, assignment⟩] } := by
  unfold memoryAfter
  rw [check_recording]
  cases constraint.check assignment context memory.own <;> rfl

namespace Problem

variable {problem : Problem σ κ} {assignment : Array Nat} {context : κ} {frontier : Nat}

/-- The calls of the constraints in the first `count` slots that are applicable. -/
def callsBelow (problem : Problem σ κ) (assignment : Array Nat) (frontier count : Nat) : List Call :=
  (problem.applicableBelow frontier count).map fun (slot, _) => { slot, buffer := assignment }

theorem callsBelow_succ (count : Nat) :
    problem.callsBelow assignment frontier (count + 1) =
      problem.callsBelow assignment frontier count ++
        ((problem.applicableAt? frontier count).map fun _ =>
          { slot := count, buffer := assignment }).toList := by
  unfold callsBelow
  rw [applicableBelow_succ, List.map_append]
  cases problem.applicableAt? frontier count <;> rfl

theorem mem_callsBelow {count : Nat} {call : Call} :
    call ∈ problem.callsBelow assignment frontier count ↔
      call.buffer = assignment ∧ call.slot < count ∧ ∃ constraint,
        problem.slots[call.slot]? = some (some constraint) ∧
          constraint.isApplicable frontier = true := by
  unfold callsBelow
  rw [List.mem_map]
  constructor
  · rintro ⟨⟨slot, constraint⟩, hentry, rfl⟩
    obtain ⟨hslot, hset⟩ := mem_applicableBelow.1 hentry
    exact ⟨rfl, hslot, constraint, hset⟩
  · rintro ⟨rfl, hslot, constraint, hset⟩
    exact ⟨(call.slot, constraint), mem_applicableBelow.2 ⟨hslot, hset⟩, rfl⟩

/-- Noting checkers do the same in a scan, as far as their own memory shows. -/
theorem replacedBy_recording (problem : Problem σ κ) (assignment : Array Nat) (context : κ)
    (frontier : Nat) :
    problem.ReplacedBy problem.recording Recorded.own (fun slot constraint => constraint.recording slot)
      assignment context frontier where
  slots _ := Array.getElem?_mapIdx
  isApplicable _ _ := rfl
  check slot constraint _ memory := by
    rw [Constraint.check_recording]
    cases constraint.check assignment context memory.own <;> rfl

/-- Noting checkers leave the same memory, and note the calls. -/
theorem memoryAfter_recording (memory : Recorded σ) (count : Nat) :
    problem.recording.memoryAfter assignment context frontier memory count =
      { own := problem.memoryAfter assignment context frontier memory.own count
        calls := memory.calls ++ problem.callsBelow assignment frontier count } := by
  induction count with
  | zero => simp [memoryAfter, applicableBelow, callsBelow]
  | succ count ih =>
      rw [memoryAfter_succ, memoryAfter_succ, callsBelow_succ,
        (problem.replacedBy_recording assignment context frontier).applicableAt?, ih]
      cases problem.applicableAt? frontier count with
      | none => simp
      | some constraint => simp [Constraint.memoryAfter_recording]

/-- What a scan with noting checkers comes to: what the scan finds, with its calls added to the
record. -/
theorem scanFrom_recording (calls : Nat) (memory : Recorded σ) :
    problem.recording.scanFrom assignment context frontier 0 calls memory =
      let scan := problem.scanFrom assignment context frontier 0 calls memory.own
      { answer := scan.answer
        calls := scan.calls
        memory :=
          { own := scan.memory
            calls := memory.calls ++ problem.callsBelow assignment frontier
              (problem.reach assignment context frontier memory.own) } } := by
  have hreplaced := problem.replacedBy_recording assignment context frontier
  simp only [scanFrom_eq, asked, hreplaced.firstStop?, hreplaced.reach, memoryAfter_recording,
    hreplaced.length_applicableBelow]

/-! ## Main statement -/

/-- **The consistency scan.**  Slots may be unset, and checkers may remember what they have been
asked.  What decides about a scan is the first slot that is unset, or whose constraint is applicable
and, asked with the memory that the calls before it have left, does not accept.  If there is none, the
scan accepts.  If the constraint rejects, so does the scan, and if it gives up, so does the scan, with
the same fault.  If the slot is unset, the scan is a fault that names it.

Exactly the applicable constraints up to this slot are asked, or all of them if there is none: once
each, in slot order, under the assignment as it is.  A counter that is passed along grows by their
number, and without one the scan answers the same. -/
theorem scan_asks_up_to_firstStop (problem : Problem σ κ) (assignment : Array Nat) (context : κ)
    (frontier counter : Nat) (memory : σ) :
    let first := problem.firstStop? assignment context frontier memory
    let counted := problem.scanFrom assignment context frontier 0 counter memory
    let plain := problem.scan assignment context frontier memory
    let noting := problem.recording.scan assignment context frontier { own := memory }
    counted.answer =
        (match first with
          | none => .ok true
          | some (.rejected _) => .ok false
          | some (.gaveUp _ fault) => .error fault
          | some (.unset slot) => .error (.unsetSlot slot)) ∧
      plain.answer = counted.answer ∧ plain.memory = counted.memory ∧
      noting.answer = counted.answer ∧ noting.memory.own = counted.memory ∧
      ∃ asked : List (Nat × Constraint σ κ),
        (asked.map Prod.fst).Pairwise (· < ·) ∧
        (∀ slot constraint, (slot, constraint) ∈ asked ↔
          problem.slots[slot]? = some (some constraint) ∧
            constraint.isApplicable frontier = true ∧
            ∀ stop, first = some stop → slot ≤ stop.slot) ∧
        noting.memory.calls = asked.map (fun (slot, _) => { slot, buffer := assignment }) ∧
        counted.memory = asked.foldl
          (fun memory (_, constraint) => constraint.memoryAfter assignment context memory) memory ∧
        counted.calls = counter + asked.length ∧ plain.calls = asked.length := by
  intro first counted plain noting
  have hcounted : counted = _ := scanFrom_eq counter
  have hplain : plain = _ := scanFrom_eq 0
  have hnoting : noting = _ := scanFrom_recording 0 { own := memory }
  rw [hnoting, show problem.scanFrom assignment context frontier 0 0 memory = _ from scanFrom_eq 0,
    hcounted, hplain]
  refine ⟨?_, rfl, rfl, rfl, rfl, problem.asked assignment context frontier memory,
    pairwise_applicableBelow _, fun _ _ => mem_asked, List.nil_append _, rfl, rfl, Nat.zero_add _⟩
  show first.elim (.ok true) Stop.answer = _
  cases first with
  | none => rfl
  | some stop => cases stop <;> rfl

end Problem

end ConstraintSearch
