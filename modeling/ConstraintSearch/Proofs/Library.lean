import ConstraintSearch.Build
import ConstraintSearch.Library
import Mathlib.Data.List.Induction
import Mathlib.Data.List.Infix

/-!
# Counting activations

Calls add activations and end them, from a library without any.  A call that finds none to end is
ignored, so the outstanding activations are not those made less those ended: what came before an
ignored call no longer counts.  They are the most by which the activating calls outnumber the
deactivating ones in what was called last, however much of it one looks at (`max_balance_tails`).

The reports of the library becoming active and inactive take turns (`takesTurns_afterFresh`), however
many calls there are in between that change neither or are ignored; every ignored call has a warning
(`warnings_afterCalls`).

## Strategy

* A call changes the number of activations by its weight, but not below zero (`activations_answer`).  So
  after any sequence of calls the number is the greatest balance of its tails, the empty one included:
  what came before it was last zero is forgotten.
* A call begins the first activation, ends the last one, or leaves the library active or inactive as it
  was (`answer_cases`), so the reports take turns.
* Warnings are counted by the answers: a deactivating call that is answered with `false` has one.
-/

namespace ConstraintSearch

/-- A call that adds an activation or ends one. -/
inductive LifecycleCall where
  | activate
  | deactivate
  deriving DecidableEq

namespace LifecycleCall

/-- What a call adds to the balance. -/
def weight : LifecycleCall → Int
  | .activate => 1
  | .deactivate => -1

/-- By how many the activating calls outnumber the deactivating ones. -/
def balance (calls : List LifecycleCall) : Int := calls.count .activate - calls.count .deactivate

theorem balance_concat (calls : List LifecycleCall) (call : LifecycleCall) :
    balance (calls ++ [call]) = balance calls + call.weight := by
  cases call <;> simp [balance, weight] <;> omega

theorem balance_le_count (calls : List LifecycleCall) : balance calls ≤ calls.count .activate := by
  unfold balance
  omega

/-- What a call reports when so many activations are outstanding. -/
def reports : LifecycleCall → Nat → List Message
  | .activate, 0 => [.activated]
  | .activate, _ + 1 => []
  | .deactivate, 0 => [.alreadyInactive]
  | .deactivate, 1 => [.deactivated]
  | .deactivate, _ + 2 => []

end LifecycleCall

namespace Library

open LifecycleCall

variable {library : Library} {calls : List LifecycleCall} {call : LifecycleCall}

/-! ## Single calls -/

/-- The answer to a call and the library after it.  An activating call always succeeds. -/
def answer (library : Library) : LifecycleCall → Bool × Library
  | .activate => (true, library.activate)
  | .deactivate => library.deactivate

/-- A call moves the activations by its weight, but not below zero. -/
theorem activations_answer (library : Library) (call : LifecycleCall) :
    ((library.answer call).2.activations : Int) = max 0 (library.activations + call.weight) := by
  cases call with
  | activate =>
      simp only [answer, activate_activations, weight]
      omega
  | deactivate =>
      simp only [answer, deactivate_activations, weight]
      omega

theorem log_answer (library : Library) (call : LifecycleCall) :
    (library.answer call).2.log.toList =
      library.log.toList ++ call.reports library.activations := by
  obtain ⟨activations, log⟩ := library
  cases call with
  | activate =>
      cases activations with
      | zero => exact Array.toList_push
      | succ n => exact (List.append_nil _).symm
  | deactivate =>
      match activations with
      | 0 => exact Array.toList_push
      | 1 => exact Array.toList_push
      | n + 2 => exact (List.append_nil _).symm

/-! ## Reports -/

/-- The reports of the library becoming active and inactive. -/
def transitions (library : Library) : List Message :=
  library.log.toList.filter (· ∈ [.activated, .deactivated])

/-- The number of warnings. -/
def warnings (library : Library) : Nat := library.log.toList.countP (·.level = .warn)

/-- The report whose turn it is after so many others. -/
def turn (count : Nat) : Message := if count % 2 = 0 then .activated else .deactivated

/-- So far the reports have taken turns, and the next one is of the other kind than the last change. -/
def TakesTurns (library : Library) : Prop :=
  ∃ count, library.transitions = (List.range count).map turn ∧
    (0 < library.activations ↔ count % 2 = 1)

/-- A call begins the first activation, ends the last one, or leaves the library active or inactive as
it was; only a change is among the reports. -/
theorem answer_cases (library : Library) (call : LifecycleCall) :
    (library.activations = 0 ∧ (library.answer call).2.activations = 1 ∧
        (library.answer call).2.transitions = library.transitions ++ [.activated]) ∨
      (library.activations = 1 ∧ (library.answer call).2.activations = 0 ∧
        (library.answer call).2.transitions = library.transitions ++ [.deactivated]) ∨
      ((0 < (library.answer call).2.activations ↔ 0 < library.activations) ∧
        (library.answer call).2.transitions = library.transitions) := by
  have hactivations := activations_answer library call
  have htransitions : (library.answer call).2.transitions = library.transitions ++
      (call.reports library.activations).filter (· ∈ [.activated, .deactivated]) := by
    rw [transitions, log_answer, List.filter_append]
    rfl
  cases call with
  | activate =>
      rw [weight] at hactivations
      match hcount : library.activations with
      | 0 =>
          rw [hcount] at htransitions
          exact .inl ⟨rfl, by omega, htransitions⟩
      | n + 1 =>
          rw [hcount] at htransitions
          exact .inr (.inr ⟨by omega, htransitions.trans (List.append_nil _)⟩)
  | deactivate =>
      rw [weight] at hactivations
      match hcount : library.activations with
      | 0 =>
          rw [hcount] at htransitions
          exact .inr (.inr ⟨by omega, htransitions.trans (List.append_nil _)⟩)
      | 1 =>
          rw [hcount] at htransitions
          exact .inr (.inl ⟨rfl, by omega, htransitions⟩)
      | n + 2 =>
          rw [hcount] at htransitions
          exact .inr (.inr ⟨by omega, htransitions.trans (List.append_nil _)⟩)

theorem takesTurns_answer (h : library.TakesTurns) (call : LifecycleCall) :
    (library.answer call).2.TakesTurns := by
  obtain ⟨count, hreports, hactive⟩ := h
  rcases answer_cases library call with ⟨hnone, hone, htransitions⟩ | ⟨hone, hnone, htransitions⟩ |
    ⟨hsame, htransitions⟩
  · have hturn : turn count = .activated := if_pos (by omega)
    refine ⟨count + 1, ?_, by omega⟩
    rw [htransitions, hreports, ← hturn, List.range_succ, List.map_append, List.map_singleton]
  · have hturn : turn count = .deactivated := if_neg (by omega)
    refine ⟨count + 1, ?_, by omega⟩
    rw [htransitions, hreports, ← hturn, List.range_succ, List.map_append, List.map_singleton]
  · exact ⟨count, htransitions.trans hreports, hsame.trans hactive⟩

theorem TakesTurns.eq_turn (h : library.TakesTurns) {i : Nat} {message : Message}
    (hmessage : library.transitions[i]? = some message) : message = turn i := by
  obtain ⟨count, htransitions, -⟩ := h
  rw [htransitions, List.getElem?_map, Option.map_eq_some_iff] at hmessage
  obtain ⟨place, hplace, rfl⟩ := hmessage
  obtain ⟨hlt, hvalue⟩ := List.getElem?_eq_some_iff.1 hplace
  rw [← hvalue, List.getElem_range]

theorem TakesTurns.getLast?_eq_activated_iff (h : library.TakesTurns) :
    library.transitions.getLast? = some .activated ↔ library.isActive = true := by
  obtain ⟨count, htransitions, hactive⟩ := h
  rw [isActive, decide_eq_true_iff, hactive, htransitions]
  cases count with
  | zero => exact iff_of_false nofun (by decide)
  | succ count =>
      rw [List.range_succ, List.map_append, List.map_singleton, List.getLast?_concat,
        Option.some.injEq, turn]
      split_ifs with heven
      · exact iff_of_true rfl (by omega)
      · exact iff_of_false nofun (by omega)

theorem warnings_answer (library : Library) (call : LifecycleCall) :
    (library.answer call).2.warnings =
      library.warnings + if (call, (library.answer call).1) = (.deactivate, false) then 1 else 0 := by
  have hreported : (library.answer call).2.warnings =
      library.warnings + (call.reports library.activations).countP (·.level = .warn) := by
    rw [warnings, log_answer, List.countP_append]
    rfl
  rw [hreported]
  cases call with
  | activate => cases library.activations <;> rfl
  | deactivate =>
      rw [answer, deactivate_ended, isActive]
      match library.activations with
      | 0 | 1 | n + 2 => simp [reports, Message.level]

/-! ## Sequences of calls -/

/-- The calls with their answers, in order. -/
def answers : Library → List LifecycleCall → List (LifecycleCall × Bool)
  | _, [] => []
  | library, call :: calls =>
      (call, (library.answer call).1) :: answers (library.answer call).2 calls

/-- The library after some calls. -/
def afterCalls (library : Library) (calls : List LifecycleCall) : Library :=
  calls.foldl (fun library call => (library.answer call).2) library

theorem afterCalls_concat (library : Library) (calls : List LifecycleCall) (call : LifecycleCall) :
    library.afterCalls (calls ++ [call]) = ((library.afterCalls calls).answer call).2 :=
  List.foldl_concat _ _ _ _

theorem warnings_afterCalls (library : Library) (calls : List LifecycleCall) :
    (library.afterCalls calls).warnings =
      library.warnings + (library.answers calls).count (.deactivate, false) := by
  induction calls generalizing library with
  | nil => rfl
  | cons call calls ih =>
      have hrest : (library.afterCalls (call :: calls)).warnings = _ := ih (library.answer call).2
      rw [hrest, warnings_answer, answers, List.count_cons, Nat.add_assoc]
      simp only [beq_iff_eq, Nat.add_comm]

/-! ## From a library without activations -/

/-- The library after some calls, the first of which finds no activation. -/
def afterFresh (calls : List LifecycleCall) : Library := ({} : Library).afterCalls calls

theorem takesTurns_afterFresh (calls : List LifecycleCall) : (afterFresh calls).TakesTurns := by
  induction calls using List.reverseRecOn with
  | nil => exact ⟨0, rfl, by decide⟩
  | append_singleton calls call ih =>
      rw [afterFresh, afterCalls_concat]
      exact takesTurns_answer ih call

theorem activations_afterFresh_concat (calls : List LifecycleCall) (call : LifecycleCall) :
    ((afterFresh (calls ++ [call])).activations : Int) =
      max 0 ((afterFresh calls).activations + call.weight) := by
  rw [afterFresh, afterCalls_concat]
  exact activations_answer _ call

/-- What was called last never outweighs the activations. -/
theorem balance_le_activations {recent : List LifecycleCall} (hrecent : recent <:+ calls) :
    balance recent ≤ (afterFresh calls).activations := by
  induction calls using List.reverseRecOn generalizing recent with
  | nil =>
      rw [List.suffix_nil.1 hrecent]
      exact Int.le_refl 0
  | append_singleton calls call ih =>
      have hstep := activations_afterFresh_concat calls call
      rcases List.suffix_concat_iff.1 hrecent with rfl | ⟨earlier, rfl, hearlier⟩
      · exact Int.natCast_nonneg _
      · have hbefore := ih hearlier
        rw [balance_concat]
        omega

/-- Some of what was called last outweighs the activations no less: what was called since they were
last zero. -/
theorem exists_balance_eq_activations (calls : List LifecycleCall) :
    ∃ recent, recent <:+ calls ∧ balance recent = (afterFresh calls).activations := by
  induction calls using List.reverseRecOn with
  | nil => exact ⟨[], List.suffix_refl _, rfl⟩
  | append_singleton calls call ih =>
      obtain ⟨recent, hrecent, hbalance⟩ := ih
      have hstep := activations_afterFresh_concat calls call
      -- If the last call was ignored, the account begins anew behind it.
      by_cases hended : (afterFresh calls).activations + call.weight < 0
      · refine ⟨[], List.nil_suffix, ?_⟩
        show (0 : Int) = _
        omega
      · refine ⟨recent ++ [call], List.suffix_concat_iff.2 (.inr ⟨recent, rfl, hrecent⟩), ?_⟩
        rw [balance_concat]
        omega

theorem max_balance_tails (calls : List LifecycleCall) :
    (calls.tails.map balance).max? = some ((afterFresh calls).activations : Int) := by
  rw [List.max?_eq_some_iff]
  constructor
  · obtain ⟨recent, hrecent, hbalance⟩ := exists_balance_eq_activations calls
    exact List.mem_map.2 ⟨recent, (List.mem_tails recent calls).2 hrecent, hbalance⟩
  · intro other hother
    obtain ⟨recent, hrecent, rfl⟩ := List.mem_map.1 hother
    exact balance_le_activations ((List.mem_tails recent calls).1 hrecent)

theorem activations_afterFresh_le (calls : List LifecycleCall) :
    (afterFresh calls).activations ≤ calls.count .activate := by
  obtain ⟨recent, hrecent, hbalance⟩ := exists_balance_eq_activations calls
  have hcount := hrecent.sublist.count_le .activate
  have hle := balance_le_count recent
  omega

/-- **Activations are counted and reported.**  Let fewer calls add activations than there are words.

The activations afterwards are the greatest balance of what was called last, nothing at all included,
and at all times they are a word.  A deactivating call succeeds exactly when it finds an activation,
and there is none afterwards if there was none before.  The reports of the library becoming active and
inactive take turns, beginning with the former, and the last one is the former exactly when the library
is active.  There are as many warnings as deactivating calls that did not succeed. -/
theorem calls_counted_and_reported (hfew : calls.count .activate < wordCount) :
    (calls.tails.map balance).max? = some ((afterFresh calls).activations : Int) ∧
    (∀ earlier, earlier <+: calls → (afterFresh earlier).activations < wordCount) ∧
    (∀ earlier, earlier ++ [.deactivate] <+: calls →
      (((afterFresh earlier).answer .deactivate).1 = true ↔ 0 < (afterFresh earlier).activations) ∧
      ((afterFresh earlier).activations = 0 →
        (afterFresh (earlier ++ [.deactivate])).activations = 0)) ∧
    (∀ i message, (afterFresh calls).transitions[i]? = some message →
      message = if i % 2 = 0 then .activated else .deactivated) ∧
    ((afterFresh calls).transitions.getLast? = some .activated ↔ (afterFresh calls).isActive = true) ∧
    (afterFresh calls).warnings = (answers {} calls).count (.deactivate, false) := by
  have hturns := takesTurns_afterFresh calls
  refine ⟨max_balance_tails calls, fun earlier hearlier => ?_, fun earlier _ => ⟨?_, fun hnone => ?_⟩,
    fun i message => hturns.eq_turn, hturns.getLast?_eq_activated_iff, ?_⟩
  · -- The activations are at most the activating calls, of which there are few.
    have hcount := hearlier.sublist.count_le .activate
    have hle := activations_afterFresh_le earlier
    omega
  · rw [answer, deactivate_ended, isActive, decide_eq_true_iff]
  · have hstep := activations_afterFresh_concat earlier .deactivate
    rw [hnone, weight] at hstep
    omega
  · rw [afterFresh, warnings_afterCalls]
    exact Nat.zero_add _

/-- One call is ignored at the start, and another one after the first activation was ended.  The three
calls since then leave an activation, although fewer calls were to add one than to end one. -/
theorem calls_counted_and_reported_ignored :
    let calls : List LifecycleCall :=
      [.deactivate, .activate, .deactivate, .deactivate, .activate, .activate, .deactivate]
    calls.count .activate < wordCount ∧ balance calls = -1 ∧
      (calls.tails.map balance).max? = some 1 ∧ (afterFresh calls).activations = 1 ∧
      (afterFresh calls).transitions.getLast? = some .activated ∧ (afterFresh calls).warnings = 2 := by
  intro calls
  have hfew : calls.count .activate < wordCount := by decide
  obtain ⟨hmax, -, -, -, hlast, hwarnings⟩ := calls_counted_and_reported hfew
  have hone : (afterFresh calls).activations = 1 := by decide
  refine ⟨hfew, by decide, ?_, hone, ?_, ?_⟩
  · rw [hmax, hone]
    rfl
  · exact hlast.2 (by decide)
  · rw [hwarnings]
    decide

end Library

end ConstraintSearch
