import ConstraintSearch.Proofs.Search.LeastExtension
import ConstraintSearch.Proofs.Search.Tour
import Mathlib.Algebra.GroupWithZero.Nat

/-!
# Tighter problems

A problem is tightened by making domains smaller and by adding constraints.  The searches of the two
problems do not keep in step: the tighter one leaves whole branches out.  But each is determined by
the tuples that are viable, and what is viable for the tighter problem is viable for the other one
(`Tightens.viable`).

So an exhausted search of the looser problem has seen all that the tighter one can try, and does no
less work.  And what completes the given values in the tighter problem completes them in the looser
one too (`Tightens.completes`), so the least solution of this comes no later.

## Strategy

* Exhaustion: the looser problem has no completion of the given values, so neither has the tighter
  one, and this search is exhausted too.
* Counters: an exhausted search has tried every tentative tuple once, and stepped back from every
  viable one but the empty one (`Ready.counts_of_exhausted`).  So its counters are sums and suprema
  over the viable tuples, and they are monotone in the set of these and in the sizes of the domains.
* Solutions: both searches find the least completion, and the one of the tighter problem is among
  those of which the looser one takes the least.
-/

namespace ConstraintSearch

variable {σ κ : Type}

namespace Problem

variable {problem tighter : Problem σ κ} {context : κ} {fixed values : List Nat}

/-- The tighter problem has the same variables, with no larger domains, and all constraints of the
other one. -/
structure Tightens (tighter problem : Problem σ κ) : Prop where
  domains : List.Forall₂ (· ≤ ·) tighter.domains.toList problem.domains.toList
  attached : ∀ constraint, problem.Attached constraint → tighter.Attached constraint

namespace Tightens

theorem size_eq (h : tighter.Tightens problem) : tighter.domains.size = problem.domains.size :=
  h.domains.length_eq

theorem domain_le (h : tighter.Tightens problem) {v size : Nat}
    (hsize : tighter.domains[v]? = some size) :
    ∃ wider, problem.domains[v]? = some wider ∧ size ≤ wider := by
  obtain ⟨hlength, hle⟩ := List.forall₂_iff_get.1 h.domains
  obtain ⟨hv, heq⟩ := Array.getElem?_eq_some_iff.1 hsize
  have hv' : v < problem.domains.size := h.size_eq ▸ hv
  refine ⟨problem.domains[v], Array.getElem?_eq_getElem hv', ?_⟩
  have hlev := hle v hv hv'
  rw [← heq]
  simpa using hlev

theorem getD_le (h : tighter.Tightens problem) (v : Nat) :
    tighter.domains.getD v 0 ≤ problem.domains.getD v 0 := by
  rw [Array.getD_eq_getD_getElem?, Array.getD_eq_getD_getElem?]
  cases hsize : tighter.domains[v]? with
  | none => exact Nat.zero_le _
  | some size =>
      obtain ⟨wider, hwider, hle⟩ := h.domain_le hsize
      rw [hwider]
      exact hle

theorem isLocal (h : tighter.Tightens problem) (hlocal : tighter.Local context) :
    problem.Local context := by
  intro constraint hattached
  obtain ⟨verdict, hverdict⟩ := hlocal constraint (h.attached constraint hattached)
  exact ⟨verdict, fun assignment memory hsize => hverdict assignment memory (hsize.trans h.size_eq.symm)⟩

theorem viable (h : tighter.Tightens problem) (hviable : tighter.Viable context fixed values) :
    problem.Viable context fixed values := by
  rcases hviable with hnil | ⟨hfits, haccepts⟩
  · exact .inl hnil
  · right
    constructor
    · intro i value hvalue
      obtain ⟨size, hsize, hlt⟩ := hfits i value hvalue
      obtain ⟨wider, hwider, hle⟩ := h.domain_le hsize
      exact ⟨wider, hwider, Nat.lt_of_lt_of_le hlt hle⟩
    · intro assignment hsize hbound constraint hattached
      exact haccepts assignment (hsize.trans h.size_eq.symm) hbound constraint
        (h.attached constraint hattached)

private theorem forall₂_lt_of_le {values sizes wider : List Nat}
    (hlt : List.Forall₂ (· < ·) values sizes) (hle : List.Forall₂ (· ≤ ·) sizes wider) :
    List.Forall₂ (· < ·) values wider := by
  induction hlt generalizing wider with
  | nil =>
      cases hle
      exact .nil
  | cons hhead _ ih =>
      cases hle with
      | cons hsize hsizes => exact .cons (Nat.lt_of_lt_of_le hhead hsize) (ih hsizes)

theorem completes (h : tighter.Tightens problem)
    (hcompletes : tighter.Completes context fixed values) :
    problem.Completes context fixed values := by
  obtain ⟨hvalues, haccepts⟩ := hcompletes
  exact ⟨forall₂_lt_of_le hvalues (List.forall₂_drop fixed.length h.domains),
    fun constraint hattached => haccepts constraint (h.attached constraint hattached)⟩

end Tightens

end Problem

namespace Search

variable {search : Search σ κ} {tighter : Problem σ κ} {buffer other : Array Nat}
  {build build' : Build} {library library' : Library}

theorem Unlimited.withProblem (hunlimited : search.Unlimited) (other : Problem σ κ) :
    (search.withProblem other).Unlimited :=
  ⟨hunlimited.nodeLimit, hunlimited.timeLimit, hunlimited.cancelled⟩

/-- Everything that the tighter search does while it is exhausted, the other one does too. -/
theorem counters_le_of_tightens (hready : search.Ready buffer build library)
    (hready' : (search.withProblem tighter).Ready other build' library')
    (h : tighter.Tightens search.problem) (hlocal : tighter.Local search.context)
    (hunlimited : search.Unlimited) (hstart : search.start < search.problem.domains.size)
    (hfixed : buffer.toList.take search.start = other.toList.take search.start) (memory memory' : σ)
    (hending : (search.run buffer memory library.log).ending = .ok .exhausted)
    (hending' : ((search.withProblem tighter).run other memory' library'.log).ending =
      .ok .exhausted) :
    let last := (search.run buffer memory library.log).state
    let last' := ((search.withProblem tighter).run other memory' library'.log).state
    last'.nodes ≤ last.nodes ∧ last'.backtracks ≤ last.backtracks ∧
      last'.maxDepth ≤ last.maxDepth := by
  intro last last'
  obtain ⟨viable, hviable, hnodes, hbacktracks, hdepth⟩ := hready.counts_of_exhausted hunlimited
    (h.isLocal hlocal) hstart memory library.log hending
  obtain ⟨viable', hviable', hnodes', hbacktracks', hdepth'⟩ := hready'.counts_of_exhausted
    (hunlimited.withProblem tighter) hlocal (h.size_eq ▸ hstart) memory' library'.log hending'
  -- The one fact about the two problems that is used: a tuple viable for the tighter one is viable.
  have hsubset : viable' ⊆ viable := by
    intro values hvalues
    have hvalues' := (hviable' values).1 hvalues
    rw [hviable, hfixed]
    exact h.viable hvalues'
  refine ⟨?_, ?_, ?_⟩
  · calc last'.nodes
        = ∑ values ∈ viable', tighter.domains.getD (search.start + values.length) 0 := hnodes'
      _ ≤ ∑ values ∈ viable', search.problem.domains.getD (search.start + values.length) 0 :=
          Finset.sum_le_sum fun values _ => h.getD_le _
      _ ≤ ∑ values ∈ viable, search.problem.domains.getD (search.start + values.length) 0 :=
          Finset.sum_le_sum_of_subset hsubset
      _ = last.nodes := hnodes.symm
  · calc last'.backtracks
        = (viable'.erase []).card := hbacktracks'
      _ ≤ (viable.erase []).card := Finset.card_le_card (Finset.erase_subset_erase [] hsubset)
      _ = last.backtracks := hbacktracks.symm
  · calc last'.maxDepth
        = search.start + viable'.sup List.length := hdepth'
      _ ≤ search.start + viable.sup List.length := Nat.add_le_add_left (Finset.sup_mono hsubset) _
      _ = last.maxDepth := hdepth.symm

/-- **Tightening.**  Let a problem be tightened by smaller domains and more constraints, all with
local checkers, and let both be searched without limits and without a flag from the same start, with
at least one variable to bind and the same values below.  If the search of the problem is exhausted,
so is that of the tighter one, which tries no more values, steps back no more often and comes no
deeper.  And if an assignment is found for the tighter problem, one is found for the other one, which
in the lexicographic order is the same or comes before. -/
theorem perform_tightens (hready : search.Ready buffer build library)
    (hready' : (search.withProblem tighter).Ready other build' library')
    (h : tighter.Tightens search.problem) (hlocal : tighter.Local search.context)
    (hunlimited : search.Unlimited) (hstart : search.start < search.problem.domains.size)
    (hagree : ∀ v < search.start, other[v]? = buffer[v]?) (memory memory' : σ) :
    let report := search.perform buffer memory build library
    let report' := (search.withProblem tighter).perform other memory' build' library'
    ∃ result result', report.outcome = .ok result ∧ report'.outcome = .ok result' ∧
      (result.status = .exhausted → result'.status = .exhausted ∧
        result'.stats.nodes ≤ result.stats.nodes ∧
        result'.stats.backtracks ≤ result.stats.backtracks ∧
        result'.stats.maxDepth ≤ result.stats.maxDepth) ∧
      (result'.status = .solved → result.status = .solved ∧
        report.buffer.toList ≤ report'.buffer.toList) := by
  intro report report'
  have hfixed : buffer.toList.take search.start = other.toList.take search.start :=
    AgreeBelow.take_eq hagree
  have hunlimited' := hunlimited.withProblem tighter
  have hstart' : search.start < tighter.domains.size := h.size_eq ▸ hstart
  -- Each search has a result: solved with the least completion, or exhausted without any.
  obtain ⟨result, hresult, hcases⟩ :=
    hready.solved_or_exhausted hunlimited (h.isLocal hlocal) hstart memory
  obtain ⟨result', hresult', hcases'⟩ :=
    hready'.solved_or_exhausted hunlimited' hlocal hstart' memory'
  refine ⟨result, result', hresult, hresult', ?_, ?_⟩
  · -- Exhausted: were the tighter problem solved, its solution would complete the looser one.
    intro hstatus
    have hnone : ∀ values, ¬search.problem.Completes search.context
        (buffer.toList.take search.start) values := by
      rcases hcases with ⟨hsolved, -⟩ | ⟨-, hnone⟩
      · cases hsolved.symm.trans hstatus
      · exact hnone
    have hstatus' : result'.status = .exhausted := by
      rcases hcases' with ⟨-, values, -, hleast⟩ | ⟨hexhausted, -⟩
      · refine absurd (h.completes hleast.1) ?_
        have hnone' := hnone values
        rw [hfixed] at hnone'
        exact hnone'
      · exact hexhausted
    -- Both searches are exhausted now, so their counters can be compared tuple by tuple.
    obtain ⟨hending, hstats⟩ := hready.ending_of_outcome hresult
    obtain ⟨hending', hstats'⟩ := hready'.ending_of_outcome hresult'
    rw [hstatus] at hending
    rw [hstatus'] at hending'
    rw [hstats, hstats']
    exact ⟨hstatus', counters_le_of_tightens hready hready' h hlocal hunlimited hstart hfixed memory
      memory' hending hending'⟩
  · -- Solved: the solution of the tighter problem completes the looser one, so this is not
    -- exhausted, and the least completion that it finds is no greater.
    intro hsolved'
    obtain ⟨values', hbuffer', hleast'⟩ : ∃ values,
        report'.buffer.toList = other.toList.take search.start ++ values ∧
          IsLeast {values | tighter.Completes search.context (other.toList.take search.start)
            values} values := by
      rcases hcases' with ⟨-, hfound⟩ | ⟨hexhausted, -⟩
      · exact hfound
      · cases hexhausted.symm.trans hsolved'
    have hcompletes : search.problem.Completes search.context (buffer.toList.take search.start)
        values' := by
      rw [hfixed]
      exact h.completes hleast'.1
    rcases hcases with ⟨hsolved, values, hbuffer, hleast⟩ | ⟨-, hnone⟩
    · refine ⟨hsolved, ?_⟩
      calc report.buffer.toList
          = other.toList.take search.start ++ values := by rw [← hfixed, ← hbuffer]
        _ ≤ other.toList.take search.start ++ values' :=
            append_le_append_iff.2 (hleast.2 hcompletes)
        _ = report'.buffer.toList := hbuffer'.symm
    · exact absurd hcompletes (hnone values')

/-- Two variables that add up to some number or more. -/
def summing (least : Nat) : Search Unit Unit where
  problem :=
    { domains := #[3, 3]
      slots := #[
        some { scope := [0, 1], checker := .byValues 0 fun values => least ≤ values.sum }] }
  context := ()

/-- The same, with fewer values for the second variable and unlike the first one. -/
def summingUnlike (least : Nat) : Problem Unit Unit where
  domains := #[3, 2]
  slots := #[
    some { scope := [1, 0], checker := .byValues 1 fun values => values[0]? != values[1]? },
    some { scope := [0, 1], checker := .byValues 0 fun values => least ≤ values.sum }]

/-- For the sum of three, one and two come before two and one, which is found with fewer values.  For
the sum of five there is nothing, and fewer values are tried to see this. -/
theorem perform_tightens_summing :
    let tight (least : Nat) := (summing least).withProblem (summingUnlike least)
    (∀ least, (summing least).Ready #[9, 9] .unchecked {} ∧
        (tight least).Ready #[9, 9] .unchecked {} ∧
        (summingUnlike least).Tightens (summing least).problem ∧
        (summingUnlike least).Local () ∧ (summing least).Unlimited) ∧
      ((tight 3).perform #[9, 9] () .unchecked {}).buffer = #[2, 1] ∧
      ((summing 3).perform #[9, 9] () .unchecked {}).buffer.toList ≤ [2, 1] ∧
      ∃ result, ((tight 5).perform #[9, 9] () .unchecked {}).outcome = .ok result ∧
        result.status = .exhausted ∧ result.stats.nodes ≤ 12 := by
  intro tight
  have hready : ∀ least, (summing least).Ready #[9, 9] .unchecked {} :=
    fun _ => ⟨by decide, rfl, rfl, rfl, Nat.zero_le _⟩
  have hready' : ∀ least, (tight least).Ready #[9, 9] .unchecked {} :=
    fun _ => ⟨by decide, rfl, rfl, rfl, Nat.zero_le _⟩
  have htightens : ∀ least, (summingUnlike least).Tightens (summing least).problem := by
    intro least
    refine ⟨.cons (by decide) (.cons (by decide) .nil), fun constraint hattached => ?_⟩
    simp only [Problem.Attached, summing, List.mem_toArray, List.mem_cons, Option.some.injEq,
      List.not_mem_nil, or_false] at hattached
    simp [Problem.Attached, summingUnlike, hattached]
  have hlocal : ∀ least, (summingUnlike least).Local () := by
    intro least
    apply Problem.local_of_byValues
    intro constraint hattached
    simp only [Problem.Attached, summingUnlike, List.mem_toArray, List.mem_cons, Option.some.injEq,
      List.not_mem_nil, or_false] at hattached
    rcases hattached with rfl | rfl
    · exact ⟨1, fun values => values[0]? != values[1]?, rfl⟩
    · exact ⟨0, fun values => least ≤ values.sum, rfl⟩
  have hunlimited : ∀ least, (summing least).Unlimited := fun _ => ⟨rfl, rfl, fun _ _ => rfl⟩
  have hbuffer : ((tight 3).perform #[9, 9] () .unchecked {}).buffer = #[2, 1] := by decide +kernel
  refine ⟨fun least => ⟨hready least, hready' least, htightens least, hlocal least, hunlimited least⟩,
    hbuffer, ?_, ?_⟩
  · obtain ⟨result, result', -, hresult', -, hfound⟩ := perform_tightens (hready 3) (hready' 3)
      (htightens 3) (hlocal 3) (hunlimited 3) (by decide) (fun _ _ => rfl) () ()
    have hsolved : ((tight 3).perform #[9, 9] () .unchecked {}).outcome.toOption.map (·.status) =
        some .solved := by decide +kernel
    rw [hresult'] at hsolved
    obtain ⟨-, hle⟩ := hfound (Option.some.inj hsolved)
    rw [hbuffer] at hle
    exact hle
  · obtain ⟨result, result', hresult, hresult', hnone, -⟩ := perform_tightens (hready 5) (hready' 5)
      (htightens 5) (hlocal 5) (hunlimited 5) (by decide) (fun _ _ => rfl) () ()
    have hexhausted : ((summing 5).perform #[9, 9] () .unchecked {}).outcome.toOption =
        some ⟨.exhausted, ⟨12, 9, 3, 1, 0⟩⟩ := by decide +kernel
    rw [hresult] at hexhausted
    obtain rfl := Option.some.inj hexhausted
    obtain ⟨hstatus, hnodes, -⟩ := hnone rfl
    exact ⟨result', hresult', hstatus, hnodes⟩

end Search

end ConstraintSearch
