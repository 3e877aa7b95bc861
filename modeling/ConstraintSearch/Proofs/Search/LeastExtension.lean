import ConstraintSearch.Proofs.Problem.Local
import ConstraintSearch.Proofs.Search.Applicable
import Mathlib.Data.List.Forall2
import Mathlib.Data.List.Lex
import Mathlib.Order.Bounds.Defs

/-!
# The first solution

With local checkers and without limits, a search decides whether the values that the buffer holds
below the start have an extension that every constraint accepts, and it finds the least one in the
lexicographic order (`perform_leastExtension`).

The proof follows the recursion.  While `fixed` is bound, the exploration of the other variables
finds the least way to go on from it, or there is none (`Finds`).  A value that the test rejects
has no way to go on, since the rejected constraint does not look at the variables behind.

## Strategy

* `completionsFrom value` are the completions that begin with `value` or more.  To reject `value` is
  to go on to `completionsFrom (value + 1)`; once `value` is the size of the domain there are none.
* One value: if the test accepts it, its completions are those of `fixed ++ [value]`, and what is found
  behind it is the least of them (`finds_tryValue`).
* One variable: by induction on the number of values that are left (`finds_anyM`).
* All variables: by induction on the domains that are left (`finds_explore`).

The recursion is the search by `Ready.perform_of_outcome`.
-/

namespace ConstraintSearch

variable {σ κ : Type}

/-- The values are below the sizes of the domains behind the fixed ones, and together with these
every constraint accepts them. -/
def Problem.Completes (problem : Problem σ κ) (context : κ) (fixed values : List Nat) : Prop :=
  List.Forall₂ (· < ·) values (problem.domains.toList.drop fixed.length) ∧
    problem.Accepts context (fixed ++ values).toArray

namespace Problem

variable {problem : Problem σ κ} {context : κ} {fixed : List Nat} {size : Nat} {sizes : List Nat}

/-- The ways to complete the fixed values whose first value is not below the given one. -/
def completionsFrom (problem : Problem σ κ) (context : κ) (fixed : List Nat) (value : Nat) :
    Set (List Nat) :=
  {values | problem.Completes context fixed values ∧ value ≤ values.headD 0}

theorem completionsFrom_zero :
    problem.completionsFrom context fixed 0 = {values | problem.Completes context fixed values} := by
  ext values
  simp [completionsFrom]

theorem completes_cons_iff (hsizes : problem.domains.toList.drop fixed.length = size :: sizes)
    {first : Nat} {rest : List Nat} :
    problem.Completes context fixed (first :: rest) ↔
      first < size ∧ problem.Completes context (fixed ++ [first]) rest := by
  have hbehind : problem.domains.toList.drop (fixed ++ [first]).length = sizes := by
    rw [List.length_append, ← List.drop_drop, hsizes]
    rfl
  unfold Completes
  rw [hsizes, hbehind, List.forall₂_cons, List.append_assoc, List.singleton_append, and_assoc]

theorem not_completes_nil (hsizes : problem.domains.toList.drop fixed.length = size :: sizes) :
    ¬problem.Completes context fixed [] := by
  rintro ⟨hvalues, -⟩
  rw [hsizes] at hvalues
  cases hvalues

theorem completionsFrom_size (hsizes : problem.domains.toList.drop fixed.length = size :: sizes)
    (values : List Nat) : values ∉ problem.completionsFrom context fixed size := by
  rintro ⟨hcompletes, hle⟩
  cases values with
  | nil => exact not_completes_nil hsizes hcompletes
  | cons first rest =>
      have hlt := ((completes_cons_iff hsizes).1 hcompletes).1
      exact absurd hle (Nat.not_le.2 hlt)

/-- The first value counts for more than all the others. -/
theorem isLeast_completionsFrom
    (hsizes : problem.domains.toList.drop fixed.length = size :: sizes) {value : Nat}
    (hlt : value < size) {rest : List Nat}
    (hleast : IsLeast {rest | problem.Completes context (fixed ++ [value]) rest} rest) :
    IsLeast (problem.completionsFrom context fixed value) (value :: rest) := by
  refine ⟨⟨(completes_cons_iff hsizes).2 ⟨hlt, hleast.1⟩, Nat.le_refl value⟩, ?_⟩
  rintro values ⟨hcompletes, hle⟩
  cases values with
  | nil => exact absurd hcompletes (not_completes_nil hsizes)
  | cons first other =>
      have hother := ((completes_cons_iff hsizes).1 hcompletes).2
      rcases Nat.lt_or_eq_of_le hle with hless | rfl
      · exact le_of_lt (List.Lex.rel hless)
      · exact List.cons_le_cons value (hleast.2 hother)

/-- A value that nothing completes can be passed over. -/
theorem completionsFrom_succ
    (hsizes : problem.domains.toList.drop fixed.length = size :: sizes) {value : Nat}
    (hnone : ∀ rest, ¬problem.Completes context (fixed ++ [value]) rest) :
    problem.completionsFrom context fixed (value + 1) =
      problem.completionsFrom context fixed value := by
  ext values
  refine and_congr_right fun hcompletes => ⟨Nat.le_of_succ_le, fun hle => ?_⟩
  cases values with
  | nil => exact absurd hcompletes (not_completes_nil hsizes)
  | cons first rest =>
      rcases Nat.lt_or_eq_of_le hle with hless | rfl
      · exact hless
      · exact absurd ((completes_cons_iff hsizes).1 hcompletes).2 (hnone rest)

end Problem

/-- The exploration succeeds with the least of the values that are asked for, written behind the
fixed ones, or there are none. -/
def Finds (asked : Set (List Nat)) (fixed : List Nat) (size : Nat) :
    EStateM.Result Fault (Trail σ) Bool → Prop
  | .ok true last => ∃ values, last.buffer.toList = fixed ++ values ∧ IsLeast asked values
  | .ok false last => (∀ values, values ∉ asked) ∧ last.buffer.size = size ∧ fixed <+: last.buffer.toList
  | .error _ _ => False

namespace Exploration

/-- Local checkers tell whether all of them accept. -/
theorem allM_test_of_local {problem : Problem σ κ} {context : κ} (hlocal : problem.Local context)
    {entries : List (Nat × Constraint σ κ)}
    (hattached : ∀ entry ∈ entries, problem.Attached entry.2) (trail : Trail σ)
    (hsize : trail.buffer.size = problem.domains.size) :
    ∃ accepted checks memory,
      (entries.allM fun entry => test context entry.2) trail =
          .ok accepted { trail with checks, memory } ∧
        (accepted = true ↔ ∀ entry ∈ entries, entry.2.Accepts context trail.buffer) := by
  induction entries generalizing trail with
  | nil => exact ⟨true, trail.checks, trail.memory, rfl, by simp⟩
  | cons entry entries ih =>
      obtain ⟨accepted, after, hcheck, haccepted⟩ :=
        hlocal.check (hattached entry List.mem_cons_self) hsize trail.memory
      have htest : test context entry.2 trail =
          .ok accepted { trail with checks := trail.checks + 1, memory := after } := by
        unfold test
        rw [hcheck]
      rw [allM_cons_apply, htest]
      cases accepted with
      | false =>
          refine ⟨false, _, _, rfl, ?_⟩
          simp only [Bool.false_eq_true, false_iff] at haccepted ⊢
          intro hall
          exact haccepted (hall entry List.mem_cons_self)
      | true =>
          have hrest := fun other hother => hattached other (List.mem_cons_of_mem entry hother)
          obtain ⟨accepted, checks, memory, hresult, hiff⟩ :=
            ih hrest { trail with checks := trail.checks + 1, memory := after } hsize
          refine ⟨accepted, checks, memory, hresult, ?_⟩
          rw [hiff, List.forall_mem_cons]
          simp [haccepted.1 rfl]

end Exploration

namespace Search

variable {search : Search σ κ} {fixed : List Nat} {trail : Trail σ}

/-- With local checkers, the test tells whether the assignment is accepted up to the frontier. -/
theorem judge_of_local (hvalid : search.problem.flaw? = none)
    (hlocal : search.problem.Local search.context) (frontier : Nat) (trail : Trail σ)
    (hsize : trail.buffer.size = search.problem.domains.size) :
    ∃ accepted checks memory,
      search.machine.judge frontier trail = .ok accepted { trail with checks, memory } ∧
        (accepted = true ↔
          search.problem.AcceptsUpTo search.context frontier trail.buffer) := by
  have hattached : ∀ entry ∈ search.problem.applicable frontier,
      search.problem.Attached entry.2 := by
    intro entry hentry
    exact Problem.attached_of_getElem? (Problem.mem_applicable.1 hentry).1
  rw [judge_eq hvalid]
  obtain ⟨accepted, checks, memory, hresult, hiff⟩ :=
    Exploration.allM_test_of_local hlocal hattached trail hsize
  refine ⟨accepted, checks, memory, hresult, hiff.trans ⟨?_, ?_⟩⟩
  · intro hall constraint hconstraint happlicable
    obtain ⟨slot, hslot⟩ := Array.getElem?_of_mem hconstraint
    exact hall (slot, constraint) (Problem.mem_applicable.2 ⟨hslot, happlicable⟩)
  · rintro haccepts ⟨slot, constraint⟩ hentry
    obtain ⟨hslot, happlicable⟩ := Problem.mem_applicable.1 hentry
    exact haccepts constraint (Problem.attached_of_getElem? hslot) happlicable

/-- The buffer begins with the fixed values, and after an assignment also with the new one. -/
private theorem common_set (hfixed : fixed <+: trail.buffer.toList)
    (hlt : fixed.length < trail.buffer.size) (value : Nat) :
    fixed ++ [value] <+: (trail.buffer.setIfInBounds fixed.length value).toList := by
  obtain ⟨rest, hrest⟩ := hfixed
  rw [Array.toList_setIfInBounds, ← hrest, List.set_append_right _ _ (Nat.le_refl _), Nat.sub_self]
  cases rest with
  | nil =>
      have hlength : fixed.length = trail.buffer.size := by
        rw [← Array.length_toList, ← hrest, List.append_nil]
      omega
  | cons old rest => exact ⟨rest, by simp⟩

/-- A rejected value has nothing behind it that completes it. -/
private theorem not_completes_of_rejected {problem : Problem σ κ} {context : κ}
    (hlocal : problem.Local context) {assignment : Array Nat}
    (hsize : assignment.size = problem.domains.size) (hfixed : fixed <+: assignment.toList)
    (hrejected : ¬problem.AcceptsUpTo context fixed.length assignment) (values : List Nat) :
    ¬problem.Completes context fixed values := by
  rintro ⟨hvalues, haccepts⟩
  apply hrejected
  refine (haccepts.upTo fixed.length).of_common hlocal ?_ hfixed ?_ hsize
  · exact ⟨values, rfl⟩
  · have hlength := hvalues.length_eq
    have hle := hfixed.length_le
    simp only [List.length_drop, Array.length_toList] at hlength hle
    simp only [List.size_toArray, List.length_append]
    omega

/-! ## One variable -/

/-- A value is followed by the least way to go on from it. -/
private theorem finds_tryValue (hvalid : search.problem.flaw? = none)
    (hlocal : search.problem.Local search.context) {behind : Exploration σ Bool} {value : Nat}
    (hbehind : ∀ trail : Trail σ, trail.buffer.size = search.problem.domains.size →
      fixed ++ [value] <+: trail.buffer.toList →
      search.problem.AcceptsUpTo search.context (fixed ++ [value]).length trail.buffer →
      Finds {rest | search.problem.Completes search.context (fixed ++ [value]) rest}
        (fixed ++ [value]) search.problem.domains.size (behind trail))
    (hsize : trail.buffer.size = search.problem.domains.size)
    (hfixed : fixed <+: trail.buffer.toList)
    (hlt : fixed.length < search.problem.domains.size) :
    Finds {rest | search.problem.Completes search.context (fixed ++ [value]) rest}
      (fixed ++ [value]) search.problem.domains.size
      (Exploration.tryValue search.machine.judge behind fixed.length value trail) := by
  have hcommon := common_set hfixed (hsize ▸ hlt) value
  have hsize' : (trail.buffer.setIfInBounds fixed.length value).size =
      search.problem.domains.size := by simpa using hsize
  have hlength : (fixed ++ [value]).length = fixed.length + 1 := by simp
  obtain ⟨accepted, checks, memory, hjudge, haccepted⟩ :=
    judge_of_local hvalid hlocal (fixed.length + 1)
      { trail with
        buffer := trail.buffer.setIfInBounds fixed.length value, nodes := trail.nodes + 1 } hsize'
  rw [Exploration.tryValue_apply, hjudge]
  rw [← hlength] at haccepted
  cases accepted with
  | false =>
      refine ⟨?_, hsize', hcommon⟩
      intro rest
      apply not_completes_of_rejected hlocal hsize' hcommon
      intro haccepts
      cases haccepted.2 haccepts
  | true =>
      have hfinds := hbehind
        { trail with
          buffer := trail.buffer.setIfInBounds fixed.length value
          nodes := trail.nodes + 1
          checks
          memory
          maxDepth := max trail.maxDepth (fixed.length + 1) } hsize' hcommon (haccepted.1 rfl)
      simp only
      cases hresult : behind _ with
      | error fault last =>
          rw [hresult] at hfinds
          exact hfinds
      | ok found last =>
          rw [hresult] at hfinds
          cases found with
          | true => exact hfinds
          | false => exact hfinds

/-- The candidates of one variable, from `value` on. -/
private theorem finds_anyM (hvalid : search.problem.flaw? = none)
    (hlocal : search.problem.Local search.context) {behind : Exploration σ Bool} {size : Nat}
    {sizes : List Nat} (hsizes : search.problem.domains.toList.drop fixed.length = size :: sizes)
    (hbehind : ∀ (value : Nat) (trail : Trail σ),
      trail.buffer.size = search.problem.domains.size →
      fixed ++ [value] <+: trail.buffer.toList →
      search.problem.AcceptsUpTo search.context (fixed ++ [value]).length trail.buffer →
      Finds {rest | search.problem.Completes search.context (fixed ++ [value]) rest}
        (fixed ++ [value]) search.problem.domains.size (behind trail)) :
    ∀ (count value : Nat) (trail : Trail σ), value + count = size →
      trail.buffer.size = search.problem.domains.size → fixed <+: trail.buffer.toList →
      Finds (search.problem.completionsFrom search.context fixed value) fixed
        search.problem.domains.size
        ((List.range' value count).anyM
          (Exploration.tryValue search.machine.judge behind fixed.length) trail) := by
  have hlt : fixed.length < search.problem.domains.size := by
    have hlength := congrArg List.length hsizes
    simp only [List.length_drop, Array.length_toList, List.length_cons] at hlength
    omega
  -- The induction is on the number of values that are left.
  intro count
  induction count with
  | zero =>
      intro value trail hcount hsize hfixed
      obtain rfl : value = size := hcount
      exact ⟨Problem.completionsFrom_size hsizes, hsize, hfixed⟩
  | succ count ih =>
      intro value trail hcount hsize hfixed
      have htry := finds_tryValue hvalid hlocal (hbehind value) hsize hfixed hlt
      rw [List.range'_succ, Exploration.anyM_cons_apply]
      cases hresult : Exploration.tryValue search.machine.judge behind fixed.length value trail with
      | error fault last =>
          rw [hresult] at htry
          exact htry
      | ok found last =>
          rw [hresult] at htry
          cases found with
          | true =>
              obtain ⟨rest, hbuffer, hleast⟩ := htry
              refine ⟨value :: rest, ?_, Problem.isLeast_completionsFrom hsizes (by omega) hleast⟩
              rw [hbuffer, List.append_assoc, List.singleton_append]
          | false =>
              obtain ⟨hnone, hsize', hcommon⟩ := htry
              have hnext := ih (value + 1) last (by omega) hsize'
                ((List.prefix_append fixed [value]).trans hcommon)
              rw [Problem.completionsFrom_succ hsizes hnone] at hnext
              exact hnext

/-! ## All variables -/

/-- While the fixed values are bound and accepted, the exploration of the other variables finds the
least way to go on. -/
theorem finds_explore (hvalid : search.problem.flaw? = none)
    (hlocal : search.problem.Local search.context) :
    ∀ (sizes fixed : List Nat) (trail : Trail σ),
      search.problem.domains.toList.drop fixed.length = sizes →
      fixed.length ≤ search.problem.domains.size →
      trail.buffer.size = search.problem.domains.size → fixed <+: trail.buffer.toList →
      (sizes = [] → search.problem.AcceptsUpTo search.context fixed.length trail.buffer) →
      Finds {values | search.problem.Completes search.context fixed values} fixed
        search.problem.domains.size
        (Exploration.explore search.machine.judge sizes fixed.length trail) := by
  intro sizes
  -- On the variables that are left.  The values of the first of them are gone through in ascending
  -- order (`finds_anyM`), and behind each the induction hypothesis applies.
  induction sizes with
  | nil =>
      intro fixed trail hsizes hle hsize hfixed haccepts
      have hlength : fixed.length = search.problem.domains.size := by
        have hge := List.drop_eq_nil_iff.1 hsizes
        rw [Array.length_toList] at hge
        omega
      have hbuffer : trail.buffer.toList = fixed :=
        (hfixed.eq_of_length (hlength.trans (Array.length_toList.trans hsize).symm)).symm
      refine ⟨[], hbuffer.trans (List.append_nil fixed).symm, ⟨?_, ?_⟩, ?_⟩
      · rw [hsizes]
        exact .nil
      · rw [List.append_nil, ← hbuffer, Array.toArray_toList]
        exact (hlength ▸ haccepts rfl).accepts hvalid
      · rintro values ⟨hvalues, -⟩
        rw [hsizes, List.forall₂_nil_right_iff] at hvalues
        exact le_of_eq hvalues.symm
  | cons size sizes ih =>
      intro fixed trail hsizes hle hsize hfixed _
      rw [Exploration.explore, List.range_eq_range']
      rw [← Problem.completionsFrom_zero]
      refine finds_anyM hvalid hlocal hsizes ?_ size 0 trail (Nat.zero_add size) hsize hfixed
      intro value trail hsize hcommon haccepts
      have hlength : (fixed ++ [value]).length = fixed.length + 1 := by simp
      have hbehind := ih (fixed ++ [value]) trail ?_ ?_ hsize hcommon fun _ => haccepts
      · rw [hlength] at hbehind
        exact hbehind
      · rw [hlength, ← List.drop_drop, hsizes]
        rfl
      · exact Nat.le_trans hcommon.length_le (Nat.le_of_eq (Array.length_toList.trans hsize))

/-- A search of all variables behind the start finds the least values that complete the ones below,
or there are none. -/
theorem Ready.solved_or_exhausted {buffer : Array Nat} {build : Build} {library : Library}
    (hready : search.Ready buffer build library) (hunlimited : search.Unlimited)
    (hlocal : search.problem.Local search.context)
    (hstart : search.start < search.problem.domains.size) (memory : σ) :
    let fixed := buffer.toList.take search.start
    let report := search.perform buffer memory build library
    ∃ result, report.outcome = .ok result ∧
      (result.status = .solved ∧ (∃ values, report.buffer.toList = fixed ++ values ∧
          IsLeast {values | search.problem.Completes search.context fixed values} values) ∨
        result.status = .exhausted ∧
          ∀ values, ¬search.problem.Completes search.context fixed values) := by
  intro fixed report
  have hlength : fixed.length = search.start := by
    rw [List.length_take, Array.length_toList, hready.length]
    exact Nat.min_eq_left hready.start_le
  -- Something is left to bind, so nothing has to be known of the constraints on the given values:
  -- they are asked with the first variable.
  have hfinds := finds_explore hready.problem hlocal _ fixed (search.firstTrail buffer memory) rfl
    (hlength ▸ hready.start_le) hready.length (List.take_prefix search.start buffer.toList) (by
      rw [hlength]
      intro hnil
      have hge := List.drop_eq_nil_iff.1 hnil
      rw [Array.length_toList] at hge
      exact absurd hstart (Nat.not_lt.2 hge))
  have hrun := hready.outcome_run hunlimited memory library.log
  obtain ⟨houtcome, hbuffer, -⟩ := hready.perform_of_outcome hrun
  rw [hlength] at hfinds
  cases hresult : Exploration.explore search.machine.judge
      (search.problem.domains.toList.drop search.start) search.start
      (search.firstTrail buffer memory) with
  | error fault last =>
      rw [hresult] at hfinds
      exact hfinds.elim
  | ok found last =>
      rw [hresult] at hfinds houtcome hbuffer
      cases found with
      | true =>
          obtain ⟨values, hlast, hleast⟩ := hfinds
          have hvalues : report.buffer.toList = fixed ++ values :=
            (congrArg Array.toList hbuffer).trans hlast
          exact ⟨_, houtcome, .inl ⟨rfl, values, hvalues, hleast⟩⟩
      | false => exact ⟨_, houtcome, .inr ⟨rfl, hfinds.1⟩⟩

/-- **The first solution.**  Let all checkers be local, and let the search have no limits, no flag
and at least one variable to bind.  Then it is solved exactly if the values below the start can be
completed so that every constraint accepts, and otherwise it is exhausted.  If it is solved, the
buffer holds the same values below the start, and behind them the lexicographically least ones that
complete them. -/
theorem perform_leastExtension (search : Search σ κ) (buffer : Array Nat) (memory : σ)
    (build : Build) (library : Library) (hready : search.Ready buffer build library)
    (hunlimited : search.Unlimited) (hlocal : search.problem.Local search.context)
    (hstart : search.start < search.problem.domains.size) :
    let fixed := buffer.toList.take search.start
    let report := search.perform buffer memory build library
    ∃ result, report.outcome = .ok result ∧
      (result.status = .solved ↔
        ∃ values, search.problem.Completes search.context fixed values) ∧
      (result.status = .solved → ∃ values, report.buffer.toList = fixed ++ values ∧
        IsLeast {values | search.problem.Completes search.context fixed values} values) ∧
      (result.status = .solved ∨ result.status = .exhausted) := by
  intro fixed report
  obtain ⟨result, hresult, ⟨hstatus, values, hvalues, hleast⟩ | ⟨hstatus, hnone⟩⟩ :=
    hready.solved_or_exhausted hunlimited hlocal hstart memory
  · exact ⟨result, hresult, ⟨fun _ => ⟨values, hleast.1⟩, fun _ => hstatus⟩,
      fun _ => ⟨values, hvalues, hleast⟩, Or.inl hstatus⟩
  · have hunsolved : result.status ≠ .solved := by
      rw [hstatus]
      exact Status.noConfusion
    refine ⟨result, hresult, ⟨fun hsolved => absurd hsolved hunsolved, ?_⟩,
      fun hsolved => absurd hsolved hunsolved, Or.inr hstatus⟩
    rintro ⟨values, hcompletes⟩
    exact absurd hcompletes (hnone values)

/-- Three variables: the first two differ, and the last two add up to two or more. -/
def apart : Search Unit Unit where
  problem :=
    { domains := #[2, 3, 2]
      slots := #[
        some { scope := [0, 1], checker := .byValues 0 fun values => values[0]? != values[1]? },
        some { scope := [2, 1], checker := .byValues 1 fun values => 2 ≤ values.foldl (· + ·) 0 }] }
  context := ()
  start := 1

/-- The first value for the second variable has nothing behind it, and the second one is taken. -/
theorem perform_leastExtension_apart :
    (apart.Ready #[1, 9, 9] .unchecked {} ∧ apart.Unlimited ∧ apart.problem.Local ()) ∧
      ∃ values, (apart.perform #[1, 9, 9] () .unchecked {}).buffer.toList = [1] ++ values ∧
        IsLeast {values | apart.problem.Completes () [1] values} values ∧ values = [2, 0] := by
  have hready : apart.Ready #[1, 9, 9] .unchecked {} := ⟨by decide, rfl, rfl, rfl, by decide⟩
  have hunlimited : apart.Unlimited := ⟨rfl, rfl, fun _ _ => rfl⟩
  have hlocal : apart.problem.Local () := by
    apply Problem.local_of_byValues
    intro constraint hattached
    simp only [Problem.Attached, apart, List.mem_toArray, List.mem_cons, Option.some.injEq,
      List.not_mem_nil, or_false] at hattached
    rcases hattached with rfl | rfl
    · exact ⟨0, fun values => values[0]? != values[1]?, rfl⟩
    · exact ⟨1, fun values => 2 ≤ values.foldl (· + ·) 0, rfl⟩
  obtain ⟨result, hresult, -, hleast, -⟩ := perform_leastExtension apart #[1, 9, 9] () .unchecked {}
    hready hunlimited hlocal (by decide)
  have hstatus : (apart.perform #[1, 9, 9] () .unchecked {}).outcome.toOption.map (·.status) =
      some .solved := by decide +kernel
  rw [hresult] at hstatus
  obtain ⟨values, hvalues, hleast⟩ := hleast (Option.some.inj hstatus)
  have hbuffer : (apart.perform #[1, 9, 9] () .unchecked {}).buffer = #[1, 2, 0] := by
    decide +kernel
  refine ⟨⟨hready, hunlimited, hlocal⟩, values, hvalues, hleast, ?_⟩
  rw [hbuffer] at hvalues
  exact (List.cons.inj hvalues).2.symm

end Search

end ConstraintSearch
