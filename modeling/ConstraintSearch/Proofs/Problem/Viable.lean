import ConstraintSearch.Proofs.Problem.Local
import Mathlib.Algebra.Order.BigOperators.Group.Finset
import Mathlib.Data.List.Lex
import Mathlib.Order.Defs.LinearOrder

/-!
# Viable tuples

A tuple of values for the variables behind some fixed ones is viable if nothing speaks against it
so far: its values are below the sizes of their domains, and every constraint that is applicable by
then accepts.  With local checkers a tuple is viable only if all tuples that it extends are
(`Viable.of_prefix`), so the viable tuples are a tree.

A tentative tuple is a viable one with one more value.  The tentative tuples are what a search has
to look at, in the lexicographic order.  After a tuple comes first of all the tuple with a zero
behind it (`lt_iff_concat_zero_le`), and when the tuple and all that it is the beginning of are left
out, the tuple whose last value is one more (`concat_le_iff`).

## Contents

* The lexicographic order of tuples, by what follows a common front.
* `Viable`, `Tentative` and `Full`, and how they go over to prefixes.
* What is left out when a value is rejected or a domain has come to its end
  (`Tentative.le_iff_of_rejected`, `Tentative.le_iff_of_spent`).
* A finite tree has as many tentative tuples as the viable ones have values to go on with
  (`card_tentative`).
-/

namespace ConstraintSearch

/-! ## The lexicographic order -/

private theorem not_cons_le_nil {head : Nat} {front : List Nat} : ¬head :: front ≤ [] := by
  rw [not_le]
  exact List.nil_lt_cons ..

private theorem cons_le_iff {head first : Nat} {front rest : List Nat} :
    head :: front ≤ first :: rest ↔ head < first ∨ head = first ∧ front ≤ rest := by
  rw [← not_lt, List.cons_lt_cons_iff]
  rcases Nat.lt_trichotomy head first with hlt | rfl | hgt
  · simp [hlt, Nat.lt_asymm hlt, Nat.ne_of_gt hlt]
  · simp
  · simp [hgt, Nat.lt_asymm hgt, Nat.ne_of_gt hgt]

/-- What does not come before a tuple extends it, or does not come before the one whose last value
is one more. -/
theorem concat_le_iff {front tuple : List Nat} {value : Nat} :
    front ++ [value] ≤ tuple ↔ front ++ [value] <+: tuple ∨ front ++ [value + 1] ≤ tuple := by
  -- Behind the common front the lists compare by their next value: it is `value`, and the front
  -- with it is a prefix, or it is larger.
  induction front generalizing tuple with
  | nil =>
      cases tuple with
      | nil => simp [not_cons_le_nil]
      | cons first rest =>
          have hrest : [] ≤ rest := not_lt.1 (List.not_lt_nil rest)
          simp only [List.nil_append, cons_le_iff, List.cons_prefix_cons, List.nil_prefix, hrest,
            and_true]
          omega
  | cons head front ih =>
      cases tuple with
      | nil => simp [not_cons_le_nil]
      | cons first rest =>
          simp only [List.cons_append, cons_le_iff, List.cons_prefix_cons, ih]
          tauto

/-- Right behind a tuple comes the one with a zero behind it. -/
theorem lt_iff_concat_zero_le {front tuple : List Nat} :
    front < tuple ↔ front ++ [0] ≤ tuple := by
  induction front generalizing tuple with
  | nil =>
      cases tuple with
      | nil => simp [not_cons_le_nil]
      | cons first rest =>
          have hrest : [] ≤ rest := not_lt.1 (List.not_lt_nil rest)
          simp only [List.nil_append, cons_le_iff, List.nil_lt_cons, hrest, and_true, true_iff]
          omega
  | cons head front ih =>
      cases tuple with
      | nil => simp [not_cons_le_nil]
      | cons first rest => rw [List.cons_append, cons_le_iff, List.cons_lt_cons_iff, ih]

theorem append_le_append_iff {front one other : List Nat} :
    front ++ one ≤ front ++ other ↔ one ≤ other := by
  induction front with
  | nil => rfl
  | cons head front ih => simp [cons_le_iff, ih]

private theorem singleton_le_iff {value : Nat} {tuple : List Nat} :
    [value] ≤ tuple ↔ ∃ first rest, tuple = first :: rest ∧ value ≤ first := by
  cases tuple with
  | nil => simp [not_cons_le_nil]
  | cons first rest =>
      have hrest : [] ≤ rest := not_lt.1 (List.not_lt_nil rest)
      rw [cons_le_iff, and_iff_left hrest, ← Nat.le_iff_lt_or_eq]
      simp

/-- A greater last value makes a greater tuple. -/
theorem concat_lt_succ {front : List Nat} {value : Nat} :
    front ++ [value] < front ++ [value + 1] := by
  induction front with
  | nil => exact List.cons_lt_cons_iff.2 (.inl (Nat.lt_succ_self value))
  | cons head front ih => exact List.cons_lt_cons_iff.2 (.inr ⟨rfl, ih⟩)

namespace Problem

variable {σ κ : Type} {problem : Problem σ κ} {context : κ} {fixed front values tuple : List Nat}
  {value size : Nat}

/-! ## Viability -/

/-- The values, of the variables behind the fixed ones, are below the sizes of their domains. -/
def Fits (problem : Problem σ κ) (fixed values : List Nat) : Prop :=
  ∀ (i value : Nat), values[i]? = some value →
    ∃ size, problem.domains[fixed.length + i]? = some size ∧ value < size

/-- Every constraint on bound variables alone accepts, whatever stands behind them. -/
def AcceptsBound (problem : Problem σ κ) (context : κ) (bound : List Nat) : Prop :=
  ∀ assignment : Array Nat, assignment.size = problem.domains.size → bound <+: assignment.toList →
    problem.AcceptsUpTo context bound.length assignment

/-- Nothing speaks against the values of the variables behind the fixed ones: there are none, or
they are below the sizes of their domains and every constraint that is applicable accepts. -/
def Viable (problem : Problem σ κ) (context : κ) (fixed values : List Nat) : Prop :=
  values = [] ∨ problem.Fits fixed values ∧ problem.AcceptsBound context (fixed ++ values)

/-- The tuple is viable but for its last value, which is below the size of its domain. -/
def Tentative (problem : Problem σ κ) (context : κ) (fixed tuple : List Nat) : Prop :=
  ∃ front value size, tuple = front ++ [value] ∧ problem.Viable context fixed front ∧
    problem.domains[fixed.length + front.length]? = some size ∧ value < size

/-- The tuple is viable and gives values to all variables behind the fixed ones. -/
def Full (problem : Problem σ κ) (context : κ) (fixed values : List Nat) : Prop :=
  problem.Viable context fixed values ∧ fixed.length + values.length = problem.domains.size

theorem Fits.of_prefix (h : problem.Fits fixed values) (hfront : front <+: values) :
    problem.Fits fixed front := by
  obtain ⟨rest, rfl⟩ := hfront
  intro i value hvalue
  apply h i value
  rw [List.getElem?_append_left (List.getElem?_eq_some_iff.1 hvalue).1, hvalue]

theorem Fits.concat (h : problem.Fits fixed front)
    (hsize : problem.domains[fixed.length + front.length]? = some size) (hlt : value < size) :
    problem.Fits fixed (front ++ [value]) := by
  intro i other hother
  rcases Nat.lt_or_ge i front.length with hi | hi
  · rw [List.getElem?_append_left hi] at hother
    exact h i other hother
  · have hlast : i < (front ++ [value]).length := (List.getElem?_eq_some_iff.1 hother).1
    obtain rfl : i = front.length := by
      rw [List.length_append, List.length_singleton] at hlast
      omega
    obtain rfl : value = other := by simpa using hother
    exact ⟨size, hsize, hlt⟩

theorem Fits.length_le (h : problem.Fits fixed values)
    (hfixed : fixed.length ≤ problem.domains.size) :
    (fixed ++ values).length ≤ problem.domains.size := by
  rw [List.length_append]
  rcases List.eq_nil_or_concat' values with rfl | ⟨front, value, rfl⟩
  · exact hfixed
  · obtain ⟨size, hsize, -⟩ := h front.length value (by simp)
    have hlt := (Array.getElem?_eq_some_iff.1 hsize).1
    rw [List.length_append, List.length_singleton]
    omega

/-- With local checkers, it does not matter what stands behind the bound variables. -/
theorem acceptsBound_iff (hlocal : problem.Local context) {bound : List Nat}
    {assignment : Array Nat} (hsize : assignment.size = problem.domains.size)
    (hbound : bound <+: assignment.toList) :
    problem.AcceptsBound context bound ↔ problem.AcceptsUpTo context bound.length assignment := by
  constructor
  · intro h
    exact h assignment hsize hbound
  · intro h other hsize' hbound'
    exact h.of_common hlocal hbound hbound' hsize hsize'

/-- Some assignment to all variables begins with the given values. -/
theorem exists_assignment {bound : List Nat} (hlength : bound.length ≤ problem.domains.size) :
    ∃ assignment : Array Nat,
      assignment.size = problem.domains.size ∧ bound <+: assignment.toList := by
  refine ⟨(bound ++ List.replicate (problem.domains.size - bound.length) 0).toArray, ?_,
    List.prefix_append _ _⟩
  simp only [List.size_toArray, List.length_append, List.length_replicate]
  omega

theorem AcceptsBound.of_prefix (hlocal : problem.Local context) {bound longer : List Nat}
    (h : problem.AcceptsBound context longer) (hlength : longer.length ≤ problem.domains.size)
    (hbound : bound <+: longer) : problem.AcceptsBound context bound := by
  obtain ⟨assignment, hsize, hlonger⟩ := exists_assignment hlength
  rw [acceptsBound_iff hlocal hsize (hbound.trans hlonger)]
  intro constraint hattached happlicable
  exact h assignment hsize hlonger constraint hattached
    (constraint.isApplicable_mono hbound.length_le happlicable)

theorem Viable.fits (h : problem.Viable context fixed values) : problem.Fits fixed values := by
  rcases h with rfl | ⟨hfits, -⟩
  · intro i value hvalue
    cases hvalue
  · exact hfits

/-- What a viable tuple begins with is viable. -/
theorem Viable.of_prefix (hlocal : problem.Local context)
    (hfixed : fixed.length ≤ problem.domains.size) (h : problem.Viable context fixed values)
    (hfront : front <+: values) : problem.Viable context fixed front := by
  rcases h with rfl | ⟨hfits, haccepts⟩
  · exact .inl (List.prefix_nil.1 hfront)
  · refine .inr ⟨hfits.of_prefix hfront, ?_⟩
    exact haccepts.of_prefix hlocal (hfits.length_le hfixed)
      ((List.prefix_append_right_inj fixed).2 hfront)

/-! ## Tentative tuples -/

theorem Tentative.fits (h : problem.Tentative context fixed tuple) :
    problem.Fits fixed tuple := by
  obtain ⟨front, value, size, rfl, hviable, hsize, hlt⟩ := h
  exact hviable.fits.concat hsize hlt

theorem Viable.tentative (hlocal : problem.Local context)
    (hfixed : fixed.length ≤ problem.domains.size) (h : problem.Viable context fixed values)
    (hne : values ≠ []) : problem.Tentative context fixed values := by
  rcases List.eq_nil_or_concat' values with rfl | ⟨front, value, rfl⟩
  · exact absurd rfl hne
  · obtain ⟨size, hsize, hlt⟩ := h.fits front.length value (by simp)
    exact ⟨front, value, size, rfl, h.of_prefix hlocal hfixed (List.prefix_append front [value]),
      hsize, hlt⟩

theorem Full.tentative (hlocal : problem.Local context)
    (hfixed : fixed.length < problem.domains.size) (h : problem.Full context fixed values) :
    problem.Tentative context fixed values := by
  apply h.1.tentative hlocal (Nat.le_of_lt hfixed)
  rintro rfl
  exact absurd h.2 (Nat.ne_of_lt hfixed)

/-- What a tentative tuple begins with is viable, if it is not the whole tuple. -/
theorem Tentative.viable_of_prefix (hlocal : problem.Local context)
    (hfixed : fixed.length ≤ problem.domains.size) (h : problem.Tentative context fixed tuple)
    (hfront : front <+: tuple) (hne : front ≠ tuple) : problem.Viable context fixed front := by
  obtain ⟨before, value, size, rfl, hviable, -, -⟩ := h
  rcases List.prefix_concat_iff.1 hfront with heq | hprefix
  · exact absurd heq hne
  · exact hviable.of_prefix hlocal hfixed hprefix

/-- Behind a variable that has run out of values there is nothing. -/
theorem Tentative.lt_concat_of_spent (h : problem.Tentative context fixed tuple)
    (hsize : problem.domains[fixed.length + front.length]? = some size) (hspent : size ≤ value)
    (hfront : front <+: tuple) : ¬front ++ [value] ≤ tuple := by
  obtain ⟨rest, rfl⟩ := hfront
  rw [append_le_append_iff, singleton_le_iff]
  rintro ⟨first, rest, rfl, hle⟩
  obtain ⟨size', hsize', hlt⟩ := h.fits front.length first (by simp)
  rw [hsize] at hsize'
  injection hsize' with heq
  omega

/-- When the last variable has run out of values, the one before it takes its next one. -/
theorem Tentative.le_iff_of_spent (h : problem.Tentative context fixed tuple) {last : Nat}
    (hsize : problem.domains[fixed.length + (front ++ [last]).length]? = some size)
    (hspent : size ≤ value) :
    front ++ [last] ++ [value] ≤ tuple ↔ front ++ [last + 1] ≤ tuple := by
  constructor
  · intro hle
    -- No tentative tuple goes on with a value behind the end of the domain, so a tuple that is not
    -- smaller has left `front ++ [last]` behind.
    have hshorter : front ++ [last] ++ [] ≤ front ++ [last] ++ [value] :=
      append_le_append_iff.2 (not_lt.1 (List.not_lt_nil _))
    rw [List.append_nil] at hshorter
    have hlast : front ++ [last] ≤ tuple := hshorter.trans hle
    rcases concat_le_iff.1 hlast with hprefix | hnext
    · exact absurd hle (h.lt_concat_of_spent hsize hspent hprefix)
    · exact hnext
  · intro hle
    refine le_trans ?_ hle
    rw [List.append_assoc, append_le_append_iff]
    exact cons_le_iff.2 (.inl (Nat.lt_succ_self last))

/-- When the last value is rejected, the next one comes. -/
theorem Tentative.le_iff_of_rejected (hlocal : problem.Local context)
    (hfixed : fixed.length ≤ problem.domains.size) (h : problem.Tentative context fixed tuple)
    (hrejected : ¬problem.Viable context fixed (front ++ [value])) :
    front ++ [value] ≤ tuple ↔ tuple = front ++ [value] ∨ front ++ [value + 1] ≤ tuple := by
  rw [concat_le_iff]
  apply or_congr_left
  constructor
  · intro hprefix
    by_contra hne
    exact hrejected (h.viable_of_prefix hlocal hfixed hprefix (Ne.symm hne))
  · rintro rfl
    exact List.prefix_rfl

/-! ## Counting -/

theorem tentative_concat_iff :
    problem.Tentative context fixed (front ++ [value]) ↔
      problem.Viable context fixed front ∧
        value < problem.domains.getD (fixed.length + front.length) 0 := by
  rw [Array.getD_eq_getD_getElem?]
  constructor
  · rintro ⟨before, last, size, heq, hviable, hsize, hlt⟩
    obtain ⟨rfl, hlast⟩ := List.append_inj' heq rfl
    obtain rfl := List.singleton_injective hlast
    rw [hsize]
    exact ⟨hviable, hlt⟩
  · rintro ⟨hviable, hlt⟩
    cases hsize : problem.domains[fixed.length + front.length]? with
    | none =>
        rw [hsize] at hlt
        exact absurd hlt (Nat.not_lt_zero value)
    | some size =>
        rw [hsize] at hlt
        exact ⟨front, value, size, rfl, hviable, hsize, hlt⟩

/-- Every viable tuple has as many tentative ones behind it as the next domain has values. -/
theorem card_tentative {viable tentative : Finset (List Nat)}
    (hviable : ∀ values, values ∈ viable ↔ problem.Viable context fixed values)
    (htentative : ∀ tuple, tuple ∈ tentative ↔ problem.Tentative context fixed tuple) :
    tentative.card =
      ∑ front ∈ viable, problem.domains.getD (fixed.length + front.length) 0 := by
  -- Count by what is left when the last value is taken away: a tentative tuple lies over the viable
  -- one that it extends.
  have hfront : ∀ tuple ∈ tentative, tuple.dropLast ∈ viable := by
    intro tuple htuple
    obtain ⟨front, value, size, rfl, hfront, -, -⟩ := (htentative tuple).1 htuple
    rw [List.dropLast_concat]
    exact (hviable front).2 hfront
  rw [Finset.card_eq_sum_card_fiberwise hfront]
  apply Finset.sum_congr rfl
  intro front hmem
  have hbehind : tentative.filter (fun tuple => tuple.dropLast = front) =
      (Finset.range (problem.domains.getD (fixed.length + front.length) 0)).image
        fun value => front ++ [value] := by
    ext tuple
    rw [Finset.mem_filter, Finset.mem_image, htentative]
    constructor
    · rintro ⟨htuple, hdrop⟩
      obtain ⟨before, value, size, rfl, -, -, -⟩ := id htuple
      rw [List.dropLast_concat] at hdrop
      subst hdrop
      exact ⟨value, Finset.mem_range.2 (tentative_concat_iff.1 htuple).2, rfl⟩
    · rintro ⟨value, hvalue, rfl⟩
      exact ⟨tentative_concat_iff.2 ⟨(hviable front).1 hmem, Finset.mem_range.1 hvalue⟩,
        List.dropLast_concat⟩
  have hinjective : Function.Injective fun value => front ++ [value] := by
    intro one other heq
    exact List.singleton_injective (List.append_cancel_left heq)
  rw [hbehind, Finset.card_image_of_injective _ hinjective, Finset.card_range]

end Problem

end ConstraintSearch
