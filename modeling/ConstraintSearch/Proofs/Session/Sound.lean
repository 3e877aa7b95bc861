import ConstraintSearch.Proofs.Problem.Valid
import ConstraintSearch.Proofs.Session.Effect
import Mathlib.Data.List.Induction

/-!
# Sound sessions

However the operations of a checked build end, the arities of the constraints of a session and the
counts of its problems stay positive, and the constraints of a problem keep to its variables
(`Session.sound_after`).  A constraint is known by its number as long as no other constraint has this
number, and it is frozen: this is why no operation changes it in the slots of any problem.

A number may be given to another constraint or problem while problems still refer to the old one, so
what is said is about the constraint that a slot holds, and not about the one that has its number.
`of_constraint`, `of_problem`, `of_domains` and `of_frozen` are the ways in which an operation can
change holdings (`Proofs.Session.Effect`), and each keeps them sound.
-/

namespace ConstraintSearch

variable {κ τ β : Type}

theorem Replaced.forall {before after : Std.TreeMap Nat β} {key : Nat} {value? : Option β}
    (hreplaced : Replaced before after key value?) {property : β → Prop}
    (h : ∀ (k : Nat) value, before[k]? = some value → property value)
    (hvalue : ∀ value, value? = some value → property value) :
    ∀ (k : Nat) value, after[k]? = some value → property value := by
  intro k value hk
  rw [hreplaced k] at hk
  by_cases hkey : key = k
  · rw [if_pos hkey] at hk
    exact hvalue value hk
  · rw [if_neg hkey] at hk
    exact h k value hk

/-! ## Sound holdings -/

/-- A problem has variables and slots, its constraints keep to its variables, and a constraint that
is known by its number is the frozen one of this number. -/
structure PosedProblem.Sound (constraints : Std.TreeMap Nat (HeldConstraint τ κ))
    (posed : PosedProblem τ κ) : Prop where
  domains_pos : 0 < posed.problem.domains.size
  slots_pos : 0 < posed.problem.slots.size
  attached_size : posed.attached.size = posed.problem.slots.size
  slot : ∀ (index : Nat) constraint, posed.problem.slots[index]? = some (some constraint) →
    0 < constraint.arity ∧ ∀ v ∈ constraint.scope, v < posed.problem.domains.size
  attached : ∀ index c : Nat, posed.attached[index]? = some (some c) →
    ∃ constraint, constraints[c]? = some { constraint, frozen := true } ∧
      posed.problem.slots[index]? = some (some constraint)

structure Holdings.Sound (holdings : Holdings τ κ) : Prop where
  constraint : ∀ (c : Nat) held, holdings.constraints[c]? = some held → 0 < held.constraint.arity
  problem : ∀ (p : Nat) posed, holdings.problems[p]? = some posed →
    posed.Sound holdings.constraints

namespace PosedProblem.Sound

variable {constraints constraints' : Std.TreeMap Nat (HeldConstraint τ κ)}
  {posed : PosedProblem τ κ} {c index : Nat}

/-- A problem does not look at constraints that are not frozen. -/
theorem of_replaced (h : posed.Sound constraints) {held? : Option (HeldConstraint τ κ)}
    (hreplaced : Replaced constraints constraints' c held?)
    (hfrozen : ∀ constraint, constraints[c]? = some { constraint, frozen := true } →
      held? = some { constraint, frozen := true }) : posed.Sound constraints' where
  domains_pos := h.domains_pos
  slots_pos := h.slots_pos
  attached_size := h.attached_size
  slot := h.slot
  attached := by
    intro index d hattached
    obtain ⟨constraint, hheld, hslot⟩ := h.attached index d hattached
    refine ⟨constraint, ?_, hslot⟩
    rw [hreplaced d]
    by_cases hsame : c = d
    · rw [if_pos hsame]
      exact hfrozen constraint (hsame ▸ hheld)
    · rw [if_neg hsame]
      exact hheld

/-- The problem forgets a number before it is given to another constraint. -/
theorem withoutNumber (h : posed.Sound constraints) {held? : Option (HeldConstraint τ κ)}
    (hreplaced : Replaced constraints constraints' c held?) :
    (posed.withoutNumber c).Sound constraints' where
  domains_pos := h.domains_pos
  slots_pos := h.slots_pos
  attached_size := Array.size_map.trans h.attached_size
  slot := h.slot
  attached := by
    intro index d hattached
    simp only [PosedProblem.withoutNumber, Array.getElem?_map, Option.map_eq_some_iff] at hattached
    obtain ⟨number, hnumber, hkept⟩ := hattached
    by_cases hsame : number = some c
    · rw [if_pos hsame] at hkept
      cases hkept
    · rw [if_neg hsame] at hkept
      subst hkept
      obtain ⟨constraint, hheld, hslot⟩ := h.attached index d hnumber
      exact ⟨constraint, (hreplaced.of_ne fun h => hsame (congrArg some h.symm)).trans hheld, hslot⟩

/-- Other sizes of the domains make no difference. -/
theorem withDomains (h : posed.Sound constraints) {domains : Array Nat}
    (hsize : domains.size = posed.problem.domains.size) :
    Sound constraints { posed with problem := { posed.problem with domains } } where
  domains_pos := hsize ▸ h.domains_pos
  slots_pos := h.slots_pos
  attached_size := h.attached_size
  slot := by
    intro index constraint hslot
    obtain ⟨hpos, hscope⟩ := h.slot index constraint hslot
    exact ⟨hpos, fun v hv => hsize ▸ hscope v hv⟩
  attached := h.attached

theorem created (constraints : Std.TreeMap Nat (HeldConstraint τ κ)) {domains slots : Nat}
    (hdomains : 0 < domains) (hslots : 0 < slots) :
    Sound constraints
      { problem :=
          { domains := Array.replicate domains 0, slots := Array.replicate slots none }
        attached := Array.replicate slots none } where
  domains_pos := by rwa [Array.size_replicate]
  slots_pos := by rwa [Array.size_replicate]
  attached_size := by rw [Array.size_replicate, Array.size_replicate]
  slot := by
    intro index constraint hslot
    rw [Array.getElem?_replicate] at hslot
    split at hslot <;> cases hslot
  attached := by
    intro index c hattached
    rw [Array.getElem?_replicate] at hattached
    split at hattached <;> cases hattached

/-- A constraint whose variables the problem has is put into a slot. -/
theorem withConstraint (h : posed.Sound constraints) {constraint : Constraint (SessionMemory τ) κ}
    (hheld : constraints[c]? = some { constraint, frozen := true }) (hpos : 0 < constraint.arity)
    (hlargest : constraint.maxVariable < posed.problem.domains.size) (index : Nat) :
    Sound constraints
      { problem :=
          { posed.problem with
            slots := posed.problem.slots.setIfInBounds index (some constraint) }
        attached := posed.attached.setIfInBounds index (some c) } where
  domains_pos := h.domains_pos
  slots_pos := by
    rw [Array.size_setIfInBounds]
    exact h.slots_pos
  attached_size := by
    rw [Array.size_setIfInBounds, Array.size_setIfInBounds]
    exact h.attached_size
  slot := by
    intro other held hslot
    simp only [Array.getElem?_setIfInBounds] at hslot
    by_cases hsame : index = other
    · rw [if_pos hsame] at hslot
      split at hslot
      · cases hslot
        exact ⟨hpos, fun v hv => Nat.lt_of_le_of_lt (Constraint.le_maxVariable hv) hlargest⟩
      · cases hslot
    · rw [if_neg hsame] at hslot
      exact h.slot other held hslot
  attached := by
    intro other d hattached
    simp only [Array.getElem?_setIfInBounds, h.attached_size] at hattached ⊢
    by_cases hsame : index = other
    · rw [if_pos hsame] at hattached ⊢
      split at hattached
      next hlt =>
        cases hattached
        exact ⟨constraint, hheld, if_pos hlt⟩
      next => cases hattached
    · rw [if_neg hsame] at hattached ⊢
      exact h.attached other d hattached

/-- A sound problem has no flaw but a slot that is not set. -/
theorem flaw?_cases (h : posed.Sound constraints) :
    (posed.problem.flaw? = none ∧
        ∀ slot ∈ posed.problem.slots, ∃ constraint, slot = some constraint) ∨
      ∃ index : Nat, posed.problem.flaw? = some (.unsetConstraint index) ∧
        posed.problem.slots[index]? = some none := by
  cases hflaw : posed.problem.flaw? with
  | none =>
      refine .inl ⟨rfl, fun slot hslot => ?_⟩
      obtain ⟨index, hindex⟩ := Array.getElem?_of_mem hslot
      obtain ⟨constraint, hset, -⟩ := Problem.flaw?_eq_none_iff.1 hflaw index slot hindex
      exact ⟨constraint, hset⟩
  | some error =>
      obtain ⟨⟨slot, index⟩, hmem, herror⟩ := List.exists_of_findSome?_eq_some hflaw
      have hindex : posed.problem.slots[index]? = some slot := by
        rw [List.mk_mem_zipIdx_iff_getElem?] at hmem
        rwa [Array.getElem?_toList] at hmem
      -- The first flaw is one of an unset slot, as the variables of a set one are in order.
      cases slot with
      | none =>
          cases herror
          exact .inr ⟨index, rfl, hindex⟩
      | some constraint =>
          have hnone : Problem.slotFlaw? posed.problem.domains.size index (some constraint) = none :=
            Problem.slotFlaw?_eq_none_iff.2 ⟨constraint, rfl, (h.slot index constraint hindex).2⟩
          exact absurd (hnone.symm.trans herror) nofun

end PosedProblem.Sound

namespace Holdings.Sound

variable {before after : Holdings τ κ} {operation : Operation τ κ}
  {answer : Except Objection Answer} {c p : Nat}

theorem free_of_own {own : Constraint (SessionMemory τ) κ}
    (hown : before.constraints[c]? = some { constraint := own }) :
    ∀ held, before.constraints[c]? = some held → held.frozen = false := by
  rw [hown]
  rintro _ ⟨⟩
  rfl

/-- A constraint that is not frozen may be replaced by any sound one. -/
theorem of_constraint (h : before.Sound) {held? : Option (HeldConstraint τ κ)}
    (hfree : ∀ held, before.constraints[c]? = some held → held.frozen = false)
    (hpos : ∀ held, held? = some held → 0 < held.constraint.arity)
    (hconstraints : Replaced before.constraints after.constraints c held?)
    (hproblems : after.problems = before.problems) : after.Sound where
  constraint := hconstraints.forall h.constraint hpos
  problem := by
    rw [hproblems]
    intro p posed hposed
    refine (h.problem p posed hposed).of_replaced hconstraints fun constraint hheld => ?_
    -- A problem looks at frozen constraints only, and this one was not.
    cases hfree _ hheld

/-- A problem may be replaced by any sound one. -/
theorem of_problem (h : before.Sound) {posed? : Option (PosedProblem τ κ)}
    (hposed : ∀ posed, posed? = some posed → posed.Sound before.constraints)
    (hconstraints : after.constraints = before.constraints)
    (hproblems : Replaced before.problems after.problems p posed?) : after.Sound where
  constraint := by
    rw [hconstraints]
    exact h.constraint
  problem := by
    rw [hconstraints]
    exact hproblems.forall h.problem hposed

theorem of_domains (h : before.Sound) {posed : PosedProblem τ κ} {domains : Array Nat}
    (hposed : before.problems[p]? = some posed)
    (hsize : domains.size = posed.problem.domains.size)
    (hconstraints : after.constraints = before.constraints)
    (hproblems : Replaced before.problems after.problems p (some
      { posed with problem := { posed.problem with domains } })) : after.Sound := by
  refine h.of_problem ?_ hconstraints hproblems
  rintro _ ⟨⟩
  exact (h.problem p posed hposed).withDomains hsize

/-- A constraint may be frozen. -/
theorem of_frozen (h : before.Sound) {held : HeldConstraint τ κ}
    (hheld : before.constraints[c]? = some held)
    (hconstraints : Replaced before.constraints after.constraints c (some
      { held with frozen := true }))
    (hproblems : after.problems = before.problems) : after.Sound where
  constraint := by
    refine hconstraints.forall h.constraint ?_
    rintro _ ⟨⟩
    exact h.constraint c held hheld
  problem := by
    rw [hproblems]
    intro p posed hposed
    refine (h.problem p posed hposed).of_replaced hconstraints ?_
    rw [hheld]
    rintro constraint ⟨⟩
    rfl

theorem step (h : before.Sound) (heffect : Effect before after operation answer) :
    after.Sound := by
  -- One case for each effect.  What needs care is that no problem loses sight of a constraint it
  -- holds, so the replaced one must be owned, or frozen before and after.
  cases heffect with
  | kept _ _ hafter =>
      rw [hafter]
      exact h
  | created c arity checker hpos hfree hconstraints hproblems =>
      refine h.of_constraint hfree ?_ hconstraints hproblems
      rintro _ ⟨⟩
      exact Nat.lt_of_lt_of_eq hpos List.length_replicate.symm
  | renamed c arity checker hpos hconstraints hproblems =>
      refine ⟨hconstraints.forall h.constraint ?_, fun p posed hposed => ?_⟩
      · rintro _ ⟨⟩
        exact Nat.lt_of_lt_of_eq hpos List.length_replicate.symm
      · -- The constraint that had the number stays in its slots, but under no number.
        rw [hproblems p, Option.map_eq_some_iff] at hposed
        obtain ⟨named, hnamed, rfl⟩ := hposed
        exact (h.problem p named hnamed).withoutNumber hconstraints
  | variableSet c index v own hown hindex hconstraints hproblems =>
      refine h.of_constraint (free_of_own hown) ?_ hconstraints hproblems
      rintro _ ⟨⟩
      exact Nat.lt_of_lt_of_eq (h.constraint c _ hown) List.length_set.symm
  | variablesSet c scope own hown hlength hconstraints hproblems =>
      refine h.of_constraint (free_of_own hown) ?_ hconstraints hproblems
      rintro _ ⟨⟩
      exact Nat.lt_of_lt_of_eq (h.constraint c _ hown) hlength.symm
  | lost c scope own failure hown hconstraints hproblems =>
      refine h.of_constraint (free_of_own hown) ?_ hconstraints hproblems
      exact nofun
  | dropped c own hown hconstraints hproblems =>
      refine h.of_constraint (free_of_own hown) ?_ hconstraints hproblems
      exact nofun
  | posed p domains slots hdomains hslots hconstraints hproblems =>
      refine h.of_problem ?_ hconstraints hproblems
      rintro _ ⟨⟩
      exact .created _ hdomains hslots
  | domainSet p index size posed hposed hindex hconstraints hproblems =>
      exact h.of_domains hposed Array.size_setIfInBounds hconstraints hproblems
  | domainsSet p sizes answer posed hposed _ hconstraints hproblems =>
      exact h.of_domains hposed (posed.problem.size_withSizes _) hconstraints hproblems
  | allDomainsSet p size posed hposed hconstraints hproblems =>
      exact h.of_domains hposed (posed.problem.size_withSizes _) hconstraints hproblems
  | attached p index c held posed hheld hposed hindex hlargest hconstraints hproblems =>
      have hfrozen : Sound { before with constraints := after.constraints } :=
        h.of_frozen hheld hconstraints rfl
      refine hfrozen.of_problem ?_ rfl hproblems
      rintro _ ⟨⟩
      exact (hfrozen.problem p posed hposed).withConstraint hconstraints.self
        (h.constraint c held hheld) hlargest index
  | frozen p index c failure held hheld hconstraints hproblems =>
      exact h.of_frozen hheld hconstraints hproblems
  | withdrawn p hconstraints hproblems =>
      refine h.of_problem ?_ hconstraints hproblems
      exact nofun

end Holdings.Sound

/-! ## Lent constraints -/

section Frozen

variable {before after : Holdings τ κ} {operation : Operation τ κ}
  {answer : Except Objection Answer} {constraint : Constraint (SessionMemory τ) κ} {c d : Nat}

/-- What is known by another number is not replaced. -/
private theorem frozen_of_replaced {held? : Option (HeldConstraint τ κ)}
    (hfrozen : before.constraints[c]? = some { constraint, frozen := true })
    (hreplaced : Replaced before.constraints after.constraints d held?)
    (hsame : d = c → held? = some { constraint, frozen := true }) :
    after.constraints[c]? = some { constraint, frozen := true } := by
  by_cases hcd : d = c
  · rw [hreplaced c, if_pos hcd, hsame hcd]
  · rw [hreplaced c, if_neg hcd, hfrozen]

private theorem ne_of_own {own : Constraint (SessionMemory τ) κ}
    (hfrozen : before.constraints[c]? = some { constraint, frozen := true })
    (hown : before.constraints[d]? = some { constraint := own }) : d ≠ c := by
  rintro rfl
  cases hfrozen.symm.trans hown

/-- A frozen constraint is lent for good: no operation changes it, and it only loses its number when a
new constraint is given that. -/
theorem Effect.keeps_frozen (heffect : Effect before after operation answer)
    (hfrozen : before.constraints[c]? = some { constraint, frozen := true })
    (hkept : ∀ arity checker, operation ≠ .newConstraint c arity checker) :
    after.constraints[c]? = some { constraint, frozen := true } := by
  cases heffect with
  | kept _ _ hafter => rw [hafter, hfrozen]
  | created d arity checker _ _ hconstraints _ | renamed d arity checker _ hconstraints _ =>
      refine frozen_of_replaced hfrozen hconstraints ?_
      rintro rfl
      exact absurd rfl (hkept arity checker)
  | variableSet d _ _ _ hown _ hconstraints _ | variablesSet d _ _ hown _ hconstraints _
  | lost d _ _ _ hown hconstraints _ | dropped d _ hown hconstraints _ =>
      exact frozen_of_replaced hfrozen hconstraints fun hsame =>
        absurd hsame (ne_of_own hfrozen hown)
  | posed _ _ _ _ _ hconstraints _ | domainSet _ _ _ _ _ _ hconstraints _
  | domainsSet _ _ _ _ _ _ hconstraints _ | allDomainsSet _ _ _ _ hconstraints _
  | withdrawn _ hconstraints _ => rw [hconstraints, hfrozen]
  | attached _ _ d held _ hheld _ _ _ hconstraints _ | frozen _ _ d _ held hheld hconstraints _ =>
      refine frozen_of_replaced hfrozen hconstraints ?_
      rintro rfl
      rw [Option.some.inj (hheld.symm.trans hfrozen)]

end Frozen

/-- As long as its number is not given away, a frozen constraint is what it was. -/
theorem Session.frozen_after {session : Session τ κ} {constraint : Constraint (SessionMemory τ) κ}
    {c : Nat} (hfrozen : session.constraints[c]? = some { constraint, frozen := true })
    (operations : List (Operation τ κ))
    (hkept : ∀ operation ∈ operations, ∀ arity checker,
      operation ≠ .newConstraint c arity checker) :
    (session.after .checked operations).constraints[c]? = some { constraint, frozen := true } := by
  induction operations using List.reverseRecOn with
  | nil => exact hfrozen
  | append_singleton operations operation ih =>
      obtain ⟨hbefore, hlast⟩ := List.forall_mem_append.1 hkept
      rw [after_concat]
      exact (effect_step _ operation).keeps_frozen (ih hbefore)
        (hlast operation (List.mem_singleton_self _))

/-- However its operations end, a session stays sound. -/
theorem Session.sound_after (active : Bool) (own : τ) (operations : List (Operation τ κ)) :
    ((start active own : Session τ κ).after .checked operations).holdings.Sound := by
  induction operations using List.reverseRecOn with
  | nil =>
      refine ⟨fun c held hheld => ?_, fun p posed hposed => ?_⟩
      · exact absurd hheld (by simp [after, holdings, start])
      · exact absurd hposed (by simp [after, holdings, start])
  | append_singleton operations operation ih =>
      rw [after_concat]
      exact ih.step (effect_step _ operation)

end ConstraintSearch
