import ConstraintSearch.Proofs.Session.Sound

/-!
# What every session keeps

An operation that sets a place writes there, and all other places hold what they held before
(`Effect.writes`).  After any operation every place holds what was written to it, or what it held
before (`Effect.follows`).  So in a session it holds what was written to it last
(`Session.content?_after`).

## Strategy

What an operation does to a session is known from its `Effect`, which says for each way to come out
which constraint or problem is replaced, and by what.  So two kinds of facts are needed.

* *Parts.*  What the parts of a new or a changed constraint or problem hold: `content?_fresh`, and for
  each setter one lemma about the part that is set and one about the others.
* *Places.*  If one constraint or problem is replaced, all places elsewhere keep their content
  (`writes_constraint`, `writes_problem`, `follows_of_constraint`, `follows_of_problem`).

`Effect.writes` and `Effect.follows` put them together, case by case, and the induction over the
operations of a session needs the latter only.
-/

namespace ConstraintSearch

variable {σ κ τ : Type}

/-! ## Places of constraints and problems -/

namespace Constraint

variable {constraint : Constraint σ κ} {index v : Nat} {part : Part}

theorem content?_fresh (arity : Nat) (checker : Checker σ κ) (part : Part) :
    content? { scope := List.replicate arity 0, checker } part =
      match part with
      | .arity => some (.number arity)
      | .checker => some (.checker checker)
      | .slot index => if index < arity then some (.number 0) else none := by
  cases part with
  | arity => simp only [content?, Constraint.arity, List.length_replicate]
  | checker => rfl
  | slot index =>
      simp only [content?, List.getElem?_replicate]
      split <;> rfl

theorem content?_set_self (hindex : index < constraint.arity) :
    content? { constraint with scope := constraint.scope.set index v } (.slot index) =
      some (.number v) := by
  simp only [content?, List.getElem?_set_self hindex, Option.map_some]

theorem content?_set_of_ne (hpart : part ≠ .slot index) :
    content? { constraint with scope := constraint.scope.set index v } part =
      constraint.content? part := by
  cases part with
  | arity => simp only [content?, arity, List.length_set]
  | checker => rfl
  | slot other =>
      have hne : index ≠ other := fun hsame => hpart (congrArg _ hsame.symm)
      simp only [content?, List.getElem?_set_ne hne]

end Constraint

namespace Problem

variable {problem : Problem σ κ} {index size : Nat} {part : Part}
  {slot : Option (Constraint σ κ)}

theorem content?_fresh (domains slots : Nat) (part : Part) :
    content? ({ domains := Array.replicate domains 0, slots := Array.replicate slots none } :
        Problem σ κ) part =
      match part with
      | .domainCount => some (.number domains)
      | .slotCount => some (.number slots)
      | .domain index => if index < domains then some (.number 0) else none
      | .slot index => if index < slots then some (.slot none) else none := by
  cases part with
  | domainCount => simp only [content?, Array.size_replicate]
  | slotCount => simp only [content?, Array.size_replicate]
  | domain index =>
      simp only [content?, Array.getElem?_replicate]
      split <;> rfl
  | slot index =>
      simp only [content?, Array.getElem?_replicate]
      split <;> rfl

theorem content?_setDomain_self (hindex : index < problem.domains.size) :
    content? { problem with domains := problem.domains.setIfInBounds index size } (.domain index) =
      some (.number size) := by
  simp only [content?, Array.getElem?_setIfInBounds_self_of_lt hindex, Option.map_some]

theorem content?_setDomain_of_ne (hpart : part ≠ .domain index) :
    content? { problem with domains := problem.domains.setIfInBounds index size } part =
      problem.content? part := by
  cases part with
  | domainCount => simp only [content?, Array.size_setIfInBounds]
  | slotCount => rfl
  | domain other =>
      have hne : index ≠ other := fun hsame => hpart (congrArg _ hsame.symm)
      simp only [content?, Array.getElem?_setIfInBounds_ne hne]
  | slot other => rfl

theorem content?_setSlot_self (hindex : index < problem.slots.size) :
    content? { problem with slots := problem.slots.setIfInBounds index slot } (.slot index) =
      some (.slot slot) := by
  simp only [content?, Array.getElem?_setIfInBounds_self_of_lt hindex, Option.map_some]

theorem content?_setSlot_of_ne (hpart : part ≠ .slot index) :
    content? { problem with slots := problem.slots.setIfInBounds index slot } part =
      problem.content? part := by
  cases part with
  | domainCount => rfl
  | slotCount => simp only [content?, Array.size_setIfInBounds]
  | domain other => rfl
  | slot other =>
      have hne : index ≠ other := fun hsame => hpart (congrArg _ hsame.symm)
      simp only [content?, Array.getElem?_setIfInBounds_ne hne]

end Problem

/-! ## Setting a place -/

/-- The place is written, and all others hold what they held before. -/
structure Holdings.Writes (before after : Holdings τ κ) (place : Place)
    (content : Content (SessionMemory τ) κ) : Prop where
  existed : (before.content? place).isSome
  written : after.content? place = some content
  others : ∀ other, other ≠ place → after.content? other = before.content? other

/-- The place that an operation is to set, and what to. -/
def Holdings.assignment? (before : Holdings τ κ) :
    Operation τ κ → Option (Place × Content (SessionMemory τ) κ)
  | .setVariable c index v => some (.ofConstraint c (.slot index), .number v)
  | .setDomain p index size => some (.ofProblem p (.domain index), .number size)
  | .setConstraint p index c =>
      some (.ofProblem p (.slot index), .slot (before.constraints[c]?.map (·.constraint)))
  | _ => none

/-- An operation that sets a place writes to this place only. -/
theorem Holdings.written?_of_assignment {before : Holdings τ κ} {operation : Operation τ κ}
    {place : Place} {content : Content (SessionMemory τ) κ}
    (h : before.assignment? operation = some (place, content)) (other : Place) :
    before.written? operation other = if place = other then some content else none := by
  -- Only three operations set a place; what they write is told for the constraint or the problem of
  -- that place, part by part.
  cases operation with
  | setVariable c index v =>
      cases h
      cases other with
      | ofConstraint d part =>
          cases part <;> simp [written?, Place.inConstraint, ← ite_and]
      | ofProblem q part => rfl
  | setDomain p index size =>
      cases h
      cases other with
      | ofConstraint d part => rfl
      | ofProblem q part =>
          cases part <;> simp [written?, Place.inProblem, ← ite_and]
  | setConstraint p index c =>
      cases h
      cases other with
      | ofConstraint d part => rfl
      | ofProblem q part =>
          cases part <;> simp [written?, Place.inProblem, ← ite_and]
  | _ => cases h

namespace Holdings

variable {before after : Holdings τ κ} {c p index : Nat} {content : Content (SessionMemory τ) κ}

theorem content?_of_constraints (hconstraints : after.constraints = before.constraints) (c : Nat)
    (part : Constraint.Part) :
    after.content? (.ofConstraint c part) = before.content? (.ofConstraint c part) := by
  simp only [content?, hconstraints]

theorem content?_of_problems (hproblems : after.problems = before.problems) (p : Nat)
    (part : Problem.Part) :
    after.content? (.ofProblem p part) = before.content? (.ofProblem p part) := by
  simp only [content?, hproblems]

theorem content?_ofConstraint {held? : Option (HeldConstraint τ κ)}
    (hconstraints : Replaced before.constraints after.constraints c held?) (d : Nat)
    (part : Constraint.Part) :
    after.content? (.ofConstraint d part) =
      if c = d then held?.bind (·.constraint.content? part)
      else before.content? (.ofConstraint d part) := by
  simp only [content?, hconstraints d]
  split <;> rfl

theorem content?_ofProblem {posed? : Option (PosedProblem τ κ)}
    (hproblems : Replaced before.problems after.problems p posed?) (q : Nat)
    (part : Problem.Part) :
    after.content? (.ofProblem q part) =
      if p = q then posed?.bind (·.problem.content? part)
      else before.content? (.ofProblem q part) := by
  simp only [content?, hproblems q]
  split <;> rfl

/-- A constraint that is frozen holds what it held. -/
theorem content?_frozen {held : HeldConstraint τ κ} (hheld : before.constraints[c]? = some held)
    (hconstraints : Replaced before.constraints after.constraints c (some
      { held with frozen := true })) (d : Nat) (part : Constraint.Part) :
    after.content? (.ofConstraint d part) = before.content? (.ofConstraint d part) := by
  rw [content?_ofConstraint hconstraints]
  by_cases hsame : c = d
  · subst hsame
    simp only [content?, hheld, if_pos, Option.bind_some]
  · rw [if_neg hsame]

theorem writes_constraint {held held' : HeldConstraint τ κ} {part : Constraint.Part}
    (hheld : before.constraints[c]? = some held)
    (hconstraints : Replaced before.constraints after.constraints c (some held'))
    (hproblems : after.problems = before.problems)
    (hexisted : (held.constraint.content? part).isSome)
    (hwritten : held'.constraint.content? part = some content)
    (hothers : ∀ other, other ≠ part →
      held'.constraint.content? other = held.constraint.content? other) :
    before.Writes after (.ofConstraint c part) content where
  existed := by
    simp only [content?, hheld]
    exact hexisted
  written := by
    rw [content?_ofConstraint hconstraints, if_pos rfl]
    exact hwritten
  others := by
    intro other hother
    cases other with
    -- The same constraint has other parts, and other constraints are as before.
    | ofConstraint d part' =>
        rw [content?_ofConstraint hconstraints]
        by_cases hsame : c = d
        · subst hsame
          rw [if_pos rfl]
          simp only [content?, hheld]
          exact hothers part' fun hpart => hother (congrArg _ hpart)
        · rw [if_neg hsame]
    | ofProblem q part' => exact content?_of_problems hproblems q part'

theorem writes_problem {posed posed' : PosedProblem τ κ} {part : Problem.Part}
    (hposed : before.problems[p]? = some posed)
    (hconstraints : ∀ d part, after.content? (.ofConstraint d part) =
      before.content? (.ofConstraint d part))
    (hproblems : Replaced before.problems after.problems p (some posed'))
    (hexisted : (posed.problem.content? part).isSome)
    (hwritten : posed'.problem.content? part = some content)
    (hothers : ∀ other, other ≠ part →
      posed'.problem.content? other = posed.problem.content? other) :
    before.Writes after (.ofProblem p part) content where
  existed := by
    simp only [content?, hposed]
    exact hexisted
  written := by
    rw [content?_ofProblem hproblems, if_pos rfl]
    exact hwritten
  others := by
    intro other hother
    cases other with
    | ofConstraint d part' => exact hconstraints d part'
    -- The same problem has other parts, and other problems are as before.
    | ofProblem q part' =>
        rw [content?_ofProblem hproblems]
        by_cases hsame : p = q
        · subst hsame
          rw [if_pos rfl]
          simp only [content?, hposed]
          exact hothers part' fun hpart => hother (congrArg _ hpart)
        · rw [if_neg hsame]

theorem writes_variable {v : Nat} {own : Constraint (SessionMemory τ) κ}
    (hown : before.constraints[c]? = some { constraint := own }) (hindex : index < own.arity)
    (hconstraints : Replaced before.constraints after.constraints c (some
      { constraint := { own with scope := own.scope.set index v } }))
    (hproblems : after.problems = before.problems) :
    before.Writes after (.ofConstraint c (.slot index)) (.number v) := by
  refine writes_constraint hown hconstraints hproblems ?_ (Constraint.content?_set_self hindex)
    fun other hother => Constraint.content?_set_of_ne hother
  simp only [Constraint.content?, List.getElem?_eq_getElem hindex, Option.map_some,
    Option.isSome_some]

theorem writes_domain {size : Nat} {posed : PosedProblem τ κ}
    (hposed : before.problems[p]? = some posed) (hindex : index < posed.problem.domains.size)
    (hconstraints : after.constraints = before.constraints)
    (hproblems : Replaced before.problems after.problems p (some
      { posed with
        problem :=
          { posed.problem with domains := posed.problem.domains.setIfInBounds index size } })) :
    before.Writes after (.ofProblem p (.domain index)) (.number size) := by
  refine writes_problem hposed (content?_of_constraints hconstraints) hproblems ?_
    (Problem.content?_setDomain_self hindex) fun other hother =>
      Problem.content?_setDomain_of_ne hother
  simp only [Problem.content?, Array.getElem?_eq_getElem hindex, Option.map_some,
    Option.isSome_some]

theorem writes_slot {held : HeldConstraint τ κ} {posed : PosedProblem τ κ}
    {attached : Array (Option Nat)} (hheld : before.constraints[c]? = some held)
    (hposed : before.problems[p]? = some posed) (hindex : index < posed.problem.slots.size)
    (hconstraints : Replaced before.constraints after.constraints c (some
      { held with frozen := true }))
    (hproblems : Replaced before.problems after.problems p (some
      { problem :=
          { posed.problem with
            slots := posed.problem.slots.setIfInBounds index (some held.constraint) }
        attached })) :
    before.Writes after (.ofProblem p (.slot index))
      (.slot (before.constraints[c]?.map (·.constraint))) := by
  rw [hheld]
  refine writes_problem hposed (content?_frozen hheld hconstraints) hproblems ?_
    (Problem.content?_setSlot_self hindex) fun other hother =>
      Problem.content?_setSlot_of_ne hother
  simp only [Problem.content?, Array.getElem?_eq_getElem hindex, Option.map_some,
    Option.isSome_some]

end Holdings

/-- A setter that succeeds sets its place, which is there, and nothing else. -/
theorem Effect.writes {before after : Holdings τ κ} {operation : Operation τ κ} {answer : Answer}
    (heffect : Effect before after operation (.ok answer)) {place : Place}
    {content : Content (SessionMemory τ) κ}
    (hassignment : before.assignment? operation = some (place, content)) :
    before.Writes after place content := by
  cases heffect with
  | kept _ _ hafter hunwritten =>
      have hwritten : before.written? operation place = some content :=
        (Holdings.written?_of_assignment hassignment place).trans (if_pos rfl)
      exact absurd ((hunwritten place).symm.trans hwritten) nofun
  | variableSet c index v own hown hindex hconstraints hproblems =>
      cases hassignment
      exact Holdings.writes_variable hown hindex hconstraints hproblems
  | domainSet p index size posed hposed hindex hconstraints hproblems =>
      cases hassignment
      exact Holdings.writes_domain hposed hindex hconstraints hproblems
  | attached p index c held posed hheld hposed hindex hlargest hconstraints hproblems =>
      cases hassignment
      exact Holdings.writes_slot hheld hposed hindex hconstraints hproblems
  | _ => cases hassignment

/-! ## Writing to places -/

namespace Holdings

variable {before after : Holdings τ κ} {c p : Nat}

/-- A place holds what was written to it, or what it held before. -/
def Follows (before after : Holdings τ κ) (written? : Place → Option (Content (SessionMemory τ) κ)) :
    Prop :=
  ∀ place content, after.content? place = some content →
    (written? place).or (before.content? place) = some content

theorem follows_of_constraint {told? : Constraint.Part → Option (Content (SessionMemory τ) κ)}
    {held? : Option (HeldConstraint τ κ)}
    (hconstraints : Replaced before.constraints after.constraints c held?)
    (hproblems : ∀ q part, after.content? (.ofProblem q part) = before.content? (.ofProblem q part))
    (hparts : ∀ held, held? = some held → ∀ part content,
      held.constraint.content? part = some content →
        (told? part).or (before.content? (.ofConstraint c part)) = some content) :
    Follows before after (Place.inConstraint c told?) := by
  intro place content hcontent
  cases place with
  | ofConstraint d part =>
      rw [content?_ofConstraint hconstraints] at hcontent
      simp only [Place.inConstraint]
      -- Something is told about one constraint only.
      by_cases hsame : c = d
      · subst hsame
        rw [if_pos rfl] at hcontent ⊢
        obtain ⟨held, hheld, hpart⟩ := Option.bind_eq_some_iff.1 hcontent
        exact hparts held hheld part content hpart
      · rw [if_neg hsame] at hcontent ⊢
        exact hcontent
  | ofProblem q part =>
      rw [hproblems] at hcontent
      exact hcontent

theorem follows_of_problem {told? : Problem.Part → Option (Content (SessionMemory τ) κ)}
    {posed? : Option (PosedProblem τ κ)}
    (hconstraints : ∀ d part, after.content? (.ofConstraint d part) =
      before.content? (.ofConstraint d part))
    (hproblems : Replaced before.problems after.problems p posed?)
    (hparts : ∀ posed, posed? = some posed → ∀ part content,
      posed.problem.content? part = some content →
        (told? part).or (before.content? (.ofProblem p part)) = some content) :
    Follows before after (Place.inProblem p told?) := by
  intro place content hcontent
  cases place with
  | ofConstraint d part =>
      rw [hconstraints] at hcontent
      exact hcontent
  | ofProblem q part =>
      rw [content?_ofProblem hproblems] at hcontent
      simp only [Place.inProblem]
      by_cases hsame : p = q
      · subst hsame
        rw [if_pos rfl] at hcontent ⊢
        obtain ⟨posed, hposed, hpart⟩ := Option.bind_eq_some_iff.1 hcontent
        exact hparts posed hposed part content hpart
      · rw [if_neg hsame] at hcontent ⊢
        exact hcontent

theorem Writes.follows {operation : Operation τ κ} {place : Place}
    {content : Content (SessionMemory τ) κ} (h : before.Writes after place content)
    (hassignment : before.assignment? operation = some (place, content)) :
    Follows before after (before.written? operation) := by
  intro other content' hcontent
  rw [written?_of_assignment hassignment]
  by_cases hsame : place = other
  · subst hsame
    rw [if_pos rfl]
    exact h.written.symm.trans hcontent
  · rw [if_neg hsame, ← hcontent]
    exact (h.others other (Ne.symm hsame)).symm

theorem follows_created {arity : Nat} {checker : Checker (SessionMemory τ) κ}
    (hconstraints : Replaced before.constraints after.constraints c (some
      { constraint :=
          { scope := List.replicate arity 0, checker := SessionMemory.recorded checker } }))
    (hproblems : ∀ q part,
      after.content? (.ofProblem q part) = before.content? (.ofProblem q part)) :
    Follows before after (before.written? (.newConstraint c arity checker)) := by
  refine follows_of_constraint hconstraints hproblems ?_
  -- Each part of a new constraint is written, so what was there before does not count.
  rintro _ ⟨⟩ part content hpart
  rw [Constraint.content?_fresh] at hpart
  cases part <;> exact Option.or_eq_some_iff.2 (.inl hpart)

theorem follows_variablesSet {scope : List Nat} {own : Constraint (SessionMemory τ) κ}
    (hown : before.constraints[c]? = some { constraint := own })
    (hlength : scope.length = own.arity)
    (hconstraints : Replaced before.constraints after.constraints c (some
      { constraint := { own with scope } }))
    (hproblems : after.problems = before.problems) :
    Follows before after (before.written? (.withVariables c scope)) := by
  refine follows_of_constraint hconstraints (content?_of_problems hproblems) ?_
  rintro _ ⟨⟩ part content hpart
  -- Setting all slots at once leaves the arity and the checker.
  cases part with
  | arity =>
      simp only [Constraint.content?, Constraint.arity, hlength] at hpart
      simp only [content?, hown, Option.bind_some]
      exact hpart
  | checker =>
      simp only [content?, hown, Option.bind_some]
      exact hpart
  | slot index =>
      simp only [Constraint.content?] at hpart
      simp only [hpart]
      rfl

theorem follows_posed {domains slots : Nat}
    (hconstraints : after.constraints = before.constraints)
    (hproblems : Replaced before.problems after.problems p (some
      { problem :=
          { domains := Array.replicate domains 0, slots := Array.replicate slots none }
        attached := Array.replicate slots none })) :
    Follows before after (before.written? (.newProblem p domains slots)) := by
  refine follows_of_problem (content?_of_constraints hconstraints) hproblems ?_
  rintro _ ⟨⟩ part content hpart
  rw [Problem.content?_fresh] at hpart
  cases part <;> exact Option.or_eq_some_iff.2 (.inl hpart)

/-- Domains are set where something is told about them. -/
theorem follows_domainsSet {posed : PosedProblem τ κ} {domains : Array Nat}
    {told? : Nat → Option (Content (SessionMemory τ) κ)}
    (hposed : before.problems[p]? = some posed)
    (hsize : domains.size = posed.problem.domains.size)
    (hdomains : ∀ index size, domains[index]? = some size →
      (told? index).or (posed.problem.domains[index]?.map .number) = some (.number size))
    (hconstraints : after.constraints = before.constraints)
    (hproblems : Replaced before.problems after.problems p (some
      { posed with problem := { posed.problem with domains } })) :
    Follows before after (Place.inProblem p fun
      | .domain index => told? index
      | _ => none) := by
  refine follows_of_problem (content?_of_constraints hconstraints) hproblems ?_
  rintro _ ⟨⟩ part content hpart
  simp only [content?, hposed, Option.bind_some]
  cases part with
  | domainCount =>
      simp only [Problem.content?, hsize] at hpart
      exact hpart
  | slotCount => exact hpart
  | domain index =>
      obtain ⟨size, hindex, rfl⟩ := Option.map_eq_some_iff.1 hpart
      exact hdomains index size hindex
  | slot index => exact hpart

theorem follows_lost (hconstraints : Replaced before.constraints after.constraints c none)
    (hproblems : after.problems = before.problems) : Follows before after fun _ => none := by
  -- What has gone holds nothing, so nothing has to be told about it.
  have h : Follows before after (Place.inConstraint c fun _ => none) :=
    follows_of_constraint hconstraints (content?_of_problems hproblems) nofun
  rwa [Place.inConstraint_none] at h

theorem follows_withdrawn (hconstraints : after.constraints = before.constraints)
    (hproblems : Replaced before.problems after.problems p none) :
    Follows before after fun _ => none := by
  have h : Follows before after (Place.inProblem p fun _ => none) :=
    follows_of_problem (content?_of_constraints hconstraints) hproblems nofun
  rwa [Place.inProblem_none] at h

end Holdings

namespace Effect

variable {before after : Holdings τ κ} {operation : Operation τ κ}
  {answer : Except Objection Answer}

/-- After an operation every place holds what this has written to it, or what it held before. -/
theorem follows (heffect : Effect before after operation answer) :
    before.Follows after (Entry.written? { before, operation, answer }) := by
  -- One case for each way in which an operation can come out.  The three setters of one place write
  -- it and nothing else; the other changes write or take away a whole constraint or problem.
  cases heffect with
  | kept _ _ hafter hunwritten =>
      intro place content hcontent
      rw [hunwritten, ← hafter]
      exact hcontent
  | created c arity checker _ _ hconstraints hproblems =>
      exact Holdings.follows_created hconstraints (Holdings.content?_of_problems hproblems)
  | renamed c arity checker _ hconstraints hproblems =>
      refine Holdings.follows_created hconstraints fun q part => ?_
      simp only [Holdings.content?, hproblems]
      cases before.problems[q]? <;> rfl
  | variableSet c index v own hown hindex hconstraints hproblems =>
      have hassignment : before.assignment? (.setVariable c index v) = some _ := rfl
      exact (Holdings.writes_variable hown hindex hconstraints hproblems).follows hassignment
  | variablesSet c scope own hown hlength hconstraints hproblems =>
      exact Holdings.follows_variablesSet hown hlength hconstraints hproblems
  | lost c scope own failure _ hconstraints hproblems =>
      exact Holdings.follows_lost hconstraints hproblems
  | dropped c own _ hconstraints hproblems =>
      exact Holdings.follows_lost hconstraints hproblems
  | posed p domains slots _ _ hconstraints hproblems =>
      exact Holdings.follows_posed hconstraints hproblems
  | domainSet p index size posed hposed hindex hconstraints hproblems =>
      have hassignment : before.assignment? (.setDomain p index size) = some _ := rfl
      exact (Holdings.writes_domain hposed hindex hconstraints hproblems).follows hassignment
  | domainsSet p sizes answer posed hposed hanswer hconstraints hproblems =>
      -- A list of sizes writes also when it fails at the end of the domains.
      have hwritten : Entry.written? { before, operation := .setDomains p sizes, answer } =
          before.written? (.setDomains p sizes) := by
        funext place
        exact if_pos hanswer
      rw [hwritten]
      refine Holdings.follows_domainsSet hposed (posed.problem.size_withSizes _) ?_ hconstraints
        hproblems
      intro index size hindex
      rw [Problem.getElem?_withSizes] at hindex
      obtain ⟨old, hold, rfl⟩ := Option.map_eq_some_iff.1 hindex
      rw [hold]
      cases sizes[index]? <;> rfl
  | allDomainsSet p size posed hposed hconstraints hproblems =>
      refine Holdings.follows_domainsSet hposed (posed.problem.size_withSizes _) ?_ hconstraints
        hproblems
      intro index other hindex
      rw [Problem.getElem?_withSizes] at hindex
      obtain ⟨old, hold, rfl⟩ := Option.map_eq_some_iff.1 hindex
      obtain ⟨hlt, -⟩ := Array.getElem?_eq_some_iff.1 hold
      rw [List.getElem?_replicate, if_pos hlt]
      rfl
  | attached p index c held posed hheld hposed hindex _ hconstraints hproblems =>
      have hassignment : before.assignment? (.setConstraint p index c) = some _ := rfl
      exact (Holdings.writes_slot hheld hposed hindex hconstraints hproblems).follows hassignment
  | frozen p index c failure held hheld hconstraints hproblems =>
      -- A refused constraint is lent all the same, which is no change of a place.
      intro place content hcontent
      cases place with
      | ofConstraint d part =>
          rw [Holdings.content?_frozen hheld hconstraints] at hcontent
          exact hcontent
      | ofProblem q part =>
          rw [Holdings.content?_of_problems hproblems] at hcontent
          exact hcontent
  | withdrawn p hconstraints hproblems =>
      exact Holdings.follows_withdrawn hconstraints hproblems

end Effect

/-- Every place holds what was written to it last. -/
theorem Session.content?_after (active : Bool) (own : τ) (operations : List (Operation τ κ))
    {place : Place} {content : Content (SessionMemory τ) κ}
    (h : ((start active own : Session τ κ).after .checked operations).holdings.content? place =
      some content) :
    lastWritten? ((start active own : Session τ κ).history .checked operations) place =
      some content := by
  induction operations using List.reverseRecOn generalizing content with
  | nil =>
      have hnone : (start active own : Session τ κ).holdings.content? place = none := by
        cases place <;> simp [Holdings.content?, holdings, start]
      have habsent : none = some content := hnone.symm.trans h
      cases habsent
  | append_singleton operations operation ih =>
      rw [after_concat] at h
      rw [history_concat, lastWritten?_concat]
      generalize (start active own : Session τ κ).after .checked operations = session at h ih ⊢
      have hfollows : ((session.entry .checked operation).written? place).or
          (session.holdings.content? place) = some content :=
        (session.effect_step operation).follows place content h
      -- Unless the last operation has written the place, the earlier ones have left its content.
      cases hwritten : (session.entry .checked operation).written? place with
      | some written =>
          rw [hwritten] at hfollows
          exact hfollows
      | none =>
          rw [hwritten] at hfollows
          exact ih hfollows

/-! ## Failures -/

/-- A failure of the operation undoes nothing because nothing was done by then. -/
def Operation.isAtomic : Operation τ κ → Bool
  | .withVariables .. | .setDomains .. => false
  | _ => true

namespace Effect

variable {before after : Holdings τ κ} {operation : Operation τ κ}
  {answer : Except Objection Answer}

theorem eq_of_unchanging (heffect : Effect before after operation answer)
    (hunchanging : operation.isChange = false) : after = before := by
  cases heffect with
  | kept _ _ hafter _ => exact hafter
  | _ => cases hunchanging

/-- An atomic operation that fails changes no constraint and no problem. -/
theorem unchanged {objection : Objection}
    (heffect : Effect before after operation (.error objection))
    (hatomic : operation.isAtomic = true) :
    (∀ c : Nat, after.constraints[c]?.map (·.constraint) =
        before.constraints[c]?.map (·.constraint)) ∧
      after.problems = before.problems := by
  cases heffect with
  | kept _ _ hafter _ =>
      rw [hafter]
      exact ⟨fun _ => rfl, rfl⟩
  | frozen p index c failure held hheld hconstraints hproblems =>
      refine ⟨fun d => ?_, hproblems⟩
      rw [hconstraints d]
      by_cases hsame : c = d
      · rw [if_pos hsame, ← hsame, hheld]
        rfl
      · rw [if_neg hsame]
  | lost => cases hatomic
  | domainsSet => cases hatomic

end Effect

namespace Session

/-- A problem of a sound session is valid or has a slot that is not set, unless the library is not
active. -/
theorem step_validate_cases {session : Session τ κ} (hsound : session.holdings.Sound) {p : Nat}
    {posed : PosedProblem τ κ} (hposed : session.problems[p]? = some posed) :
    let answer := (session.step .checked (.validate p)).1
    (answer = .ok .done ∧ ∀ slot ∈ posed.problem.slots, ∃ constraint, slot = some constraint) ∨
      (∃ index : Nat, answer = .error (.failed (.problem (.unsetConstraint index))) ∧
        posed.problem.slots[index]? = some none) ∨
      answer = .error (.failed (.fault .inactive)) ∧ session.library.isActive = false := by
  intro answer
  have hopened : session.opened.problems[p]? = some posed := hposed
  have hperform : SessionStep.perform (.validate p) .checked session.opened =
      (do SessionStep.call posed.problem.validate; return .done : SessionStep τ κ Answer) .checked
        session.opened :=
    SessionStep.bind_of_ok (SessionStep.problem_apply hopened) _
  by_cases hzero : session.library.activations = 0
  · have hvalidate : posed.problem.validate .checked session.opened.library =
        .error (.fault .inactive) session.opened.library := by
      unfold Problem.validate
      rw [Action.bind_apply, Action.requireActive_apply, if_pos ⟨rfl, hzero⟩]
    have hstep := step_of_error (hperform.trans
      (SessionStep.bind_of_error (SessionStep.call_of_error hvalidate) _))
    exact .inr (.inr ⟨congrArg Prod.fst hstep, by simp [Library.isActive, hzero]⟩)
  · have hvalidate := posed.problem.validate_apply fun h : Build.checked = .checked ∧
      session.opened.library.activations = 0 => hzero h.2
    -- In a sound session a set slot has no flaw, so the only flaw is an unset slot.
    rcases (hsound.problem p posed hposed).flaw?_cases with ⟨hflaw, hset⟩ | ⟨index, hflaw, hunset⟩
    · rw [hflaw] at hvalidate
      have hstep := step_of_ok (hperform.trans
        (SessionStep.bind_of_ok (SessionStep.call_of_ok hvalidate) _))
      exact .inl ⟨congrArg Prod.fst hstep, hset⟩
    · rw [hflaw] at hvalidate
      have hstep := step_of_error (hperform.trans
        (SessionStep.bind_of_error (SessionStep.call_of_error hvalidate) _))
      exact .inr (.inl ⟨index, congrArg Prod.fst hstep, hunset⟩)

/-- **What every session keeps.**  Let a session of the checked build carry out any operations, and let
each of them succeed or fail.

The arity of every constraint is positive, and so are the counts of variables and slots of every
problem.  A constraint in a slot of a problem has only variables of the problem; as long as it is
known by its number, it is the frozen constraint of this number.  So when a problem is to be validated
while the library is active, either all its slots are set and it is valid, or the answer is a slot
that is not set.

Every place holds what was written to it last: arities, checkers and counts, which only the creation
writes, are those of the creation, and a slot or a domain has the argument of the last operation that
set it, or what it had at the creation.

No operation that is not a change makes a difference to constraints and problems.  Neither does a
change that fails, but for two: a constraint whose variables cannot be set is given up, and a list of
sizes is set up to the last domain.  If the variable of a constraint, a domain or the constraint in a
slot is set with success, the place was there; it holds the argument, and all other places hold what
they held before. -/
theorem places_hold_lastWritten (active : Bool) (own : τ) (operations : List (Operation τ κ)) :
    let session := (start active own : Session τ κ).after .checked operations
    let history := (start active own : Session τ κ).history .checked operations
    session.holdings.Sound ∧
      (∀ p posed, session.problems[p]? = some posed →
        let answer := (session.step .checked (.validate p)).1
        (answer = .ok .done ∧ ∀ slot ∈ posed.problem.slots, ∃ constraint, slot = some constraint) ∨
          (∃ index : Nat, answer = .error (.failed (.problem (.unsetConstraint index))) ∧
            posed.problem.slots[index]? = some none) ∨
          answer = .error (.failed (.fault .inactive)) ∧ session.library.isActive = false) ∧
      (∀ place content, session.holdings.content? place = some content →
        lastWritten? history place = some content) ∧
      ∀ operation : Operation τ κ,
        let answer := (session.step .checked operation).1
        let after := (session.step .checked operation).2
        (operation.isChange = false → after.holdings = session.holdings) ∧
          (∀ objection, answer = .error objection → operation.isAtomic = true →
            (∀ c : Nat, after.constraints[c]?.map (·.constraint) =
                session.constraints[c]?.map (·.constraint)) ∧
              after.problems = session.problems) ∧
          ∀ place content value, session.holdings.assignment? operation = some (place, content) →
            answer = .ok value → session.holdings.Writes after.holdings place content := by
  intro session history
  have hsound : session.holdings.Sound := sound_after active own operations
  refine ⟨hsound, fun p posed hposed => step_validate_cases hsound hposed,
    fun place content => content?_after active own operations, fun operation => ?_⟩
  -- The rest is about one more operation, and is read off its effect.
  have heffect := session.effect_step operation
  refine ⟨heffect.eq_of_unchanging, ?_, ?_⟩
  · intro objection hobjection hatomic
    rw [hobjection] at heffect
    exact heffect.unchanged hatomic
  · intro place content value hassignment hvalue
    rw [hvalue] at heffect
    exact heffect.writes hassignment

/-- A constraint is taken by one problem and refused by another one, which has fewer variables.  Some
more operations fail: one on a slot that the constraint does not have, one on the constraint when it
is frozen, and one that has a size too many. -/
def shared : List (Operation Unit Unit) :=
  [.newConstraint 0 2 (.ofPure 0 fun _ _ _ => .ok true), .setVariable 0 1 2, .setVariable 0 5 9,
    .newProblem 0 3 2, .newProblem 1 2 1, .setConstraint 0 1 0, .setConstraint 1 0 0,
    .setVariable 0 0 1, .setDomains 0 [4, 5, 6, 7]]

/-- What was set with success is there.  The first problem waits for its other slot, and when this is
set nothing else changes. -/
theorem places_hold_lastWritten_shared :
    let session : Session Unit Unit := (start true ()).after .checked shared
    let history := (start true () : Session Unit Unit).history .checked shared
    let slot : Place := .ofConstraint 0 (.slot 1)
    let domain : Place := .ofProblem 0 (.domain 2)
    (session.holdings.content? slot = some (.number 2) ∧
        lastWritten? history slot = some (.number 2)) ∧
      (session.holdings.content? domain = some (.number 6) ∧
        lastWritten? history domain = some (.number 6)) ∧
      (∃ posed, session.problems[0]? = some posed ∧ ∃ index : Nat,
        (session.step .checked (.validate 0)).1 =
            .error (.failed (.problem (.unsetConstraint index))) ∧
          posed.problem.slots[index]? = some none) ∧
      ((session.step .checked (.setDomain 0 3 1)).1 =
          .error (.failed (.fault (.domainIndex 3 3))) ∧
        (session.step .checked (.setDomain 0 3 1)).2.problems = session.problems) ∧
      (session.step .checked (.setConstraint 0 0 0)).1 = .ok .done ∧
        session.holdings.Writes (session.step .checked (.setConstraint 0 0 0)).2.holdings
          (.ofProblem 0 (.slot 0)) (.slot (session.constraints[0]?.map (·.constraint))) := by
  intro session history slot domain
  obtain ⟨-, hvalidate, hwritten, hstep⟩ := places_hold_lastWritten true () shared
  have hslot : session.holdings.content? slot = some (.number 2) := rfl
  have hdomain : session.holdings.content? domain = some (.number 6) := rfl
  have hsome : session.problems[0]?.isSome := by decide +kernel
  obtain ⟨posed, hposed⟩ := Option.isSome_iff_exists.1 hsome
  have hrefused : (session.step .checked (.setDomain 0 3 1)).1 =
      .error (.failed (.fault (.domainIndex 3 3))) := by decide +kernel
  have hdone : (session.step .checked (.setConstraint 0 0 0)).1 = .ok .done := by decide +kernel
  obtain ⟨-, hunchanged, -⟩ := hstep (.setDomain 0 3 1)
  obtain ⟨-, -, hwrites⟩ := hstep (.setConstraint 0 0 0)
  refine ⟨⟨hslot, hwritten slot _ hslot⟩, ⟨hdomain, hwritten domain _ hdomain⟩,
    ⟨posed, hposed, ?_⟩, ⟨hrefused, (hunchanged _ hrefused rfl).2⟩, hdone, hwrites _ _ _ rfl hdone⟩
  have hinvalid : (session.step .checked (.validate 0)).1 ≠ .ok .done := by decide +kernel
  have hactive : session.library.isActive = true := by decide +kernel
  rcases hvalidate 0 posed hposed with ⟨hok, -⟩ | hunset | ⟨-, hinactive⟩
  · exact absurd hok hinvalid
  · exact hunset
  · exact absurd (hactive.symm.trans hinactive) nofun

end Session

end ConstraintSearch
