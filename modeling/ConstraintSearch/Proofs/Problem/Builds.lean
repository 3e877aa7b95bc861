import ConstraintSearch.Proofs.Problem.Valid

/-!
# Problems in two builds

Some faults are met in the checked build only (`Fault.isChecked`).  The unchecked build spares them,
and then it may do anything; but unless it spares a fault, it does the same as the checked build.
`Agree` is this relation between what a computation comes to in a given build and in the unchecked
one.

A checker is compiled with the build, so it has two forms, which agree as well (`Checker.Agrees`).
Two problems are alike if they differ only in the forms of their checkers.  Then whatever is read off
them is the same, and so is the scan, unless it ends in a fault that is spared (`Problem.Alike.scan`).

`Fault.bind_unchecked` is the rule for computations in words: if the whole meets no fault that is
spared, neither does its first part, so both builds go on from the same value.
-/

namespace ConstraintSearch

variable {σ κ : Type} {build : Build}

/-- Whether the fault is met in the checked build only. -/
def Fault.isChecked : Fault → Bool
  | .inactive | .unbalancedRelease | .foreignVariable .. | .overflow _ => true
  | _ => false

/-- The unchecked build spares the fault, and the given build does not. -/
def Fault.Spared (build : Build) (fault : Fault) : Prop :=
  build = .checked ∧ fault.isChecked = true

/-- What a computation comes to in a given build, and in the unchecked build.  Unless this spares an
error, both end alike. -/
inductive Agree {ε ς ς' ν ν' : Type} (spared : ε → Prop) (states : ς → ς' → Prop)
    (values : ν → ν' → Prop) : EStateM.Result ε ς ν → EStateM.Result ε ς' ν' → Prop where
  | ok {value : ν} {value' : ν'} {state : ς} {state' : ς'} (hvalues : values value value')
      (hstates : states state state') :
      Agree spared states values (.ok value state) (.ok value' state')
  | error {error : ε} {state : ς} {state' : ς'} (hstates : states state state') :
      Agree spared states values (.error error state) (.error error state')
  | spared {error : ε} {state : ς} (other : EStateM.Result ε ς' ν') (hspared : spared error) :
      Agree spared states values (.error error state) other

theorem Agree.refl {ε ς ν : Type} {spared : ε → Prop} (result : EStateM.Result ε ς ν) :
    Agree spared Eq Eq result result := by
  cases result with
  | ok value state => exact .ok (rfl) (rfl)
  | error error state => exact .error (rfl)

/-- Where all is equal, agreeing is being equal unless an error is spared. -/
theorem Agree.eq_of_not_spared {ε ς ν : Type} {spared : ε → Prop}
    {result other : EStateM.Result ε ς ν} (h : Agree spared Eq Eq result other)
    (hspared : ∀ error state, result = .error error state → ¬spared error) : other = result := by
  cases h with
  | ok hvalues hstates => rw [hvalues, hstates]
  | error hstates => rw [hstates]
  | spared _ herror => exact absurd herror (hspared _ _ (rfl))

/-! ## Computations in words -/

/-- The unchecked build spares nothing to itself. -/
theorem Fault.not_spared_unchecked (fault : Fault) : ¬fault.Spared .unchecked :=
  fun h => nomatch h.1

/-- The computation does not end in a fault that is spared. -/
def Fault.Unspared {α : Type} (build : Build) (result : Except Fault α) : Prop :=
  ∀ fault, result = .error fault → ¬fault.Spared build

theorem Fault.not_spared_of_error {α : Type} (fault : Fault)
    (h : Fault.Unspared build (.error fault : Except Fault α)) : ¬fault.Spared build :=
  h fault rfl

/-- Sums that are words are the same in both builds. -/
theorem Build.add_unchecked {a b : Nat} (hspared : Fault.Unspared build (build.add a b)) :
    Build.unchecked.add a b = build.add a b := by
  unfold Build.add Build.asWord at hspared ⊢
  by_cases hword : a + b < wordCount
  · rw [if_pos hword, if_pos hword]
  · rw [if_neg hword] at hspared ⊢
    rw [if_neg hword]
    cases build with
    | checked => exact absurd ⟨rfl, rfl⟩ (hspared _ rfl)
    | unchecked => rfl

/-- Computations that differ only where a fault is spared can be put together.  What is known of the
whole, that it is `kept`, is to rule out such faults. -/
theorem Fault.bind_unchecked {α β : Type} {first first' : Except Fault α}
    {next next' : α → Except Fault β} {kept : Except Fault β → Prop}
    (hkept : ∀ fault, kept (.error fault) → ¬fault.Spared build)
    (h : kept (first >>= next)) (hfirst : Fault.Unspared build first → first' = first)
    (hnext : ∀ value, kept (next value) → next' value = next value) :
    first' >>= next' = first >>= next := by
  cases first with
  | ok value =>
      rw [hfirst nofun]
      exact hnext value h
  | error fault =>
      rw [hfirst (by
        rintro _ ⟨⟩
        exact hkept fault h)]
      rfl

/-! ## Checkers, constraints and problems -/

/-- The two forms of a checker: the one compiled with the given build, and the unchecked one. -/
structure Checker.Agrees (build : Build) (checker checker' : Checker σ κ) : Prop where
  identity : checker'.identity = checker.identity
  check : ∀ scope assignment context memory,
    Agree (Fault.Spared build) Eq Eq (checker.check scope assignment context memory)
      (checker'.check scope assignment context memory)

theorem Checker.Agrees.refl (checker : Checker σ κ) : checker.Agrees build checker where
  identity := rfl
  check _ _ _ _ := .refl _

theorem Checker.Agrees.eq_of_unchecked {checker checker' : Checker σ κ}
    (h : checker.Agrees .unchecked checker') : checker' = checker := by
  obtain ⟨identity, check⟩ := checker
  obtain ⟨identity', check'⟩ := checker'
  obtain rfl : identity' = identity := h.identity
  have hcheck : check' = check := by
    funext scope assignment context memory
    exact (h.check scope assignment context memory).eq_of_not_spared
      fun fault _ _ => fault.not_spared_unchecked
  rw [hcheck]

/-- A checker without a memory agrees if its answers do, unless they are faults that are spared. -/
theorem Checker.agrees_ofPure {identity : Nat}
    {answer answer' : List Nat → Array Nat → κ → Except Fault Bool}
    (h : ∀ scope assignment context, Fault.Unspared build (answer scope assignment context) →
      answer' scope assignment context = answer scope assignment context) :
    (ofPure identity answer : Checker σ κ).Agrees build (ofPure identity answer') where
  identity := rfl
  check := by
    intro scope assignment context memory
    have hsame := h scope assignment context
    simp only [ofPure]
    cases hanswer : answer scope assignment context with
    | ok accepted =>
        rw [hsame (by rw [hanswer]; nofun), hanswer]
        exact .refl _
    | error fault =>
        -- A failure that the build spares leaves the other form free; one that it does not spare
        -- binds it, as an answer does.
        by_cases hspared : fault.Spared build
        · exact .spared _ hspared
        · rw [hsame (by rw [hanswer]; rintro _ ⟨⟩; exact hspared), hanswer]
          exact .refl _

/-- The same constraint in the two builds. -/
structure Constraint.Alike (build : Build) (constraint constraint' : Constraint σ κ) : Prop where
  scope : constraint'.scope = constraint.scope
  checker : constraint.checker.Agrees build constraint'.checker

theorem eq_of_optionRel {ν : Type} {rel : ν → ν → Prop}
    (h : ∀ value other, rel value other → other = value) {slot other : Option ν}
    (hrel : Option.Rel rel slot other) : other = slot := by
  cases hrel with
  | none => rfl
  | some hvalue => rw [h _ _ hvalue]

/-- The same problem in the two builds. -/
structure Problem.Alike (build : Build) (problem problem' : Problem σ κ) : Prop where
  domains : problem'.domains = problem.domains
  slots : ∀ index : Nat, Option.Rel (Option.Rel (Constraint.Alike build)) problem.slots[index]?
    problem'.slots[index]?

namespace Constraint.Alike

variable {constraint constraint' : Constraint σ κ}

theorem refl (constraint : Constraint σ κ) : constraint.Alike build constraint :=
  ⟨rfl, .refl _⟩

theorem eq_of_unchecked (h : constraint.Alike .unchecked constraint') :
    constraint' = constraint := by
  obtain ⟨scope, checker⟩ := constraint
  obtain ⟨scope', checker'⟩ := constraint'
  obtain rfl : scope' = scope := h.scope
  obtain rfl : checker' = checker := h.checker.eq_of_unchecked
  rfl

theorem arity (h : constraint.Alike build constraint') : constraint'.arity = constraint.arity :=
  congrArg List.length h.scope

theorem maxVariable (h : constraint.Alike build constraint') :
    constraint'.maxVariable = constraint.maxVariable :=
  congrArg (List.foldl max 0) h.scope

theorem isApplicable (h : constraint.Alike build constraint') (frontier : Nat) :
    constraint'.isApplicable frontier = constraint.isApplicable frontier :=
  congrArg (List.all · (· < frontier)) h.scope

theorem outline (h : constraint.Alike build constraint') :
    constraint'.outline = constraint.outline :=
  congrArg (fun scope => Outline.record "Constraint" [("variables", .numbers scope)] false) h.scope

theorem check (h : constraint.Alike build constraint') (assignment : Array Nat) (context : κ)
    (memory : σ) :
    Agree (Fault.Spared build) Eq Eq (constraint.check assignment context memory)
      (constraint'.check assignment context memory) := by
  unfold Constraint.check
  rw [h.scope]
  exact h.checker.check _ _ _ _

end Constraint.Alike

namespace Problem.Alike

variable {problem problem' : Problem σ κ}

theorem refl (problem : Problem σ κ) : problem.Alike build problem where
  domains := rfl
  slots := by
    intro index
    cases problem.slots[index]? with
    | none => exact .none
    | some slot =>
        cases slot with
        | none => exact .some .none
        | some constraint => exact .some (.some (.refl constraint))

theorem eq_of_unchecked (h : problem.Alike .unchecked problem') : problem' = problem := by
  obtain ⟨domains, slots⟩ := problem
  obtain ⟨domains', slots'⟩ := problem'
  obtain rfl : domains' = domains := h.domains
  obtain rfl : slots' = slots := by
    apply Array.ext_getElem?
    intro index
    exact eq_of_optionRel (fun _ _ => eq_of_optionRel fun _ _ => Constraint.Alike.eq_of_unchecked)
      (h.slots index)
  rfl

theorem size_slots (h : problem.Alike build problem') :
    problem'.slots.size = problem.slots.size := by
  have hmissing : ∀ index : Nat, problem.slots[index]? = none ↔ problem'.slots[index]? = none := by
    intro index
    have hslot := h.slots index
    generalize problem.slots[index]? = slot, problem'.slots[index]? = slot' at hslot
    cases hslot with
    | none => exact ⟨id, id⟩
    | some _ => exact ⟨nofun, nofun⟩
  simp only [Array.getElem?_eq_none_iff] at hmissing
  exact Nat.le_antisymm ((hmissing _).1 (Nat.le_refl _)) ((hmissing _).2 (Nat.le_refl _))

/-- What is read off the slots without asking a checker is the same. -/
theorem map_slots (h : problem.Alike build problem') {γ : Type}
    {read : Option (Constraint σ κ) × Nat → γ}
    (hread : ∀ slot slot' index, Option.Rel (Constraint.Alike build) slot slot' →
      read (slot', index) = read (slot, index)) :
    problem'.slots.toList.zipIdx.map read = problem.slots.toList.zipIdx.map read := by
  apply List.ext_getElem?
  intro index
  rw [List.getElem?_map, List.getElem?_map, List.getElem?_zipIdx, List.getElem?_zipIdx,
    Array.getElem?_toList, Array.getElem?_toList]
  have hslot := h.slots index
  generalize problem.slots[index]? = slot, problem'.slots[index]? = slot' at hslot
  cases hslot with
  | none => rfl
  | some hslot => exact congrArg some (hread _ _ _ hslot)

theorem flaw? (h : problem.Alike build problem') : problem'.flaw? = problem.flaw? := by
  let flaw (entry : Option (Constraint σ κ) × Nat) := slotFlaw? problem.domains.size entry.2 entry.1
  have hflaws : problem'.slots.toList.zipIdx.map flaw = problem.slots.toList.zipIdx.map flaw := by
    refine h.map_slots fun slot slot' index hslot => ?_
    cases hslot with
    | none => rfl
    | some hslot => simp only [flaw, slotFlaw?, hslot.scope]
  unfold Problem.flaw?
  rw [h.domains]
  calc problem'.slots.toList.zipIdx.findSome? flaw
      = (problem'.slots.toList.zipIdx.map flaw).findSome? id := by
        rw [List.findSome?_map]
        rfl
    _ = (problem.slots.toList.zipIdx.map flaw).findSome? id := by rw [hflaws]
    _ = problem.slots.toList.zipIdx.findSome? flaw := by
        rw [List.findSome?_map]
        rfl

theorem outline (h : problem.Alike build problem') : problem'.outline = problem.outline := by
  let shown (slot : Option (Constraint σ κ)) := Outline.optional Constraint.outline slot
  have hslots : problem'.slots.toList.zipIdx.map (shown ∘ Prod.fst) =
      problem.slots.toList.zipIdx.map (shown ∘ Prod.fst) := by
    refine h.map_slots fun slot slot' index hslot => ?_
    cases hslot with
    | none => rfl
    | some hslot => simp only [shown, Function.comp, Outline.optional, hslot.outline]
  simp only [← List.map_map, List.zipIdx_map_fst] at hslots
  unfold Problem.outline
  rw [h.domains, hslots]

/-! ## Scans -/

variable {assignment : Array Nat} {context : κ} {frontier : Nat}

/-- An unset slot is one in the unchecked build too. -/
private theorem scanFrom_of_unset (h : problem.Alike build problem') {index : Nat}
    (hslot : problem.slots[index]? = some none) (calls : Nat) (memory : σ) :
    problem'.scanFrom assignment context frontier index calls memory =
      { answer := .error (.unsetSlot index), calls, memory } := by
  have hrel := h.slots index
  rw [hslot] at hrel
  generalize hslot' : problem'.slots[index]? = slot' at hrel
  cases hrel with
  | some hrel =>
      cases hrel with
      | none =>
          obtain ⟨hindex, hget⟩ := Array.getElem?_eq_some_iff.1 hslot'
          rw [Problem.scanFrom, dif_pos hindex, hget]

/-- A slot that is set is so in the unchecked build too, and unless the fault of its checker is
spared, the scan does there what it does in the given build. -/
private theorem scanFrom_of_set (h : problem.Alike build problem') {index : Nat}
    {constraint : Constraint σ κ} (hslot : problem.slots[index]? = some (some constraint))
    (calls : Nat) (memory : σ)
    (hspared : ∀ fault after, constraint.check assignment context memory = .error fault after →
      constraint.isApplicable frontier = true → ¬fault.Spared build) :
    problem'.scanFrom assignment context frontier index calls memory =
      if constraint.isApplicable frontier then
        match constraint.check assignment context memory with
        | .ok true memory =>
            problem'.scanFrom assignment context frontier (index + 1) (calls + 1) memory
        | .ok false memory => { answer := .ok false, calls := calls + 1, memory }
        | .error fault memory => { answer := .error fault, calls := calls + 1, memory }
      else problem'.scanFrom assignment context frontier (index + 1) calls memory := by
  have hrel := h.slots index
  rw [hslot] at hrel
  generalize hslot' : problem'.slots[index]? = slot' at hrel
  cases hrel with
  | some hrel =>
      cases hrel with
      | some hrel =>
          obtain ⟨hindex, hget⟩ := Array.getElem?_eq_some_iff.1 hslot'
          rw [Problem.scanFrom, dif_pos hindex, hget]
          simp only [hrel.isApplicable]
          by_cases happlicable : constraint.isApplicable frontier = true
          · -- The answers agree, and no spared failure stands between them: here `hspared` is used.
            have hcheck := (hrel.check assignment context memory).eq_of_not_spared
              fun fault after herror => hspared fault after herror happlicable
            cases hown : constraint.check assignment context memory with
            | ok accepted after =>
                cases accepted <;> simp only [if_pos happlicable, hcheck, hown]
            | error fault after => simp only [if_pos happlicable, hcheck, hown]
          · simp only [if_neg happlicable]

private theorem scanFrom (h : problem.Alike build problem') (index calls : Nat) (memory : σ)
    (hspared : ∀ fault,
      (problem.scanFrom assignment context frontier index calls memory).answer = .error fault →
        ¬fault.Spared build) :
    problem'.scanFrom assignment context frontier index calls memory =
      problem.scanFrom assignment context frontier index calls memory := by
  -- Follow the recursion of the scan of the given problem.  Only in the cases in which a constraint
  -- is asked has the hypothesis about spared failures to be passed on: an answer is no failure, and
  -- the one failure there can be is the answer of the whole scan.
  fun_induction Problem.scanFrom problem assignment context frontier index calls memory with
  | case1 index calls memory hindex hslot =>
      exact h.scanFrom_of_unset (Array.getElem?_eq_some_iff.2 ⟨hindex, hslot⟩) calls memory
  | case2 index calls memory hindex constraint hslot happlicable after hcheck ih =>
      have hanswered : ∀ fault other, constraint.check assignment context memory =
          .error fault other → constraint.isApplicable frontier = true → ¬fault.Spared build := by
        intro fault other herror
        rw [hcheck] at herror
        cases herror
      rw [h.scanFrom_of_set (Array.getElem?_eq_some_iff.2 ⟨hindex, hslot⟩) calls memory hanswered,
        if_pos happlicable, hcheck]
      exact ih hspared
  | case3 index calls memory hindex constraint hslot happlicable after hcheck =>
      have hanswered : ∀ fault other, constraint.check assignment context memory =
          .error fault other → constraint.isApplicable frontier = true → ¬fault.Spared build := by
        intro fault other herror
        rw [hcheck] at herror
        cases herror
      rw [h.scanFrom_of_set (Array.getElem?_eq_some_iff.2 ⟨hindex, hslot⟩) calls memory hanswered,
        if_pos happlicable, hcheck]
  | case4 index calls memory hindex constraint hslot happlicable fault after hcheck =>
      have hfault : ∀ other last, constraint.check assignment context memory =
          .error other last → constraint.isApplicable frontier = true → ¬other.Spared build := by
        intro other last herror _
        rw [hcheck] at herror
        cases herror
        exact hspared fault rfl
      rw [h.scanFrom_of_set (Array.getElem?_eq_some_iff.2 ⟨hindex, hslot⟩) calls memory hfault,
        if_pos happlicable, hcheck]
  | case5 index calls memory hindex constraint hslot happlicable ih =>
      rw [h.scanFrom_of_set (Array.getElem?_eq_some_iff.2 ⟨hindex, hslot⟩) calls memory
        (fun _ _ _ h => absurd h happlicable), if_neg happlicable]
      exact ih hspared
  | case6 index calls memory hindex =>
      rw [Problem.scanFrom, dif_neg (h.size_slots ▸ hindex)]

/-- Unless the fault that a scan ends in is spared, the scan is the same. -/
theorem scan (h : problem.Alike build problem') {memory : σ}
    (hspared : ∀ fault, (problem.scan assignment context frontier memory).answer = .error fault →
      ¬fault.Spared build) :
    problem'.scan assignment context frontier memory =
      problem.scan assignment context frontier memory :=
  h.scanFrom 0 0 memory hspared

end Problem.Alike

end ConstraintSearch
