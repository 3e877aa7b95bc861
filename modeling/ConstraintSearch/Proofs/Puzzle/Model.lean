import ConstraintSearch.Proofs.Action
import ConstraintSearch.Proofs.Search.WithinDomains
import ConstraintSearch.Puzzle.Model
import Mathlib.Order.Bounds.Basic

/-!
# Solving a model

To solve a model is to build its problem and to search for values of all variables.  On an active
library this never fails if the model is fit to be put as a problem (`Fit`) and its checkers are
local on the domain (`Local`).  The answer is then the lexicographically least solution, or there is
none (`Fit.yields_solve`).

What is left for a puzzle is to show that its model is fit, that its checkers are local, and that
the solutions of the model (`Solves`) are those of the puzzle (`Fit.yields_answer`).

## Strategy

* Building: each operation succeeds if its precondition holds (`Constraint.yields_create` and so on),
  and loops over slots fill them one by one (`Action.Yields.fill`).  So the problem of a fit model is
  `made`, whose slots are the constraints of the model in order (`Fit.yields_problem`).
* Searching: `made` completes the empty tuple by exactly the solutions of the model
  (`completes_made_iff`), so the least extension that the search finds is the least solution.
* Giving up: dropping problem and model changes neither the answer nor that there is one.
-/

namespace ConstraintSearch

variable {κ ι : Type} {build : Build}

/-! ## Building -/

namespace Constraint

variable {σ : Type} {checker : Checker σ κ}

theorem yields_create {arity : Nat} (hpos : 0 < arity) (hroom : hasRoom arity = true) :
    (Constraint.create arity checker).Yields build
      (· = { scope := List.replicate arity 0, checker }) := by
  unfold Constraint.create
  refine Action.yields_requireActive.bind fun _ _ => ?_
  refine (Action.yields_require (decide_eq_true hpos)).bind fun _ _ => ?_
  simp only [hroom, Bool.not_true, Bool.false_eq_true, if_false]
  refine (Action.yields_record _).bind fun _ _ => ?_
  exact .pure rfl

theorem yields_setVariable {constraint : Constraint σ κ} {index v : Nat}
    (hindex : index < constraint.scope.length) :
    (constraint.setVariable index v).Yields build
      (· = { constraint with scope := constraint.scope.set index v }) := by
  unfold Constraint.setVariable
  refine Action.yields_requireActive.bind fun _ _ => ?_
  refine (Action.yields_require (decide_eq_true hindex)).bind fun _ _ => ?_
  exact .pure rfl

theorem determined_create (arity : Nat) (checker : Checker σ κ) :
    (Constraint.create arity checker).Determined build := by
  refine (Action.determined_unit _).bind fun _ => ?_
  refine (Action.determined_unit _).bind fun _ => .unlessRefused ?_
  exact (Action.determined_unit _).bind fun _ => Action.determined_pure _

theorem determined_setVariable (constraint : Constraint σ κ) (index v : Nat) :
    (constraint.setVariable index v).Determined build := by
  refine (Action.determined_unit _).bind fun _ => ?_
  exact (Action.determined_unit _).bind fun _ => Action.determined_pure _

end Constraint

namespace Problem

variable {σ : Type} {problem : Problem σ κ}

theorem yields_create {domains slots : Nat} (hdomains : 0 < domains) (hslots : 0 < slots)
    (hroom : hasRoom domains = true) (hroom' : hasRoom slots = true) :
    (Problem.create domains slots : Action (Problem σ κ)).Yields build
      (· = { domains := Array.replicate domains 0, slots := Array.replicate slots none }) := by
  unfold Problem.create
  refine Action.yields_requireActive.bind fun _ _ => ?_
  refine (Action.yields_require (decide_eq_true hdomains)).bind fun _ _ => ?_
  refine (Action.yields_require (decide_eq_true hslots)).bind fun _ _ => ?_
  simp only [hroom, hroom', Bool.not_true, Bool.false_eq_true, if_false]
  refine (Action.yields_record _).bind fun _ _ => ?_
  exact .pure rfl

theorem yields_setDomain {index size : Nat} (hindex : index < problem.domains.size) :
    (problem.setDomain index size).Yields build
      (· = { problem with domains := problem.domains.setIfInBounds index size }) := by
  unfold Problem.setDomain
  refine Action.yields_requireActive.bind fun _ _ => ?_
  refine (Action.yields_require (decide_eq_true hindex)).bind fun _ _ => ?_
  exact .pure rfl

theorem yields_setConstraint {index : Nat} {constraint : Constraint σ κ}
    (hindex : index < problem.slots.size)
    (hscope : constraint.maxVariable < problem.domains.size) :
    (problem.setConstraint index constraint).Yields build
      (· = { problem with slots := problem.slots.setIfInBounds index (some constraint) }) := by
  unfold Problem.setConstraint
  refine Action.yields_requireActive.bind fun _ _ => ?_
  refine (Action.yields_require (decide_eq_true hindex)).bind fun _ _ => ?_
  refine (Action.yields_requireChecked (decide_eq_true hscope)).bind fun _ _ => ?_
  exact .pure rfl

theorem determined_create (domains slots : Nat) :
    (Problem.create domains slots : Action (Problem σ κ)).Determined build := by
  refine (Action.determined_unit _).bind fun _ => ?_
  refine (Action.determined_unit _).bind fun _ => ?_
  refine (Action.determined_unit _).bind fun _ => .unlessRefused (.unlessRefused ?_)
  exact (Action.determined_unit _).bind fun _ => Action.determined_pure _

theorem determined_setDomain (problem : Problem σ κ) (index size : Nat) :
    (problem.setDomain index size).Determined build := by
  refine (Action.determined_unit _).bind fun _ => ?_
  exact (Action.determined_unit _).bind fun _ => Action.determined_pure _

theorem determined_setConstraint (problem : Problem σ κ) (index : Nat)
    (constraint : Constraint σ κ) : (problem.setConstraint index constraint).Determined build := by
  refine (Action.determined_unit _).bind fun _ => ?_
  refine (Action.determined_unit _).bind fun _ => ?_
  exact (Action.determined_unit _).bind fun _ => Action.determined_pure _

end Problem

namespace Search

variable {search : Search Unit κ} {buffer : Array Nat} {library : Library}

theorem within_of_ok {result : Result}
    (houtcome : (search.perform buffer () build library).outcome = .ok result) :
    search.within buffer build library =
      .ok (result, (search.perform buffer () build library).buffer)
        (search.perform buffer () build library).library := by
  unfold within
  generalize search.perform buffer () build library = report at houtcome ⊢
  obtain ⟨outcome, buffer, memory, after⟩ := report
  simp only at houtcome
  subst houtcome
  rfl

/-- A search does not change the activations. -/
theorem Ready.isActive_perform (hready : search.Ready buffer build library)
    (hactive : library.isActive = true) :
    (search.perform buffer () build library).library.isActive = true := by
  rw [hready.perform_eq]
  obtain ⟨ending, state⟩ := search.run buffer () library.log
  cases ending <;> exact hactive

end Search

namespace Model

theorem yields_addConstraint {constraints : Array (Constraint Unit κ)}
    {checker : Checker Unit κ} {scope : List Nat} (hpos : 0 < scope.length)
    (hroom : hasRoom scope.length = true) :
    (addConstraint constraints checker scope).Yields build
      (· = constraints.push { scope, checker }) := by
  unfold addConstraint
  refine (Constraint.yields_create hpos hroom).bind ?_
  rintro _ rfl
  -- The slots of the new constraint are set one after the other, from zeros to the scope.
  have hset : ∀ (front : List Nat) (old : Nat) (behind : List Nat), ∀ v ∈ scope,
      (Constraint.setVariable ⟨front ++ old :: behind, checker⟩ front.length v).Yields build
        (· = ⟨front ++ v :: behind, checker⟩) := by
    intro front old behind v _
    refine (Constraint.yields_setVariable (by simp)).mono ?_
    rintro _ rfl
    simp
  refine (Action.Yields.fill
    (fun constraint entry => Constraint.setVariable constraint entry.2 entry.1)
    (fun scope => { scope, checker }) id hset List.length_replicate).bind ?_
  rintro _ rfl
  rw [List.map_id]
  exact .pure rfl

/-- A loop that adds constraints with one checker. -/
theorem yields_addConstraints {checker : Checker Unit κ} {scope : ι → List Nat}
    (hpos : ∀ item, 0 < (scope item).length) (hroom : ∀ item, hasRoom (scope item).length = true)
    (constraints : Array (Constraint Unit κ)) (items : List ι) :
    Action.Yields
      (items.foldlM (fun constraints item => addConstraint constraints checker (scope item))
        constraints) build
      (·.toList =
        constraints.toList ++ items.map fun item => { scope := scope item, checker }) := by
  refine Action.Yields.foldlM (fun past (made : Array (Constraint Unit κ)) => made.toList =
    constraints.toList ++ past.map fun item => { scope := scope item, checker })
    (List.append_nil _).symm items ?_
  intro past item made _ hmade
  refine (yields_addConstraint (hpos item) (hroom item)).mono ?_
  rintro _ rfl
  rw [Array.toList_push, hmade, List.map_append, List.append_assoc]
  rfl

theorem determined_addConstraint (constraints : Array (Constraint Unit κ))
    (checker : Checker Unit κ) (scope : List Nat) :
    (addConstraint constraints checker scope).Determined build := by
  refine (Constraint.determined_create _ _).bind fun created => ?_
  refine Action.Determined.bind ?_ fun _ => Action.determined_pure _
  exact .foldlM (fun constraint entry => constraint.determined_setVariable entry.2 entry.1) _ _

/-! ## The problem of a model -/

variable {model : Model κ}

/-- The model can be put as a problem: it has variables and constraints, not too many of either, and
its constraints refer to its variables only. -/
structure Fit (model : Model κ) : Prop where
  variables_pos : 0 < model.variableCount
  constraints_pos : 0 < model.constraints.size
  variables_room : hasRoom model.variableCount = true
  constraints_room : hasRoom model.constraints.size = true
  scope_lt : ∀ constraint ∈ model.constraints, ∀ v ∈ constraint.scope, v < model.variableCount

/-- The problem of the model. -/
def made (model : Model κ) : Problem Unit κ where
  domains := Array.replicate model.variableCount model.domainSize
  slots := model.constraints.map some

theorem Fit.flaw? (hfit : model.Fit) : model.made.flaw? = none := by
  rw [Problem.flaw?_eq_none_iff]
  intro index slot hslot
  simp only [made, Array.getElem?_map, Option.map_eq_some_iff] at hslot
  obtain ⟨constraint, hconstraint, rfl⟩ := hslot
  refine ⟨constraint, rfl, ?_⟩
  intro v hv
  rw [made, Array.size_replicate]
  exact hfit.scope_lt constraint (Array.mem_of_getElem? hconstraint) v hv

private theorem range_eq_zipIdx (count : Nat) :
    List.range count = (List.replicate count ()).zipIdx.map Prod.snd := by
  rw [List.zipIdx_map_snd, List.length_replicate, List.range_eq_range']

/-- The domains are set one after the other. -/
private theorem yields_setDomains (count size : Nat) (slots : Array (Option (Constraint Unit κ))) :
    Action.Yields
      ((List.range count).foldlM (fun problem v => Problem.setDomain problem v size)
        { domains := Array.replicate count 0, slots }) build
      (· = { domains := Array.replicate count size, slots }) := by
  rw [range_eq_zipIdx, List.foldlM_map, ← List.toArray_replicate]
  refine (Action.Yields.fill (fun (problem : Problem Unit κ) item => problem.setDomain item.2 size)
    (fun sizes => { domains := sizes.toArray, slots }) (fun _ : Unit => size) ?_
    (by rw [List.length_replicate, List.length_replicate])).mono ?_
  · intro front old behind _ _
    refine (Problem.yields_setDomain (by simp)).mono ?_
    rintro _ rfl
    simp
  · rintro _ rfl
    simp

theorem Fit.yields_problem (hfit : model.Fit) : model.problem.Yields build (· = model.made) := by
  unfold Model.problem
  refine (Problem.yields_create hfit.variables_pos hfit.constraints_pos hfit.variables_room
    hfit.constraints_room).bind ?_
  rintro _ rfl
  refine (yields_setDomains _ _ _).bind ?_
  rintro _ rfl
  rw [← List.toArray_replicate]
  refine (Action.Yields.fill
    (fun (problem : Problem Unit κ) item => problem.setConstraint item.2 item.1)
    (fun slots => {
      domains := Array.replicate model.variableCount model.domainSize
      slots := slots.toArray }) some ?_ List.length_replicate).mono ?_
  · intro front old behind constraint hmem
    refine (Problem.yields_setConstraint (by simp) ?_).mono ?_
    · rw [Array.size_replicate]
      exact Constraint.maxVariable_lt hfit.variables_pos
        (hfit.scope_lt constraint (Array.mem_def.2 hmem))
    · rintro _ rfl
      simp
  · rintro _ rfl
    rw [← Array.toList_map]
    rfl

theorem determined_problem (model : Model κ) : model.problem.Determined build := by
  refine (Problem.determined_create _ _).bind fun created => ?_
  refine Action.Determined.bind ?_ fun sized => ?_
  · exact .foldlM (fun problem v => problem.determined_setDomain v model.domainSize) _ _
  · exact .foldlM (fun problem entry => problem.determined_setConstraint entry.2 entry.1) _ _

/-! ## The answer -/

variable {context : κ}

/-- The values belong to the domain, one for each variable, and every constraint accepts them. -/
structure Solves (model : Model κ) (context : κ) (values : List Nat) : Prop where
  length : values.length = model.variableCount
  lt : ∀ value ∈ values, value < model.domainSize
  accepted : ∀ constraint ∈ model.constraints,
    constraint.check values.toArray context () = .ok true ()

/-- Each checker answers by the values of its variables, as long as these belong to the domain. -/
def Local (model : Model κ) (context : κ) : Prop :=
  ∀ constraint ∈ model.constraints, ∃ verdict : List Nat → Bool, ∀ assignment : Array Nat,
    assignment.size = model.variableCount →
    (∀ v ∈ constraint.scope, ∃ value, assignment[v]? = some value ∧ value < model.domainSize) →
    constraint.check assignment context () = .ok (verdict (constraint.values assignment)) ()

/-- An answer is the least of the values that are wanted, or nothing if there are none. -/
def Answers (wanted : Set (List Nat)) : Option (List Nat) → Prop
  | some values => IsLeast wanted values
  | none => ∀ values, values ∉ wanted

theorem Answers.eq_some_iff {wanted : Set (List Nat)} {answer : Option (List Nat)}
    (h : Answers wanted answer) (values : List Nat) :
    answer = some values ↔ IsLeast wanted values := by
  cases answer with
  | some own =>
      have hleast : IsLeast wanted own := h
      rw [Option.some.injEq]
      constructor
      · rintro rfl
        exact hleast
      · exact hleast.unique
  | none =>
      constructor
      · intro hsome
        cases hsome
      · intro hleast
        exact absurd hleast.1 (h values)

theorem Answers.eq_none_iff {wanted : Set (List Nat)} {answer : Option (List Nat)}
    (h : Answers wanted answer) : answer = none ↔ ∀ values, values ∉ wanted := by
  cases answer with
  | some own =>
      constructor
      · intro hnone
        cases hnone
      · intro hempty
        exact absurd h.1 (hempty own)
  | none => exact ⟨fun _ => h, fun _ => rfl⟩

theorem mem_made {constraint : Constraint Unit κ} :
    model.made.Attached constraint ↔ constraint ∈ model.constraints := by
  simp [Problem.Attached, made]

private theorem forall₂_replicate_iff {count size : Nat} {values : List Nat} :
    List.Forall₂ (· < ·) values (List.replicate count size) ↔
      values.length = count ∧ ∀ value ∈ values, value < size := by
  induction values generalizing count with
  | nil => cases count <;> simp [List.replicate_succ]
  | cons value values ih =>
      cases count with
      | zero => simp
      | succ count =>
          rw [List.replicate_succ, List.forall₂_cons, ih, List.forall_mem_cons, List.length_cons]
          constructor
          · rintro ⟨hvalue, hlength, hlt⟩
            exact ⟨congrArg (· + 1) hlength, hvalue, hlt⟩
          · rintro ⟨hlength, hvalue, hlt⟩
            exact ⟨hvalue, Nat.succ.inj hlength, hlt⟩

theorem completes_made_iff {values : List Nat} :
    model.made.Completes context [] values ↔ model.Solves context values := by
  have hvalues : List.Forall₂ (· < ·) values (model.made.domains.toList.drop 0) ↔
      values.length = model.variableCount ∧ ∀ value ∈ values, value < model.domainSize := by
    rw [List.drop_zero, made, Array.toList_replicate]
    exact forall₂_replicate_iff
  constructor
  · rintro ⟨hforall, haccepts⟩
    obtain ⟨hlength, hlt⟩ := hvalues.1 hforall
    refine ⟨hlength, hlt, ?_⟩
    intro constraint hconstraint
    obtain ⟨_, hcheck⟩ := haccepts constraint (mem_made.2 hconstraint) ()
    exact hcheck
  · rintro ⟨hlength, hlt, haccepted⟩
    refine ⟨hvalues.2 ⟨hlength, hlt⟩, ?_⟩
    intro constraint hattached _
    exact ⟨(), haccepted constraint (mem_made.1 hattached)⟩

theorem Local.localWithin (hlocal : model.Local context) : model.made.LocalWithin context := by
  intro constraint hattached
  obtain ⟨verdict, hverdict⟩ := hlocal constraint (mem_made.1 hattached)
  refine ⟨verdict, ?_⟩
  intro assignment _ hsize hcovers
  refine hverdict assignment (hsize.trans Array.size_replicate) ?_
  intro v hv
  obtain ⟨value, size, hvalue, hdomain, hless⟩ := hcovers v hv
  rw [made, Array.getElem?_replicate] at hdomain
  split at hdomain
  · injection hdomain with hdomain
    exact ⟨value, hvalue, hdomain ▸ hless⟩
  · cases hdomain

theorem Fit.ready (hfit : model.Fit) {library : Library} (hactive : library.isActive = true) :
    ({ problem := model.made, context } : Search Unit κ).Ready
      (Array.replicate model.variableCount 0) build library where
  active _ := hactive
  config := rfl
  problem := hfit.flaw?
  length := by simp [made]
  start_le := Nat.zero_le _

/-- The search for a solution of a model finds the least one, or there is none. -/
theorem Fit.yields_within (hfit : model.Fit) (hlocal : model.Local context) :
    (({ problem := model.made, context } : Search Unit κ).within
      (Array.replicate model.variableCount 0)).Yields build fun found =>
        Answers {values | model.Solves context values}
          (if found.1.isSolved then some found.2.toList else none) := by
  intro library hactive
  have hready : ({ problem := model.made, context } : Search Unit κ).Ready
      (Array.replicate model.variableCount 0) build library := hfit.ready hactive
  have hsolves : ∀ values, values ∈ {values | model.made.Completes context [] values} ↔
      model.Solves context values := fun values => completes_made_iff
  -- The checkers are local on the domains only, which is enough for a search for all variables.
  obtain ⟨result, houtcome, hfound⟩ := hready.perform_of_localWithin ⟨rfl, rfl, fun _ _ => rfl⟩
    hlocal.localWithin rfl (by simpa [made] using hfit.variables_pos) ()
  refine ⟨_, _, Search.within_of_ok houtcome, hready.isActive_perform hactive, ?_⟩
  rcases hfound with ⟨hsolved, hleast⟩ | ⟨hexhausted, hnone⟩
  · simp only [Result.isSolved, hsolved]
    rw [Set.ext hsolves] at hleast
    exact hleast
  · simp only [Result.isSolved, hexhausted]
    intro values hvalues
    exact hnone values ((hsolves values).2 hvalues)

theorem yields_drop : model.drop.Yields build fun _ => True := by
  unfold drop
  induction model.constraints.toList with
  | nil => exact .pure trivial
  | cons constraint constraints ih =>
      show Action.Yields (constraint.drop >>= fun _ => constraints.forM Constraint.drop) build _
      exact (Action.yields_record _).bind fun _ _ => ih

/-- Solving a model answers with the least solution, or there is none. -/
theorem Fit.yields_solve (hfit : model.Fit) (hlocal : model.Local context) :
    (model.solve context).Yields build (Answers {values | model.Solves context values}) := by
  unfold Model.solve withProblem
  refine Action.Yields.bind ?_ fun found hfound => .pure hfound
  refine hfit.yields_problem.bind ?_
  rintro _ rfl
  exact (hfit.yields_within hlocal).followedBy (Action.yields_record _)

/-- To make a model, to solve it and to give it up answers with the least of the values that are
wanted, or there are none. -/
theorem Fit.yields_answer (hfit : model.Fit) (hlocal : model.Local context)
    {wanted : Set (List Nat)} (hwanted : ∀ values, model.Solves context values ↔ values ∈ wanted)
    {making : Action (Model κ)} (hmaking : making.Yields build (· = model)) :
    (making >>= fun made => (made.solve context).followedBy made.drop).Yields build
      (Answers wanted) := by
  have hsolved : (model.solve context).Yields build
      (Answers {values | model.Solves context values}) := hfit.yields_solve hlocal
  rw [Set.ext hwanted] at hsolved
  refine hmaking.bind ?_
  rintro _ rfl
  exact hsolved.followedBy yields_drop

end Model

end ConstraintSearch
