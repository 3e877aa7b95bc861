import ConstraintSearch.Proofs.Problem.Results
import ConstraintSearch.Proofs.Session.Lookups
import ConstraintSearch.Proofs.Session.Place

/-!
# What operations do to a session

`Effect` says for each operation of the checked build how the constraints and the problems of a
session change, according to how the operation ends.  `effect_step` is the only place where the
operations are followed part by part; what is kept through all operations is shown by the cases of
`Effect`.

An operation is followed along its `do` block.  Each lookup either finds what is named or refuses
(`constraint_cases`, `ownConstraint_cases`, `problem_cases`), and each call on the library either has a
value of which something is known or fails (`call_cases`).  A refusal leaves the holdings alone, as
long as nothing has been changed by then; the two operations that have changed something before they
can fail have an effect of their own for the failure (`Effect.lost`, `Effect.frozen`).
-/

namespace ConstraintSearch

variable {σ κ τ α β : Type}

/-! ## Changes under one key -/

/-- Under the key the second map has the given value, or none; elsewhere it is the first map. -/
def Replaced (before after : Std.TreeMap Nat β) (key : Nat) (value? : Option β) : Prop :=
  ∀ k : Nat, after[k]? = if key = k then value? else before[k]?

namespace Replaced

variable {before after last : Std.TreeMap Nat β} {key k : Nat} {value? : Option β}

theorem insert (before : Std.TreeMap Nat β) (key : Nat) (value : β) :
    Replaced before (before.insert key value) key (some value) := by
  intro k
  simp only [Std.TreeMap.getElem?_insert, Std.compare_eq_iff_eq]

theorem erase (before : Std.TreeMap Nat β) (key : Nat) :
    Replaced before (before.erase key) key none := by
  intro k
  simp only [Std.TreeMap.getElem?_erase, Std.compare_eq_iff_eq]

theorem refl (h : before[key]? = value?) : Replaced before before key value? := by
  intro k
  by_cases hkey : key = k
  · rw [if_pos hkey, ← hkey, h]
  · rw [if_neg hkey]

theorem trans {between? : Option β} (h : Replaced before after key between?)
    (hlast : Replaced after last key value?) : Replaced before last key value? := by
  intro k
  rw [hlast k]
  by_cases hkey : key = k
  · rw [if_pos hkey, if_pos hkey]
  · rw [if_neg hkey, if_neg hkey, h k, if_neg hkey]

theorem self (h : Replaced before after key value?) : after[key]? = value? := by
  rw [h key, if_pos rfl]

theorem of_ne (h : Replaced before after key value?) (hkey : key ≠ k) :
    after[k]? = before[k]? := by
  rw [h k, if_neg hkey]

end Replaced

/-! ## What an operation does -/

/-- What an operation does to the holdings, and how it ends. -/
inductive Effect (before after : Holdings τ κ) :
    Operation τ κ → Except Objection Answer → Prop where
  | kept (operation : Operation τ κ) (answer : Except Objection Answer) (hafter : after = before)
      (hunwritten : ∀ place, Entry.written? { before, operation, answer } place = none) :
      Effect before after operation answer
  | created (c arity : Nat) (checker : Checker (SessionMemory τ) κ) (hpos : 0 < arity)
      (hfree : ∀ held, before.constraints[c]? = some held → held.frozen = false)
      (hconstraints : Replaced before.constraints after.constraints c (some
        { constraint :=
            { scope := List.replicate arity 0, checker := SessionMemory.recorded checker } }))
      (hproblems : after.problems = before.problems) :
      Effect before after (.newConstraint c arity checker) (.ok .done)
  /-- The number is taken from a frozen constraint. -/
  | renamed (c arity : Nat) (checker : Checker (SessionMemory τ) κ) (hpos : 0 < arity)
      (hconstraints : Replaced before.constraints after.constraints c (some
        { constraint :=
            { scope := List.replicate arity 0, checker := SessionMemory.recorded checker } }))
      (hproblems : ∀ p : Nat, after.problems[p]? = before.problems[p]?.map (·.withoutNumber c)) :
      Effect before after (.newConstraint c arity checker) (.ok .done)
  | variableSet (c index v : Nat) (own : Constraint (SessionMemory τ) κ)
      (hown : before.constraints[c]? = some { constraint := own }) (hindex : index < own.arity)
      (hconstraints : Replaced before.constraints after.constraints c (some
        { constraint := { own with scope := own.scope.set index v } }))
      (hproblems : after.problems = before.problems) :
      Effect before after (.setVariable c index v) (.ok .done)
  | variablesSet (c : Nat) (scope : List Nat) (own : Constraint (SessionMemory τ) κ)
      (hown : before.constraints[c]? = some { constraint := own })
      (hlength : scope.length = own.arity)
      (hconstraints : Replaced before.constraints after.constraints c (some
        { constraint := { own with scope } }))
      (hproblems : after.problems = before.problems) :
      Effect before after (.withVariables c scope) (.ok .done)
  /-- A constraint whose variables cannot be set is given up. -/
  | lost (c : Nat) (scope : List Nat) (own : Constraint (SessionMemory τ) κ) (failure : Failure)
      (hown : before.constraints[c]? = some { constraint := own })
      (hconstraints : Replaced before.constraints after.constraints c none)
      (hproblems : after.problems = before.problems) :
      Effect before after (.withVariables c scope) (.error (.failed failure))
  | dropped (c : Nat) (own : Constraint (SessionMemory τ) κ)
      (hown : before.constraints[c]? = some { constraint := own })
      (hconstraints : Replaced before.constraints after.constraints c none)
      (hproblems : after.problems = before.problems) :
      Effect before after (.dropConstraint c) (.ok .done)
  | posed (p domains slots : Nat) (hdomains : 0 < domains) (hslots : 0 < slots)
      (hconstraints : after.constraints = before.constraints)
      (hproblems : Replaced before.problems after.problems p (some
        { problem :=
            { domains := Array.replicate domains 0, slots := Array.replicate slots none }
          attached := Array.replicate slots none })) :
      Effect before after (.newProblem p domains slots) (.ok .done)
  | domainSet (p index size : Nat) (posed : PosedProblem τ κ)
      (hposed : before.problems[p]? = some posed) (hindex : index < posed.problem.domains.size)
      (hconstraints : after.constraints = before.constraints)
      (hproblems : Replaced before.problems after.problems p (some
        { posed with
          problem :=
            { posed.problem with domains := posed.problem.domains.setIfInBounds index size } })) :
      Effect before after (.setDomain p index size) (.ok .done)
  /-- As many domains are set as there are, even if there are more sizes. -/
  | domainsSet (p : Nat) (sizes : List Nat) (answer : Except Objection Answer)
      (posed : PosedProblem τ κ) (hposed : before.problems[p]? = some posed)
      (hanswer : Entry.isCarriedOut { before, operation := .setDomains p sizes, answer } = true)
      (hconstraints : after.constraints = before.constraints)
      (hproblems : Replaced before.problems after.problems p (some
        { posed with problem := posed.problem.withSizes sizes })) :
      Effect before after (.setDomains p sizes) answer
  | allDomainsSet (p size : Nat) (posed : PosedProblem τ κ)
      (hposed : before.problems[p]? = some posed)
      (hconstraints : after.constraints = before.constraints)
      (hproblems : Replaced before.problems after.problems p (some
        { posed with
          problem :=
            posed.problem.withSizes (List.replicate posed.problem.domains.size size) })) :
      Effect before after (.setAllDomains p size) (.ok .done)
  | attached (p index c : Nat) (held : HeldConstraint τ κ) (posed : PosedProblem τ κ)
      (hheld : before.constraints[c]? = some held) (hposed : before.problems[p]? = some posed)
      (hindex : index < posed.problem.slots.size)
      (hlargest : held.constraint.maxVariable < posed.problem.domains.size)
      (hconstraints : Replaced before.constraints after.constraints c (some
        { held with frozen := true }))
      (hproblems : Replaced before.problems after.problems p (some
        { problem :=
            { posed.problem with
              slots := posed.problem.slots.setIfInBounds index (some held.constraint) }
          attached := posed.attached.setIfInBounds index (some c) })) :
      Effect before after (.setConstraint p index c) (.ok .done)
  /-- A constraint that is refused by a problem is frozen nevertheless. -/
  | frozen (p index c : Nat) (failure : Failure) (held : HeldConstraint τ κ)
      (hheld : before.constraints[c]? = some held)
      (hconstraints : Replaced before.constraints after.constraints c (some
        { held with frozen := true }))
      (hproblems : after.problems = before.problems) :
      Effect before after (.setConstraint p index c) (.error (.failed failure))
  | withdrawn (p : Nat) (hconstraints : after.constraints = before.constraints)
      (hproblems : Replaced before.problems after.problems p none) :
      Effect before after (.dropProblem p) (.ok .done)

/-! ## Following an operation -/

theorem Session.holdings_congr {session after : Session τ κ}
    (hconstraints : after.constraints = session.constraints)
    (hproblems : after.problems = session.problems) : after.holdings = session.holdings := by
  unfold Session.holdings
  rw [hconstraints, hproblems]

namespace SessionStep

variable {session after : Session τ κ} {operation : Operation τ κ}

/-- A call of the library ends in a value it ensures, or in a failure, and either way it changes
nothing but the library. -/
theorem call_cases {action : Action α} {property : α → Prop} (h : action.Ensures property)
    (session : Session τ κ) :
    (∃ value library, property value ∧
        call action .checked session = .ok value { session with library }) ∨
      ∃ failure library,
        call action .checked session = .error (.failed failure) { session with library } := by
  cases haction : action .checked session.library with
  | ok value library => exact .inl ⟨value, library, h _ _ _ haction, call_of_ok haction⟩
  | error failure library => exact .inr ⟨failure, library, call_of_error haction⟩

/-! ### Single operations -/

/-- How an operation on the session ends is told by an effect. -/
def Effected (session : Session τ κ) (operation : Operation τ κ) :
    EStateM.Result Objection (Session τ κ) Answer → Prop
  | .ok answer after => Effect session.holdings after.holdings operation (.ok answer)
  | .error objection after => Effect session.holdings after.holdings operation (.error objection)

/-- The operation has an effect on the session. -/
def HasEffect (session : Session τ κ) (operation : Operation τ κ) : Prop :=
  Effected session operation (perform operation .checked session)

theorem hasEffect_of_eq {result : EStateM.Result Objection (Session τ κ) Answer}
    (h : perform operation .checked session = result)
    (heffect : Effected session operation result) : HasEffect session operation := by
  unfold HasEffect
  rw [h]
  exact heffect

/-- An operation that is refused before it has changed anything has no effect. -/
theorem hasEffect_of_refused {objection : Objection}
    (h : perform operation .checked session = .error objection after)
    (hholdings : after.holdings = session.holdings)
    (hrefused : Entry.isCarriedOut
      { before := session.holdings, operation, answer := .error objection } = false) :
    HasEffect session operation := by
  refine hasEffect_of_eq h (.kept _ _ hholdings fun place => ?_)
  unfold Entry.written?
  rw [hrefused]
  rfl

variable (session)

theorem hasEffect_of_unchanging (h : operation.isChange = false) :
    HasEffect session operation := by
  have hunwritten : ∀ answer place,
      Entry.written? { before := session.holdings, operation, answer } place = none := by
    intro answer place
    unfold Entry.written?
    cases operation with
    | newConstraint | withVariables | setVariable | dropConstraint | newProblem | setDomain
    | setDomains | setAllDomains | setConstraint | dropProblem => cases h
    | _ => exact ite_self _
  obtain ⟨hproblems, hconstraints⟩ := keepsHoldings_perform h .checked session
  unfold HasEffect Effected
  generalize perform operation .checked session = result at hproblems hconstraints
  cases result with
  | ok answer after =>
      exact .kept _ _ (Session.holdings_congr hconstraints hproblems) (hunwritten _)
  | error objection after =>
      exact .kept _ _ (Session.holdings_congr hconstraints hproblems) (hunwritten _)

theorem hasEffect_newConstraint (c arity : Nat) (checker : Checker (SessionMemory τ) κ) :
    HasEffect session (.newConstraint c arity checker) := by
  rcases call_cases (Constraint.ensures_create arity (SessionMemory.recorded checker)) session with
    ⟨_, library, ⟨hpos, rfl⟩, hcall⟩ | ⟨failure, library, hcall⟩
  · let called : Session τ κ := { session with library }
    have hget : (get : SessionStep τ κ (Session τ κ)) .checked called = .ok called called := rfl
    refine hasEffect_of_eq ((bind_of_ok hcall _).trans (bind_of_ok hget _)) ?_
    -- A frozen constraint only loses its number; any other one that had the number is given up.
    cases hheld : session.constraints[c]? with
    | none =>
        have hfree : ∀ held, session.constraints[c]? = some held → held.frozen = false := by
          rw [hheld]
          exact nofun
        exact .created c arity checker hpos hfree (.insert _ _ _) rfl
    | some held =>
        obtain ⟨own, frozen⟩ := held
        cases frozen with
        | false =>
            have hfree : ∀ held, session.constraints[c]? = some held → held.frozen = false := by
              rw [hheld]
              rintro held ⟨⟩
              rfl
            exact .created c arity checker hpos hfree (.insert _ _ _) rfl
        | true =>
            exact .renamed c arity checker hpos (.insert _ _ _) fun p => Std.TreeMap.getElem?_map
  · exact hasEffect_of_refused (bind_of_error hcall _) rfl rfl

theorem hasEffect_withVariables (c : Nat) (scope : List Nat) :
    HasEffect session (.withVariables c scope) := by
  rcases ownConstraint_cases .checked session c with ⟨own, hown, hfirst⟩ | ⟨objection, hfirst⟩
  · -- The session is without the constraint while its variables are set.
    let forgotten : Session τ κ := { session with constraints := session.constraints.erase c }
    have hforget : forgetConstraint c .checked session = .ok () forgotten := rfl
    rcases call_cases (own.ensures_withVariables scope) forgotten with
      ⟨_, library, ⟨hlength, rfl⟩, hcall⟩ | ⟨failure, library, hcall⟩
    · exact hasEffect_of_eq
        ((bind_of_ok hfirst _).trans ((bind_of_ok hforget _).trans (bind_of_ok hcall _)))
        (.variablesSet c scope own hown hlength ((Replaced.erase _ c).trans (.insert _ _ _)) rfl)
    · exact hasEffect_of_eq
        ((bind_of_ok hfirst _).trans ((bind_of_ok hforget _).trans (bind_of_error hcall _)))
        (.lost c scope own failure hown (.erase _ _) rfl)
  · exact hasEffect_of_refused (bind_of_error hfirst _) rfl rfl

theorem hasEffect_setVariable (c index v : Nat) :
    HasEffect session (.setVariable c index v) := by
  rcases ownConstraint_cases .checked session c with ⟨own, hown, hfirst⟩ | ⟨objection, hfirst⟩
  · rcases call_cases (own.ensures_setVariable index v) session with
      ⟨_, library, ⟨hindex, rfl⟩, hcall⟩ | ⟨failure, library, hcall⟩
    · exact hasEffect_of_eq ((bind_of_ok hfirst _).trans (bind_of_ok hcall _))
        (.variableSet c index v own hown hindex (.insert _ _ _) rfl)
    · exact hasEffect_of_refused ((bind_of_ok hfirst _).trans (bind_of_error hcall _)) rfl rfl
  · exact hasEffect_of_refused (bind_of_error hfirst _) rfl rfl

theorem hasEffect_dropConstraint (c : Nat) : HasEffect session (.dropConstraint c) := by
  rcases ownConstraint_cases .checked session c with ⟨own, hown, hfirst⟩ | ⟨objection, hfirst⟩
  · exact hasEffect_of_eq (bind_of_ok hfirst _) (.dropped c own hown (.erase _ _) rfl)
  · exact hasEffect_of_refused (bind_of_error hfirst _) rfl rfl

theorem hasEffect_newProblem (p domains slots : Nat) :
    HasEffect session (.newProblem p domains slots) := by
  rcases call_cases (Problem.ensures_create domains slots) session with
    ⟨_, library, ⟨hdomains, hslots, rfl⟩, hcall⟩ | ⟨failure, library, hcall⟩
  · let called : Session τ κ := { session with library }
    have hget : (get : SessionStep τ κ (Session τ κ)) .checked called = .ok called called := rfl
    refine hasEffect_of_eq ((bind_of_ok hcall _).trans (bind_of_ok hget _)) ?_
    -- Whether the number was free makes no difference: a problem that had it is given up with a
    -- message only.
    cases hposed : session.problems[p]? with
    | none =>
        exact .posed p domains slots hdomains hslots rfl (.insert _ _ _)
    | some posed =>
        exact .posed p domains slots hdomains hslots rfl (.insert _ _ _)
  · exact hasEffect_of_refused (bind_of_error hcall _) rfl rfl

theorem hasEffect_setDomain (p index size : Nat) :
    HasEffect session (.setDomain p index size) := by
  rcases problem_cases .checked session p with ⟨posed, hposed, hfirst⟩ | hfirst
  · rcases call_cases (posed.problem.ensures_setDomain index size) session with
      ⟨_, library, ⟨hindex, rfl⟩, hcall⟩ | ⟨failure, library, hcall⟩
    · -- The setter is a step of its own here, as a list of sizes repeats it; so its `do` block is
      -- written out.
      have hset := (bind_of_ok hfirst fun posed => do
        let changed ← call (posed.problem.setDomain index size)
        keepProblem p { posed with problem := changed }).trans (bind_of_ok hcall _)
      exact hasEffect_of_eq (bind_of_ok hset _)
        (.domainSet p index size posed hposed hindex rfl (.insert _ _ _))
    · have hset := (bind_of_ok hfirst fun posed => do
        let changed ← call (posed.problem.setDomain index size)
        keepProblem p { posed with problem := changed }).trans (bind_of_error hcall _)
      exact hasEffect_of_refused (bind_of_error hset _) rfl rfl
  · exact hasEffect_of_refused (bind_of_error (bind_of_error hfirst _) _) rfl rfl

variable {session}

/-- On an active library the size of a domain is set if there is a domain. -/
theorem setDomain_apply {p : Nat} {posed : PosedProblem τ κ}
    (hactive : session.library.activations ≠ 0) (hposed : session.problems[p]? = some posed)
    (index size : Nat) :
    setDomain p index size .checked session =
      if index < posed.problem.domains.size then
        .ok () { session with
          problems := session.problems.insert p { posed with
            problem := { posed.problem with
              domains := posed.problem.domains.setIfInBounds index size } } }
      else
        .error (.failed (.fault (.domainIndex index posed.problem.domains.size))) session := by
  have hcall : call (posed.problem.setDomain index size) .checked session =
      if index < posed.problem.domains.size then
        .ok { posed.problem with domains := posed.problem.domains.setIfInBounds index size } session
      else
        .error (.failed (.fault (.domainIndex index posed.problem.domains.size))) session := by
    unfold call Problem.setDomain
    rw [Action.bind_apply, Action.requireActive_apply, if_neg fun h => hactive h.2]
    by_cases hindex : index < posed.problem.domains.size
    · rw [if_pos hindex, decide_eq_true hindex]
      rfl
    · rw [if_neg hindex, decide_eq_false hindex]
      rfl
  unfold setDomain
  rw [bind_of_ok (problem_apply hposed)]
  by_cases hindex : index < posed.problem.domains.size
  · rw [if_pos hindex] at hcall ⊢
    exact bind_of_ok hcall _
  · rw [if_neg hindex] at hcall ⊢
    exact bind_of_error hcall _

private theorem exists_after_forM {p : Nat} {posed : PosedProblem τ κ} (done rest : List Nat)
    (hactive : session.library.activations ≠ 0)
    (hposed : session.problems[p]? = some
      { posed with problem := posed.problem.withSizes done })
    (hle : done.length ≤ posed.problem.domains.size) :
    ∃ after : Session τ κ, after.constraints = session.constraints ∧
      Replaced session.problems after.problems p (some
        { posed with problem := posed.problem.withSizes (done ++ rest) }) ∧
      ((rest.zipIdx done.length).forM fun (size, index) => setDomain p index size :
          SessionStep τ κ Unit) .checked session =
        if done.length + rest.length ≤ posed.problem.domains.size then .ok () after
        else .error (.failed (.fault (.domainIndex posed.problem.domains.size
          posed.problem.domains.size))) after := by
  -- By induction on the sizes that are left: those that are done have been set one by one, each at
  -- the position of its own.
  induction rest generalizing session done with
  | nil =>
      rw [List.append_nil]
      exact ⟨session, rfl, .refl hposed, (if_pos hle).symm⟩
  | cons size rest ih =>
      have hset := setDomain_apply hactive hposed done.length size
      simp only [Problem.size_withSizes] at hset
      by_cases hlt : done.length < posed.problem.domains.size
      · rw [if_pos hlt, ← Problem.withSizes_concat] at hset
        let next : Session τ κ :=
          { session with
            problems := session.problems.insert p
              { posed with problem := posed.problem.withSizes (done ++ [size]) } }
        have hnext : Replaced session.problems next.problems p (some
            { posed with problem := posed.problem.withSizes (done ++ [size]) }) := .insert _ _ _
        have hactive' : next.library.activations ≠ 0 := hactive
        obtain ⟨after, hconstraints, hproblems, hrest⟩ :=
          ih (done ++ [size]) hactive' hnext.self (by rw [List.length_append]; exact hlt)
        simp only [List.length_append, List.length_singleton, List.append_assoc,
          List.singleton_append] at hproblems hrest
        refine ⟨after, hconstraints, hnext.trans hproblems, (bind_of_ok hset _).trans ?_⟩
        rw [List.length_cons, Nat.add_comm rest.length, ← Nat.add_assoc]
        exact hrest
      · rw [if_neg hlt] at hset
        have hsize : done.length = posed.problem.domains.size :=
          Nat.le_antisymm hle (Nat.not_lt.1 hlt)
        refine ⟨session, rfl, ?_, (bind_of_error hset _).trans ?_⟩
        · rw [Problem.withSizes_append_of_le (Nat.not_lt.1 hlt)]
          exact .refl hposed
        · rw [if_neg (by rw [List.length_cons]; omega), hsize]

/-- Domains are set one by one, up to the last variable of the problem. -/
theorem exists_after_setDomains {p : Nat} {posed : PosedProblem τ κ} (sizes : List Nat)
    (hactive : session.library.activations ≠ 0) (hposed : session.problems[p]? = some posed) :
    ∃ after : Session τ κ, after.constraints = session.constraints ∧
      Replaced session.problems after.problems p (some
        { posed with problem := posed.problem.withSizes sizes }) ∧
      setDomains p sizes .checked session =
        if sizes.length ≤ posed.problem.domains.size then .ok .done after
        else .error (.failed (.fault (.domainIndex posed.problem.domains.size
          posed.problem.domains.size))) after := by
  have hposed' : session.problems[p]? = some
      { posed with problem := posed.problem.withSizes [] } := by
    rw [Problem.withSizes_nil]
    exact hposed
  obtain ⟨after, hconstraints, hproblems, hset⟩ :=
    exists_after_forM [] sizes hactive hposed' (Nat.zero_le _)
  refine ⟨after, hconstraints, hproblems, ?_⟩
  rw [List.length_nil, Nat.zero_add] at hset
  unfold setDomains
  by_cases hle : sizes.length ≤ posed.problem.domains.size
  · rw [if_pos hle] at hset ⊢
    exact bind_of_ok hset _
  · rw [if_neg hle] at hset ⊢
    exact bind_of_error hset _

theorem call_requireActive (hzero : session.library.activations = 0) :
    call Action.requireActive .checked session = .error (.failed (.fault .inactive)) session :=
  call_of_error ((Action.requireActive_apply _ _).trans (if_pos ⟨rfl, hzero⟩))

theorem call_requireActive_of_ne (hactive : session.library.activations ≠ 0) :
    call Action.requireActive .checked session = .ok () session :=
  call_of_ok ((Action.requireActive_apply _ _).trans (if_neg fun h => hactive h.2))

variable (session)

theorem hasEffect_setConstraint (p index c : Nat) :
    HasEffect session (.setConstraint p index c) := by
  rcases constraint_cases .checked session c with ⟨held, hheld, hfirst⟩ | hfirst
  · rcases problem_cases .checked session p with ⟨posed, hposed, hsecond⟩ | hsecond
    · -- The constraint is frozen before the problem is asked.
      let frozen : Session τ κ :=
        { session with constraints := session.constraints.insert c { held with frozen := true } }
      have hkeep : keepConstraint c { held with frozen := true } .checked session =
        .ok () frozen := rfl
      rcases call_cases (posed.problem.ensures_setConstraint index held.constraint) frozen with
        ⟨_, library, ⟨hindex, hlargest, rfl⟩, hcall⟩ | ⟨failure, library, hcall⟩
      · exact hasEffect_of_eq ((bind_of_ok hfirst _).trans ((bind_of_ok hsecond _).trans
            ((bind_of_ok hkeep _).trans (bind_of_ok hcall _))))
          (.attached p index c held posed hheld hposed hindex hlargest (.insert _ _ _)
            (.insert _ _ _))
      · exact hasEffect_of_eq ((bind_of_ok hfirst _).trans ((bind_of_ok hsecond _).trans
            ((bind_of_ok hkeep _).trans (bind_of_error hcall _))))
          (.frozen p index c failure held hheld (.insert _ _ _) rfl)
    · exact hasEffect_of_refused ((bind_of_ok hfirst _).trans (bind_of_error hsecond _)) rfl rfl
  · exact hasEffect_of_refused (bind_of_error hfirst _) rfl rfl

theorem hasEffect_setDomains (p : Nat) (sizes : List Nat) :
    HasEffect session (.setDomains p sizes) := by
  rcases problem_cases .checked session p with ⟨posed, hposed, hfirst⟩ | hfirst
  · by_cases hzero : session.library.activations = 0
    · exact hasEffect_of_refused
        ((bind_of_ok hfirst _).trans (bind_of_error (call_requireActive hzero) _)) rfl rfl
    · obtain ⟨after, hconstraints, hproblems, hset⟩ := exists_after_setDomains sizes hzero hposed
      refine hasEffect_of_eq ((bind_of_ok hfirst _).trans
        ((bind_of_ok (call_requireActive_of_ne hzero) _).trans hset)) ?_
      -- Up to the last domain the sizes are set in both cases, and the effect does not tell them
      -- apart.
      by_cases hle : sizes.length ≤ posed.problem.domains.size
      · rw [if_pos hle]
        exact .domainsSet p sizes _ posed hposed rfl hconstraints hproblems
      · rw [if_neg hle]
        exact .domainsSet p sizes _ posed hposed rfl hconstraints hproblems
  · exact hasEffect_of_refused (bind_of_error hfirst _) rfl rfl

theorem hasEffect_setAllDomains (p size : Nat) : HasEffect session (.setAllDomains p size) := by
  rcases problem_cases .checked session p with ⟨posed, hposed, hfirst⟩ | hfirst
  · by_cases hzero : session.library.activations = 0
    · exact hasEffect_of_refused
        ((bind_of_ok hfirst _).trans (bind_of_error (call_requireActive hzero) _)) rfl rfl
    · obtain ⟨after, hconstraints, hproblems, hset⟩ :=
        exists_after_setDomains (List.replicate posed.problem.domains.size size) hzero hposed
      rw [if_pos (Nat.le_of_eq List.length_replicate)] at hset
      exact hasEffect_of_eq ((bind_of_ok hfirst _).trans
          ((bind_of_ok (call_requireActive_of_ne hzero) _).trans hset))
        (.allDomainsSet p size posed hposed hconstraints hproblems)
  · exact hasEffect_of_refused (bind_of_error hfirst _) rfl rfl

theorem hasEffect_dropProblem (p : Nat) : HasEffect session (.dropProblem p) := by
  rcases problem_cases .checked session p with ⟨posed, hposed, hfirst⟩ | hfirst
  · exact hasEffect_of_eq (bind_of_ok hfirst _) (.withdrawn p rfl (.erase _ _))
  · exact hasEffect_of_refused (bind_of_error hfirst _) rfl rfl

theorem hasEffect (operation : Operation τ κ) : HasEffect session operation := by
  cases operation with
  | newConstraint c arity checker => exact hasEffect_newConstraint session c arity checker
  | withVariables c scope => exact hasEffect_withVariables session c scope
  | setVariable c index v => exact hasEffect_setVariable session c index v
  | dropConstraint c => exact hasEffect_dropConstraint session c
  | newProblem p domains slots => exact hasEffect_newProblem session p domains slots
  | setDomain p index size => exact hasEffect_setDomain session p index size
  | setDomains p sizes => exact hasEffect_setDomains session p sizes
  | setAllDomains p size => exact hasEffect_setAllDomains session p size
  | setConstraint p index c => exact hasEffect_setConstraint session p index c
  | dropProblem p => exact hasEffect_dropProblem session p
  | _ => exact hasEffect_of_unchanging session rfl

end SessionStep

/-- Every operation has one of the effects. -/
theorem Session.effect_step (session : Session τ κ) (operation : Operation τ κ) :
    Effect session.holdings (session.step .checked operation).2.holdings operation
      (session.step .checked operation).1 := by
  have heffect := SessionStep.hasEffect session.opened operation
  unfold SessionStep.HasEffect at heffect
  cases hperform : SessionStep.perform operation .checked session.opened with
  | ok answer after =>
      rw [step_of_ok hperform]
      rw [hperform] at heffect
      exact heffect
  | error objection after =>
      rw [step_of_error hperform]
      rw [hperform] at heffect
      exact heffect

end ConstraintSearch
