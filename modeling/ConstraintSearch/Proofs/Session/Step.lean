import ConstraintSearch.Session.Perform

/-!
# Steps of a session

A step looks up what it names, calls the library, and keeps what comes of it.  The lemmas here say
what each of these parts does, so that a step is followed part by part.  `Session.after` and
`Session.answers` put the steps of several operations together.
-/

namespace ConstraintSearch

variable {τ κ α β : Type}

namespace SessionStep

variable {build : Build} {session between : Session τ κ} {step : SessionStep τ κ α}

theorem bind_apply (first : SessionStep τ κ α) (next : α → SessionStep τ κ β) (build : Build)
    (session : Session τ κ) :
    (first >>= next) build session =
      match first build session with
      | .ok value after => next value build after
      | .error objection after => .error objection after := by
  show EStateM.bind (first build) (fun value => next value build) session = _
  unfold EStateM.bind
  cases first build session <;> rfl

theorem bind_of_ok {value : α} (h : step build session = .ok value between)
    (next : α → SessionStep τ κ β) :
    (step >>= next) build session = next value build between := by
  rw [bind_apply, h]

theorem bind_of_error {objection : Objection} (h : step build session = .error objection between)
    (next : α → SessionStep τ κ β) :
    (step >>= next) build session = .error objection between := by
  rw [bind_apply, h]

theorem call_of_ok {action : Action α} {value : α} {library : Library}
    (h : action build session.library = .ok value library) :
    call action build session = .ok value { session with library } := by
  unfold call
  rw [h]

theorem call_of_error {action : Action α} {failure : Failure} {library : Library}
    (h : action build session.library = .error failure library) :
    call action build session = .error (.failed failure) { session with library } := by
  unfold call
  rw [h]

theorem get_apply (build : Build) (session : Session τ κ) :
    (get : SessionStep τ κ (Session τ κ)) build session = .ok session session := rfl

theorem constraint_apply {c : Nat} {held : HeldConstraint τ κ}
    (h : session.constraints[c]? = some held) :
    constraint c build session = .ok held session := by
  unfold constraint
  rw [bind_apply, get_apply]
  simp only [h]
  rfl

theorem problem_apply {p : Nat} {posed : PosedProblem τ κ} (h : session.problems[p]? = some posed) :
    problem p build session = .ok posed session := by
  unfold problem
  rw [bind_apply, get_apply]
  simp only [h]
  rfl

theorem ownConstraint_apply {c : Nat} {own : Constraint (SessionMemory τ) κ}
    (h : session.constraints[c]? = some { constraint := own, frozen := false }) :
    ownConstraint c build session = .ok own session :=
  bind_of_ok (constraint_apply h) _

theorem constraint_cases (build : Build) (session : Session τ κ) (c : Nat) :
    (∃ held, session.constraints[c]? = some held ∧
        constraint c build session = .ok held session) ∨
      constraint c build session = .error .noSuchConstraint session := by
  cases hheld : session.constraints[c]? with
  | some held => exact .inl ⟨held, rfl, constraint_apply hheld⟩
  | none =>
      right
      unfold constraint
      rw [bind_apply, get_apply]
      simp only [hheld]
      rfl

theorem ownConstraint_cases (build : Build) (session : Session τ κ) (c : Nat) :
    (∃ own, session.constraints[c]? = some { constraint := own } ∧
        ownConstraint c build session = .ok own session) ∨
      ∃ objection, ownConstraint c build session = .error objection session := by
  rcases constraint_cases build session c with ⟨⟨own, frozen⟩, hheld, hconstraint⟩ | hconstraint
  · cases frozen with
    | false => exact .inl ⟨own, hheld, bind_of_ok hconstraint _⟩
    | true => exact .inr ⟨.frozen, bind_of_ok hconstraint _⟩
  · exact .inr ⟨.noSuchConstraint, bind_of_error hconstraint _⟩

theorem problem_cases (build : Build) (session : Session τ κ) (p : Nat) :
    (∃ posed, session.problems[p]? = some posed ∧
        problem p build session = .ok posed session) ∨
      problem p build session = .error .noSuchProblem session := by
  cases hposed : session.problems[p]? with
  | some posed => exact .inl ⟨posed, rfl, problem_apply hposed⟩
  | none =>
      right
      unfold problem
      rw [bind_apply, get_apply]
      simp only [hposed]
      rfl

end SessionStep

namespace Session

/-- The session as an operation finds it: with an empty log and an empty record of calls. -/
def opened (session : Session τ κ) : Session τ κ :=
  { session with
    library := { session.library with log := #[] }
    memory := session.memory.forgetCalls }

theorem step_of_ok {build : Build} {session after : Session τ κ} {operation : Operation τ κ}
    {answer : Answer} (h : SessionStep.perform operation build session.opened = .ok answer after) :
    session.step build operation = (.ok answer, after) := by
  unfold opened at h
  simp only [step, h]

theorem step_of_error {build : Build} {session after : Session τ κ} {operation : Operation τ κ}
    {objection : Objection}
    (h : SessionStep.perform operation build session.opened = .error objection after) :
    session.step build operation = (.error objection, after) := by
  unfold opened at h
  simp only [step, h]

/-! ## Sequences of steps -/

/-- The session after some operations. -/
def after (build : Build) (session : Session τ κ) (operations : List (Operation τ κ)) :
    Session τ κ :=
  operations.foldl (fun session operation => (session.step build operation).2) session

/-- What a session answers to some operations, each with the answer to it. -/
def answers (build : Build) (session : Session τ κ) :
    List (Operation τ κ) → List (Operation τ κ × Except Objection Answer)
  | [] => []
  | operation :: operations =>
      (operation, (session.step build operation).1) ::
        (session.step build operation).2.answers build operations

theorem after_concat (build : Build) (session : Session τ κ) (operations : List (Operation τ κ))
    (operation : Operation τ κ) :
    session.after build (operations ++ [operation]) =
      ((session.after build operations).step build operation).2 := by
  unfold after
  rw [List.foldl_append]
  rfl

theorem answers_append (build : Build) (session : Session τ κ)
    (operations others : List (Operation τ κ)) :
    session.answers build (operations ++ others) =
      session.answers build operations ++ (session.after build operations).answers build others := by
  induction operations generalizing session with
  | nil => rfl
  | cons operation operations ih => exact congrArg _ (ih (session.step build operation).2)

end Session

/-! ## Searches -/

namespace SessionStep

variable {session : Session τ κ} {p : Nat} {posed : PosedProblem τ κ}

theorem search_apply (h : session.problems[p]? = some posed) (order : SearchOrder κ)
    (build : Build) :
    search p order build session =
      searchBuffer (order.search posed.problem) build
        { session with memory := order.memory session.memory } :=
  bind_of_ok (problem_apply h) _

end SessionStep

end ConstraintSearch
