import ConstraintSearch.Fault
import ConstraintSearch.Search.Result

/-!
# Depth-first search

A depth-first search needs no stack: it is a recursion on the variables, and the candidates of a
variable are a list to go through.  `explore` is this recursion, over any test.  It carries along
the buffer, the counters and the memory of the test, and nothing else.

Two such searches do the same if their tests do (`SeenAs.explore`), even where one remembers more
than the other.

Recursion and test are both functions in one monad, with the trail as its state and faults as its
errors.  Its equations are spelled out once (`bind_apply`, `tryValue_apply`, `allM_cons_apply`,
`anyM_cons_apply`); what follows rewrites with them and does not unfold the monad.
-/

namespace ConstraintSearch

variable {σ : Type}

/-- What a depth-first search carries along. -/
structure Trail (σ : Type) where
  buffer : Array Nat
  nodes : Nat := 0
  checks : Nat := 0
  backtracks : Nat := 0
  maxDepth : Nat
  memory : σ

/-- A part of a depth-first search. -/
abbrev Exploration (σ α : Type) := EStateM Fault (Trail σ) α

/-- How a search ends and what it carries by then. -/
structure Outcome (σ : Type) where
  ending : Except Fault Status
  trail : Trail σ

namespace Exploration

/-- A variable takes a value. -/
def assign (frontier value : Nat) : Exploration σ Unit :=
  modify fun trail =>
    { trail with
      buffer := trail.buffer.setIfInBounds frontier value
      nodes := trail.nodes + 1 }

/-- All variables below the frontier are bound. -/
def reach (frontier : Nat) : Exploration σ Unit :=
  modify fun trail => { trail with maxDepth := max trail.maxDepth frontier }

/-- A variable has run out of candidates. -/
def stepBack : Exploration σ Unit :=
  modify fun trail => { trail with backtracks := trail.backtracks + 1 }

/-- Tries a value for the variable at the frontier: if the test accepts it, the search goes on with
the variables behind. -/
def tryValue (test : Nat → Exploration σ Bool) (behind : Exploration σ Bool)
    (frontier value : Nat) : Exploration σ Bool := do
  assign frontier value
  if ← test (frontier + 1) then
    reach (frontier + 1)
    if ← behind then return true
    stepBack
  return false

/-- Searches for values of the variables from the frontier on, whose domains have the given sizes,
and tells whether there are some.  The values of a variable are tried in ascending order, up to the
first one with which the search succeeds. -/
def explore (test : Nat → Exploration σ Bool) : List Nat → Nat → Exploration σ Bool
  | [], _ => return true
  | size :: sizes, frontier =>
      (List.range size).anyM (tryValue test (explore test sizes (frontier + 1)) frontier)

/-- How a search for all variables ends. -/
def outcome : EStateM.Result Fault (Trail σ) Bool → Outcome σ
  | .ok true trail => { ending := .ok .solved, trail }
  | .ok false trail => { ending := .ok .exhausted, trail }
  | .error fault trail => { ending := .error fault, trail }

/-! ## Equations -/

theorem bind_apply {α β : Type} (first : Exploration σ α) (next : α → Exploration σ β)
    (trail : Trail σ) :
    (first >>= next) trail =
      match first trail with
      | .ok a trail => next a trail
      | .error fault trail => .error fault trail := by
  show EStateM.bind first next trail = _
  unfold EStateM.bind
  cases first trail <;> rfl

theorem tryValue_apply (test : Nat → Exploration σ Bool) (behind : Exploration σ Bool)
    (frontier value : Nat) (trail : Trail σ) :
    tryValue test behind frontier value trail =
      match test (frontier + 1)
        { trail with
          buffer := trail.buffer.setIfInBounds frontier value, nodes := trail.nodes + 1 } with
      | .error fault trail => .error fault trail
      | .ok false trail => .ok false trail
      | .ok true trail =>
          match behind { trail with maxDepth := max trail.maxDepth (frontier + 1) } with
          | .error fault trail => .error fault trail
          | .ok true trail => .ok true trail
          | .ok false trail => .ok false { trail with backtracks := trail.backtracks + 1 } := by
  have hassign : assign frontier value trail = .ok ()
      { trail with
        buffer := trail.buffer.setIfInBounds frontier value, nodes := trail.nodes + 1 } := rfl
  have hreach : ∀ trail : Trail σ, reach (frontier + 1) trail =
      .ok () { trail with maxDepth := max trail.maxDepth (frontier + 1) } := fun _ => rfl
  rw [tryValue, bind_apply, hassign]
  simp only [bind_apply]
  -- By the answer of the test, and if it accepts by what is found behind the value.
  cases test (frontier + 1) _ with
  | error fault trail => rfl
  | ok accepted trail =>
      cases accepted with
      | false => rfl
      | true =>
          simp only [if_true, bind_apply, hreach]
          cases behind _ with
          | error fault trail => rfl
          | ok found trail => cases found <;> rfl

theorem allM_cons_apply {α : Type} {p : α → Exploration σ Bool} {a : α} {as : List α}
    {trail : Trail σ} :
    (a :: as).allM p trail =
      match p a trail with
      | .error fault trail => .error fault trail
      | .ok true trail => as.allM p trail
      | .ok false trail => .ok false trail := by
  rw [List.allM_cons, bind_apply]
  cases p a trail with
  | error fault trail => rfl
  | ok accepted trail => cases accepted <;> rfl

theorem allM_map {α β : Type} (f : α → β) (p : β → Exploration σ Bool) (as : List α) :
    (as.map f).allM p = as.allM fun a => p (f a) := by
  induction as with
  | nil => rfl
  | cons a as ih => rw [List.map_cons, List.allM_cons, List.allM_cons, ih]

theorem anyM_cons_apply {p : Nat → Exploration σ Bool} {value : Nat} {values : List Nat}
    {trail : Trail σ} :
    (value :: values).anyM p trail =
      match p value trail with
      | .error fault trail => .error fault trail
      | .ok true trail => .ok true trail
      | .ok false trail => values.anyM p trail := by
  rw [List.anyM_cons, bind_apply]
  cases p value trail with
  | error fault trail => rfl
  | ok found trail => cases found <;> rfl

end Exploration

/-! ## Two views of a search -/

/-- What is carried along, with another view of the memory. -/
def Trail.map {τ : Type} (view : σ → τ) (trail : Trail σ) : Trail τ where
  buffer := trail.buffer
  nodes := trail.nodes
  checks := trail.checks
  backtracks := trail.backtracks
  maxDepth := trail.maxDepth
  memory := view trail.memory

/-- How a search ends, with another view of the memory. -/
def Outcome.map {τ : Type} (view : σ → τ) (outcome : Outcome σ) : Outcome τ where
  ending := outcome.ending
  trail := outcome.trail.map view

namespace Exploration

variable {τ α β : Type} {view : σ → τ}

/-- The result, with another view of the memory. -/
def mapResult (view : σ → τ) :
    EStateM.Result Fault (Trail σ) α → EStateM.Result Fault (Trail τ) α
  | .ok a trail => .ok a (trail.map view)
  | .error fault trail => .error fault (trail.map view)

/-- What the second exploration does is all that can be seen of the first through the view. -/
def SeenAs (view : σ → τ) (first : Exploration σ α) (second : Exploration τ α) : Prop :=
  ∀ trail, second (trail.map view) = mapResult view (first trail)

theorem SeenAs.pure (a : α) : SeenAs view (Pure.pure a) (Pure.pure a) := by
  intro trail
  rfl

theorem SeenAs.bind {first : Exploration σ α} {first' : Exploration τ α}
    {next : α → Exploration σ β} {next' : α → Exploration τ β} (hfirst : SeenAs view first first')
    (hnext : ∀ a, SeenAs view (next a) (next' a)) :
    SeenAs view (first >>= next) (first' >>= next') := by
  intro trail
  rw [bind_apply, bind_apply, hfirst trail]
  cases first trail with
  | ok a trail => exact hnext a trail
  | error fault trail => rfl

theorem SeenAs.allM {γ : Type} {p : γ → Exploration σ Bool} {p' : γ → Exploration τ Bool}
    (h : ∀ a, SeenAs view (p a) (p' a)) (as : List γ) :
    SeenAs view (as.allM p) (as.allM p') := by
  induction as with
  | nil => exact .pure true
  | cons a as ih =>
      rw [List.allM_cons, List.allM_cons]
      apply (h a).bind
      intro accepted
      cases accepted with
      | false => exact .pure false
      | true => exact ih

theorem SeenAs.anyM {γ : Type} {p : γ → Exploration σ Bool} {p' : γ → Exploration τ Bool}
    (h : ∀ a, SeenAs view (p a) (p' a)) (as : List γ) :
    SeenAs view (as.anyM p) (as.anyM p') := by
  induction as with
  | nil => exact .pure false
  | cons a as ih =>
      rw [List.anyM_cons, List.anyM_cons]
      apply (h a).bind
      intro found
      cases found with
      | false => exact ih
      | true => exact .pure true

variable {test : Nat → Exploration σ Bool} {test' : Nat → Exploration τ Bool}

theorem SeenAs.tryValue {behind : Exploration σ Bool} {behind' : Exploration τ Bool}
    (htest : ∀ frontier, SeenAs view (test frontier) (test' frontier))
    (hbehind : SeenAs view behind behind') (frontier value : Nat) :
    SeenAs view (tryValue test behind frontier value) (tryValue test' behind' frontier value) := by
  have hassign : SeenAs view (assign frontier value) (assign frontier value) := fun _ => rfl
  have hreach : SeenAs view (reach (frontier + 1)) (reach (frontier + 1)) := fun _ => rfl
  have hstepBack : SeenAs view stepBack stepBack := fun _ => rfl
  refine hassign.bind fun _ => (htest _).bind fun accepted => ?_
  cases accepted with
  | false => exact .pure false
  | true =>
      refine hreach.bind fun _ => hbehind.bind fun found => ?_
      cases found with
      | true => exact .pure true
      | false => exact hstepBack.bind fun _ => .pure false

theorem SeenAs.explore (htest : ∀ frontier, SeenAs view (test frontier) (test' frontier))
    (sizes : List Nat) (frontier : Nat) :
    SeenAs view (explore test sizes frontier) (explore test' sizes frontier) := by
  induction sizes generalizing frontier with
  | nil => exact .pure true
  | cons size sizes ih => exact .anyM (.tryValue htest (ih (frontier + 1)) frontier) _

theorem outcome_mapResult (result : EStateM.Result Fault (Trail σ) Bool) :
    outcome (mapResult view result) = (outcome result).map view := by
  cases result with
  | ok found trail => cases found <;> rfl
  | error fault trail => rfl

end Exploration

end ConstraintSearch
