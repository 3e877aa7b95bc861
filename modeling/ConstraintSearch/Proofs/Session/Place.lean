import ConstraintSearch.Proofs.Session.Step

/-!
# The places of a session

What a session holds are its constraints and its problems.  Both are made of places: a constraint has
an arity, a checker and slots for variables; a problem has two counts, domains and slots for
constraints.  `Holdings.written?` says what an operation writes to a place when it is carried out, and
`lastWritten?` reads in a history what was written to a place last.
-/

namespace ConstraintSearch

variable {σ κ τ : Type}

/-- The constraints and the problems of a session. -/
structure Holdings (τ κ : Type) where
  constraints : Std.TreeMap Nat (HeldConstraint τ κ)
  problems : Std.TreeMap Nat (PosedProblem τ κ)

def Session.holdings (session : Session τ κ) : Holdings τ κ where
  constraints := session.constraints
  problems := session.problems

/-! ## Places and what they hold -/

/-- What a place holds. -/
inductive Content (σ κ : Type) where
  | number (n : Nat)
  | checker (checker : Checker σ κ)
  /-- The constraint in a slot, if the slot is set. -/
  | slot (constraint? : Option (Constraint σ κ))

namespace Constraint

/-- A place of a constraint. -/
inductive Part where
  | arity
  | checker
  | slot (index : Nat)
  deriving DecidableEq

def content? (constraint : Constraint σ κ) : Part → Option (Content σ κ)
  | .arity => some (.number constraint.arity)
  | .checker => some (.checker constraint.checker)
  | .slot index => constraint.scope[index]?.map .number

end Constraint

namespace Problem

/-- A place of a problem. -/
inductive Part where
  | domainCount
  | slotCount
  | domain (index : Nat)
  | slot (index : Nat)
  deriving DecidableEq

def content? (problem : Problem σ κ) : Part → Option (Content σ κ)
  | .domainCount => some (.number problem.domains.size)
  | .slotCount => some (.number problem.slots.size)
  | .domain index => problem.domains[index]?.map .number
  | .slot index => problem.slots[index]?.map .slot

end Problem

/-- A place of a session: one of a constraint or of a problem, which are named by their numbers. -/
inductive Place where
  | ofConstraint (c : Nat) (part : Constraint.Part)
  | ofProblem (p : Nat) (part : Problem.Part)
  deriving DecidableEq

namespace Place

variable {ω : Type}

/-- Something for the places of one constraint. -/
def inConstraint (c : Nat) (told? : Constraint.Part → Option ω) : Place → Option ω
  | .ofConstraint d part => if c = d then told? part else none
  | .ofProblem _ _ => none

/-- Something for the places of one problem. -/
def inProblem (p : Nat) (told? : Problem.Part → Option ω) : Place → Option ω
  | .ofConstraint _ _ => none
  | .ofProblem q part => if p = q then told? part else none

theorem inConstraint_none (c : Nat) :
    (inConstraint c fun _ => none : Place → Option ω) = fun _ => none := by
  funext place
  cases place with
  | ofConstraint d part => exact ite_self _
  | ofProblem p part => rfl

theorem inProblem_none (p : Nat) :
    (inProblem p fun _ => none : Place → Option ω) = fun _ => none := by
  funext place
  cases place with
  | ofConstraint c part => rfl
  | ofProblem q part => exact ite_self _

end Place

/-- What a place holds, if there is such a place. -/
def Holdings.content? (holdings : Holdings τ κ) : Place → Option (Content (SessionMemory τ) κ)
  | .ofConstraint c part => holdings.constraints[c]?.bind (·.constraint.content? part)
  | .ofProblem p part => holdings.problems[p]?.bind (·.problem.content? part)

/-! ## Writing -/

/-- What an operation writes to a place when it is carried out on these holdings. -/
def Holdings.written? (before : Holdings τ κ) :
    Operation τ κ → Place → Option (Content (SessionMemory τ) κ)
  | .newConstraint c arity checker => Place.inConstraint c fun
      | .arity => some (.number arity)
      | .checker => some (.checker (SessionMemory.recorded checker))
      | .slot index => if index < arity then some (.number 0) else none
  | .withVariables c scope => Place.inConstraint c fun
      | .slot index => scope[index]?.map .number
      | _ => none
  | .setVariable c index v => Place.inConstraint c fun
      | .slot other => if index = other then some (.number v) else none
      | _ => none
  | .newProblem p domains slots => Place.inProblem p fun
      | .domainCount => some (.number domains)
      | .slotCount => some (.number slots)
      | .domain index => if index < domains then some (.number 0) else none
      | .slot index => if index < slots then some (.slot none) else none
  | .setDomain p index size => Place.inProblem p fun
      | .domain other => if index = other then some (.number size) else none
      | _ => none
  | .setDomains p sizes => Place.inProblem p fun
      | .domain index => sizes[index]?.map .number
      | _ => none
  | .setAllDomains p size => Place.inProblem p fun
      | .domain _ => some (.number size)
      | _ => none
  | .setConstraint p index c => Place.inProblem p fun
      | .slot other =>
          if index = other then some (.slot (before.constraints[c]?.map (·.constraint))) else none
      | _ => none
  | _ => fun _ => none

/-- A problem does not have a variable. -/
def Objection.isBeyond : Objection → Bool
  | .failed (.fault (.domainIndex _ _)) => true
  | _ => false

/-- An operation of a session: what this held before, and the answer. -/
structure Entry (τ κ : Type) where
  before : Holdings τ κ
  operation : Operation τ κ
  answer : Except Objection Answer

namespace Entry

/-- Whether the operation was carried out.  Domains are set one by one, so those that a problem has
are set even if there are sizes left for which it has none. -/
def isCarriedOut (entry : Entry τ κ) : Bool :=
  match entry.answer with
  | .ok _ => true
  | .error objection =>
      match entry.operation with
      | .setDomains _ _ => objection.isBeyond
      | _ => false

/-- What the operation has written to a place. -/
def written? (entry : Entry τ κ) (place : Place) : Option (Content (SessionMemory τ) κ) :=
  if entry.isCarriedOut then entry.before.written? entry.operation place else none

end Entry

/-- What was written to a place last, in the course of a history. -/
def lastWritten? (history : List (Entry τ κ)) (place : Place) :
    Option (Content (SessionMemory τ) κ) :=
  history.reverse.findSome? (·.written? place)

theorem lastWritten?_concat (history : List (Entry τ κ)) (entry : Entry τ κ) (place : Place) :
    lastWritten? (history ++ [entry]) place =
      (entry.written? place).or (lastWritten? history place) := by
  unfold lastWritten?
  rw [List.reverse_append, List.reverse_singleton, List.singleton_append, List.findSome?_cons]
  cases entry.written? place <;> rfl

namespace Session

/-- The entry for an operation on a session. -/
def entry (build : Build) (session : Session τ κ) (operation : Operation τ κ) : Entry τ κ where
  before := session.holdings
  operation := operation
  answer := (session.step build operation).1

/-- The entries for some operations, one after the other. -/
def history (build : Build) (session : Session τ κ) : List (Operation τ κ) → List (Entry τ κ)
  | [] => []
  | operation :: operations =>
      session.entry build operation ::
        (session.step build operation).2.history build operations

theorem history_concat (build : Build) (session : Session τ κ)
    (operations : List (Operation τ κ)) (operation : Operation τ κ) :
    session.history build (operations ++ [operation]) =
      session.history build operations ++ [(session.after build operations).entry build operation] := by
  induction operations generalizing session with
  | nil => rfl
  | cons first operations ih => exact congrArg _ (ih (session.step build first).2)

end Session

end ConstraintSearch
