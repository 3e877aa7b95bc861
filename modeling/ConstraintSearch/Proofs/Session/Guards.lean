import ConstraintSearch.Proofs.Action
import ConstraintSearch.Proofs.Session.Step
import Mathlib.Data.List.Induction
import Mathlib.Data.List.Infix

/-!
# Guards and bare activations

A guard stands for an activation of its own, but activations have no names: a bare deactivation may
end one that a guard stands for, and the guard finds that out only when it is given up.

## Strategy

`LifecycleStep` says what each of the operations does to the activations and to the number of guards.
Two accounts are kept along a sequence of operations, each by one step lemma and one induction.

* While the bare deactivations do not outnumber the bare activations, the account is exact: the
  activations are those of the guards and the bare ones that are left (`LifecycleStep.balance`,
  `activations_add_deactivations`).
* In any other order of events there may be fewer activations than guards, but no fewer than the bare
  deactivations that ended one account for (`LifecycleStep.guards_le`, `guards_add_activations_le`).
-/

namespace ConstraintSearch

variable {τ κ : Type} {build : Build}

namespace Operation

def isActivation : Operation τ κ → Bool
  | .activate => true
  | _ => false

def isDeactivation : Operation τ κ → Bool
  | .deactivate => true
  | _ => false

/-- The operation makes or ends an activation, by a guard or without one. -/
def isLifecycle : Operation τ κ → Bool
  | .activate | .deactivate | .newGuard _ | .dropGuard _ => true
  | _ => false

/-- At no time there have been more bare deactivations than bare activations. -/
def Balanced (operations : List (Operation τ κ)) : Prop :=
  ∀ earlier, earlier <+: operations →
    earlier.countP isDeactivation ≤ earlier.countP isActivation

theorem balanced_iff_inits {operations : List (Operation τ κ)} :
    Balanced operations ↔
      ∀ earlier ∈ operations.inits,
        earlier.countP isDeactivation ≤ earlier.countP isActivation := by
  simp only [Balanced, List.mem_inits]

instance (operations : List (Operation τ κ)) : Decidable (Balanced operations) :=
  decidable_of_iff _ balanced_iff_inits.symm

theorem Balanced.of_prefix {earlier operations : List (Operation τ κ)}
    (h : Balanced operations) (hearlier : earlier <+: operations) : Balanced earlier :=
  fun _ hfirst => h _ (hfirst.trans hearlier)

end Operation

namespace Session

variable {session : Session τ κ} {operation : Operation τ κ} {g : Nat}

/-! ## Single steps -/

/-- What a step does to the activations and to the number of guards, and what it answers. -/
inductive LifecycleStep (build : Build) (session after : Session τ κ) :
    Operation τ κ → Except Objection Answer → Prop where
  | activated (hactivations : after.library.activations = session.library.activations + 1)
      (hguards : after.guards.size = session.guards.size) :
      LifecycleStep build session after .activate (.ok (.flag true))
  | deactivated (hpos : 0 < session.library.activations)
      (hactivations : after.library.activations = session.library.activations - 1)
      (hguards : after.guards.size = session.guards.size) :
      LifecycleStep build session after .deactivate (.ok (.flag true))
  | alreadyInactive (hzero : session.library.activations = 0)
      (hactivations : after.library.activations = 0)
      (hguards : after.guards.size = session.guards.size) :
      LifecycleStep build session after .deactivate (.ok (.flag false))
  | guarded (g : Nat) (text : String) (hfresh : g ∉ session.guards)
      (hactivations : after.library.activations = session.library.activations + 1)
      (hguards : after.guards.size = session.guards.size + 1) :
      LifecycleStep build session after (.newGuard g) (.ok (.text text))
  /-- A new guard stands for its activation before the one it replaces is given up. -/
  | replaced (g : Nat) (text : String) (hheld : g ∈ session.guards)
      (hactivations : after.library.activations = session.library.activations)
      (hguards : after.guards.size = session.guards.size) :
      LifecycleStep build session after (.newGuard g) (.ok (.text text))
  | released (g : Nat) (hheld : g ∈ session.guards) (hpos : 0 < session.library.activations)
      (hactivations : after.library.activations = session.library.activations - 1)
      (hguards : after.guards.size + 1 = session.guards.size) :
      LifecycleStep build session after (.dropGuard g) (.ok .done)
  | unbalanced (g : Nat) (hheld : g ∈ session.guards) (hzero : session.library.activations = 0)
      (hactivations : after.library.activations = 0)
      (hguards : after.guards.size + 1 = session.guards.size) :
      LifecycleStep build session after (.dropGuard g)
        (if build = .checked then .error (.failed (.fault .unbalancedRelease)) else .ok .done)
  | unknown (g : Nat) (hfree : g ∉ session.guards)
      (hactivations : after.library.activations = session.library.activations)
      (hguards : after.guards.size = session.guards.size) :
      LifecycleStep build session after (.dropGuard g) (.error .noSuchGuard)

theorem step_deactivate (build : Build) (session : Session τ κ) :
    session.step build .deactivate =
      (.ok (.flag session.library.isActive),
        { session.opened with library := session.opened.library.deactivate.2 }) := by
  refine step_of_ok ?_
  show (SessionStep.call Action.deactivate >>= _) build session.opened = _
  rw [SessionStep.bind_apply, SessionStep.call, Action.deactivate_apply]
  rfl

theorem step_newGuard (build : Build) (session : Session τ κ) (g : Nat) :
    ∃ text, session.step build (.newGuard g) =
      (.ok (.text text),
        { session.opened with
          guards := session.guards.insert g ()
          library :=
            if g ∈ session.guards then session.opened.library.activate.deactivate.2
            else session.opened.library.activate }) := by
  refine ⟨(Outline.record "Activation" [("_private", .atom "()")] true).compact,
    step_of_ok ?_⟩
  let made : Session τ κ := { session.opened with library := session.opened.library.activate }
  let keep : Unit → SessionStep τ κ Answer := fun _ => do
    modify fun session => { session with guards := session.guards.insert g () }
    return .text (Outline.record "Activation" [("_private", .atom "()")] true).compact
  show (if session.guards.contains g then SessionStep.call Action.release >>= keep else keep ())
    build made = _
  by_cases hmem : g ∈ session.guards
  · -- The guard that is replaced finds the activation that the new one has made.
    have hactive : ¬(build = .checked ∧ made.library.activations = 0) := by
      rintro ⟨-, hzero⟩
      have hsucc := Library.activate_activations session.opened.library
      exact Nat.succ_ne_zero _ (hsucc.symm.trans hzero)
    rw [if_pos (Std.TreeMap.mem_iff_contains.1 hmem), if_pos hmem, SessionStep.bind_apply,
      SessionStep.call, Action.release_apply, if_neg hactive]
    rfl
  · rw [if_neg (fun h => hmem (Std.TreeMap.mem_iff_contains.2 h)), if_neg hmem]
    rfl

private theorem perform_dropGuard (build : Build) (session : Session τ κ) (g : Nat) :
    SessionStep.perform (.dropGuard g) build session =
      if g ∈ session.guards then
        match Action.release build session.library with
        | .ok _ library =>
            .ok .done { session with guards := session.guards.erase g, library }
        | .error failure library =>
            .error (.failed failure) { session with guards := session.guards.erase g, library }
      else .error .noSuchGuard session := by
  let erase : Unit → SessionStep τ κ Answer := fun _ => do
    modify fun session => { session with guards := session.guards.erase g }
    SessionStep.call Action.release
    return .done
  show (if !session.guards.contains g then throw .noSuchGuard >>= erase else erase ())
    build session = _
  by_cases hmem : g ∈ session.guards
  · rw [Std.TreeMap.mem_iff_contains.1 hmem, if_pos hmem]
    -- The guard is gone by the time its activation is ended, so it is gone also if that fails.
    show (SessionStep.call Action.release >>= fun _ => Pure.pure Answer.done) build
      { session with guards := session.guards.erase g } = _
    rw [SessionStep.bind_apply, SessionStep.call]
    cases Action.release build session.library <;> rfl
  · rw [Bool.eq_false_iff.2 fun h => hmem (Std.TreeMap.mem_iff_contains.2 h), if_neg hmem]
    rfl

theorem step_dropGuard_of_mem (build : Build) (hheld : g ∈ session.guards) :
    session.step build (.dropGuard g) =
      (if build = .checked ∧ session.library.activations = 0 then
          .error (.failed (.fault .unbalancedRelease))
        else .ok .done,
        { session.opened with
          guards := session.guards.erase g
          library := session.opened.library.deactivate.2 }) := by
  have hheld' : g ∈ session.opened.guards := hheld
  have hperform := perform_dropGuard build session.opened g
  rw [if_pos hheld', Action.release_apply] at hperform
  by_cases hzero : build = .checked ∧ session.library.activations = 0
  · have hzero' : build = .checked ∧ session.opened.library.activations = 0 := hzero
    rw [if_pos hzero'] at hperform
    rw [if_pos hzero]
    exact step_of_error hperform
  · have hzero' : ¬(build = .checked ∧ session.opened.library.activations = 0) := hzero
    rw [if_neg hzero'] at hperform
    rw [if_neg hzero]
    exact step_of_ok hperform

theorem step_dropGuard_of_not_mem (build : Build) (hfree : g ∉ session.guards) :
    session.step build (.dropGuard g) = (.error .noSuchGuard, session.opened) := by
  have hfree' : g ∉ session.opened.guards := hfree
  refine step_of_error ?_
  rw [perform_dropGuard, if_neg hfree']

theorem size_erase_guards (hheld : g ∈ session.guards) :
    (session.guards.erase g).size + 1 = session.guards.size := by
  have hpos : session.guards.size ≠ 0 := by
    intro hsize
    have hempty : session.guards.isEmpty = true := by
      rw [Std.TreeMap.isEmpty_eq_size_eq_zero, hsize]
      rfl
    exact Std.TreeMap.isEmpty_iff_forall_not_mem.1 hempty g hheld
  rw [Std.TreeMap.size_erase, if_pos (Std.TreeMap.mem_iff_contains.1 hheld)]
  omega

/-- What the operations on activations and guards do. -/
theorem lifecycleStep (build : Build) (session : Session τ κ)
    (hlifecycle : operation.isLifecycle = true) :
    LifecycleStep build session (session.step build operation).2 operation
      (session.step build operation).1 := by
  have hended := Library.deactivate_activations session.opened.library
  cases operation with
  | activate => exact .activated (Library.activate_activations _) rfl
  | deactivate =>
      rw [step_deactivate]
      rcases Nat.eq_zero_or_pos session.library.activations with hzero | hpos
      · have hinactive : session.library.isActive = false := by simp [Library.isActive, hzero]
        rw [hinactive]
        exact .alreadyInactive hzero (hended.trans (by rw [opened, hzero])) rfl
      · have hactive : session.library.isActive = true := decide_eq_true hpos
        rw [hactive]
        exact .deactivated hpos hended rfl
  | newGuard g =>
      obtain ⟨text, hstep⟩ := step_newGuard build session g
      rw [hstep]
      by_cases hheld : g ∈ session.guards
      · rw [if_pos hheld]
        refine .replaced g text hheld ?_ ?_
        · show session.opened.library.activate.deactivate.2.activations = _
          rw [Library.deactivate_activations, Library.activate_activations]
          rfl
        · show (session.guards.insert g ()).size = _
          rw [Std.TreeMap.size_insert, if_pos (Std.TreeMap.mem_iff_contains.1 hheld)]
      · rw [if_neg hheld]
        refine .guarded g text hheld (Library.activate_activations _) ?_
        show (session.guards.insert g ()).size = _
        rw [Std.TreeMap.size_insert,
          if_neg fun h => hheld (Std.TreeMap.mem_iff_contains.2 h)]
  | dropGuard g =>
      by_cases hheld : g ∈ session.guards
      · rw [step_dropGuard_of_mem build hheld]
        rcases Nat.eq_zero_or_pos session.library.activations with hzero | hpos
        · simp only [hzero, and_true]
          exact .unbalanced g hheld hzero (hended.trans (by rw [opened, hzero]))
            (size_erase_guards hheld)
        · rw [if_neg fun h => Nat.ne_of_gt hpos h.2]
          exact .released g hheld hpos hended (size_erase_guards hheld)
      · rw [step_dropGuard_of_not_mem build hheld]
        exact .unknown g hheld rfl rfl
  | _ => cases hlifecycle

/-- Whether the step is a bare deactivation that ended an activation. -/
def isBareEnding : Operation τ κ × Except Objection Answer → Bool
  | (.deactivate, .ok (.flag ended)) => ended
  | _ => false

/-- A step takes an activation only with a guard, or as a bare deactivation that ends one. -/
theorem LifecycleStep.guards_le {after : Session τ κ} {answer : Except Objection Answer}
    (h : LifecycleStep build session after operation answer) :
    after.guards.size + (if operation.isActivation then 1 else 0) + session.library.activations ≤
      after.library.activations + (if isBareEnding (operation, answer) then 1 else 0) +
        session.guards.size := by
  cases h with
  | activated | deactivated | alreadyInactive | guarded | replaced | released | unbalanced
    | unknown =>
      simp only [Operation.isActivation, isBareEnding, reduceIte, Bool.false_eq_true]
      omega

/-- If every guard stands for an activation, and so does a bare deactivation, a step keeps the
balance. -/
theorem LifecycleStep.balance {after : Session τ κ} {answer : Except Objection Answer}
    (h : LifecycleStep build session after operation answer)
    (hguards : 0 < session.guards.size → 0 < session.library.activations)
    (hbare : operation.isDeactivation = true → 0 < session.library.activations) :
    after.library.activations + (if operation.isDeactivation then 1 else 0) +
        session.guards.size =
      after.guards.size + (if operation.isActivation then 1 else 0) +
        session.library.activations := by
  cases h with
  | alreadyInactive hzero => exact absurd (hbare rfl) (Nat.not_lt.2 (Nat.le_of_eq hzero))
  | unbalanced _ _ hzero _ hsize =>
      exact absurd (hguards (by omega)) (Nat.not_lt.2 (Nat.le_of_eq hzero))
  | activated | deactivated | guarded | replaced | released | unknown =>
      simp only [Operation.isActivation, Operation.isDeactivation, reduceIte, Bool.false_eq_true]
      omega

/-! ## Sequences of steps -/

/-- How many of the bare deactivations ended an activation. -/
def bareEndings (build : Build) (session : Session τ κ) (operations : List (Operation τ κ)) : Nat :=
  (session.answers build operations).countP isBareEnding

theorem bareEndings_concat (build : Build) (session : Session τ κ)
    (operations : List (Operation τ κ)) (operation : Operation τ κ) :
    session.bareEndings build (operations ++ [operation]) =
      session.bareEndings build operations +
        if isBareEnding (operation, ((session.after build operations).step build operation).1)
        then 1 else 0 := by
  unfold bareEndings
  rw [answers_append, List.countP_append]
  exact congrArg _ (List.countP_singleton ..)

section FromStart

variable (build : Build) (own : τ) {operations : List (Operation τ κ)}

/-- The session after some operations, the library being inactive before the first. -/
def fromInactive (operations : List (Operation τ κ)) : Session τ κ :=
  (start false own).after build operations

/-- Every activation of a guard and every bare one is outstanding, unless a bare deactivation ended
one. -/
theorem guards_add_activations_le
    (hlifecycle : ∀ operation ∈ operations, operation.isLifecycle = true) :
    (fromInactive build own operations).guards.size + operations.countP Operation.isActivation ≤
      (fromInactive build own operations).library.activations +
        (start false own : Session τ κ).bareEndings build operations := by
  induction operations using List.reverseRecOn with
  | nil => exact Nat.le_refl 0
  | append_singleton operations operation ih =>
      have hbefore := ih fun other hother => hlifecycle other (List.mem_append_left _ hother)
      have hstep := (lifecycleStep build (fromInactive build own operations)
        (hlifecycle operation (List.mem_append_right _ List.mem_cons_self))).guards_le
      unfold fromInactive at hbefore hstep ⊢
      rw [after_concat, bareEndings_concat, List.countP_append, List.countP_singleton]
      omega

/-- As long as bare deactivations do not outnumber bare activations, the activations are those of the
guards and the bare ones that are left. -/
theorem activations_add_deactivations
    (hlifecycle : ∀ operation ∈ operations, operation.isLifecycle = true)
    (hbalanced : Operation.Balanced operations) :
    (fromInactive build own operations).library.activations +
        operations.countP Operation.isDeactivation =
      (fromInactive build own operations).guards.size +
        operations.countP Operation.isActivation := by
  induction operations using List.reverseRecOn with
  | nil => rfl
  | append_singleton operations operation ih =>
      have hbefore := ih (fun other hother => hlifecycle other (List.mem_append_left _ hother))
        (hbalanced.of_prefix (List.prefix_append _ _))
      have hearlier := hbalanced operations (List.prefix_append _ _)
      have hnow := hbalanced _ (List.prefix_refl _)
      rw [List.countP_append, List.countP_append, List.countP_singleton, List.countP_singleton]
        at hnow
      -- Before the last step the balance holds, so a guard finds its activation; and a bare
      -- deactivation finds one because there were more bare activations than deactivations.
      have hdeactivation : operation.isDeactivation = true → operation.isActivation = false := by
        cases operation <;> simp [Operation.isDeactivation, Operation.isActivation]
      have hguards : 0 < (fromInactive build own operations).guards.size →
          0 < (fromInactive build own operations).library.activations := by omega
      have hbare : operation.isDeactivation = true →
          0 < (fromInactive build own operations).library.activations := by
        intro hbare
        rw [hbare, hdeactivation hbare] at hnow
        simp only [reduceIte, Bool.false_eq_true] at hnow
        omega
      have hstep := (lifecycleStep build (fromInactive build own operations)
        (hlifecycle operation (List.mem_append_right _ List.mem_cons_self))).balance hguards hbare
      unfold fromInactive at hbefore hstep ⊢
      rw [after_concat, List.countP_append, List.countP_append, List.countP_singleton,
        List.countP_singleton]
      omega

/-- While there is a guard, the library is active, unless bare deactivations outnumber the bare
activations. -/
theorem activations_pos (hlifecycle : ∀ operation ∈ operations, operation.isLifecycle = true)
    (hbalanced : Operation.Balanced operations)
    (hguards : 0 < (fromInactive build own operations : Session τ κ).guards.size) :
    0 < (fromInactive build own operations).library.activations := by
  have hbalance := activations_add_deactivations build own hlifecycle hbalanced
  have hcounts := hbalanced operations (List.prefix_refl _)
  omega

/-- As long as bare deactivations do not outnumber bare activations, every operation finds the
activation that it is to end. -/
theorem answer_of_balanced {operation : Operation τ κ}
    (hlifecycle : ∀ other ∈ operations ++ [operation], other.isLifecycle = true)
    (hbalanced : Operation.Balanced (operations ++ [operation])) :
    let session : Session τ κ := fromInactive build own operations
    let answer := (session.step build operation).1
    (operation = .deactivate → answer = .ok (.flag true)) ∧
      (∀ g, operation = .dropGuard g → g ∈ session.guards → answer = .ok .done) ∧
      ∀ fault, answer ≠ .error (.failed (.fault fault)) := by
  intro session answer
  have hearlier : operations <+: operations ++ [operation] := List.prefix_append _ _
  have hlifecycle' := fun other hmem => hlifecycle other (hearlier.subset hmem)
  have hactive : 0 < session.guards.size → 0 < session.library.activations :=
    activations_pos build own hlifecycle' (hbalanced.of_prefix hearlier)
  have hbalance : session.library.activations + operations.countP Operation.isDeactivation =
      session.guards.size + operations.countP Operation.isActivation :=
    activations_add_deactivations build own hlifecycle' (hbalanced.of_prefix hearlier)
  have hnow := hbalanced _ (List.prefix_refl _)
  rw [List.countP_append, List.countP_append, List.countP_singleton, List.countP_singleton] at hnow
  have hstep : LifecycleStep build session (session.step build operation).2 operation answer :=
    lifecycleStep build session (hlifecycle operation (List.mem_append_right _ List.mem_cons_self))
  generalize answer = given at hstep
  cases hstep with
  | activated | guarded | replaced => exact ⟨nofun, nofun, nofun⟩
  | deactivated => exact ⟨fun _ => rfl, nofun, nofun⟩
  | alreadyInactive hzero =>
      simp only [Operation.isDeactivation, Operation.isActivation, reduceIte,
        Bool.false_eq_true] at hnow
      omega
  | released => exact ⟨nofun, fun _ _ _ => rfl, nofun⟩
  | unbalanced _ _ hzero _ hsize => exact absurd (hactive (by omega)) (by omega)
  | unknown g hfree =>
      refine ⟨nofun, ?_, nofun⟩
      intro other hother hheld
      injection hother with hother
      exact absurd (hother ▸ hheld) hfree

/-- A guard finds no activation only if the bare deactivations that ended one outnumber the bare
activations. -/
theorem dropGuard_of_mem (hlifecycle : ∀ operation ∈ operations, operation.isLifecycle = true)
    {g : Nat} (hheld : g ∈ (fromInactive build own operations : Session τ κ).guards) :
    let session : Session τ κ := fromInactive build own operations
    let answer := (session.step build (.dropGuard g)).1
    let after := (session.step build (.dropGuard g)).2
    (answer = .error (.failed (.fault .unbalancedRelease)) ↔
        build = .checked ∧ session.library.activations = 0) ∧
      (session.library.activations = 0 →
        after.library.activations = 0 ∧
          operations.countP Operation.isActivation <
            (start false own : Session τ κ).bareEndings build operations) := by
  intro session answer after
  -- Of the guards in the account this one is one, so without activations the bare endings exceed
  -- the bare activations.
  have hle : session.guards.size + operations.countP Operation.isActivation ≤
      session.library.activations + (start false own : Session τ κ).bareEndings build operations :=
    guards_add_activations_le build own hlifecycle
  have hsize : (session.guards.erase g).size + 1 = session.guards.size := size_erase_guards hheld
  have hstep : session.step build (.dropGuard g) = _ := step_dropGuard_of_mem build hheld
  have hanswer : answer = _ := congrArg Prod.fst hstep
  have hafter : after = _ := congrArg Prod.snd hstep
  rw [hanswer, hafter]
  refine ⟨?_, fun hzero => ⟨?_, by omega⟩⟩
  · by_cases hzero : build = .checked ∧ session.library.activations = 0
    · exact ⟨fun _ => hzero, fun _ => if_pos hzero⟩
    · rw [if_neg hzero]
      exact ⟨nofun, fun h => absurd h hzero⟩
  · exact (Library.deactivate_activations _).trans (by rw [opened, hzero])

/-- **Guards keep the library active.**  Let guards be made and given up, in any order, and bare
activations be made and ended, from an inactive library on.

If at no time the bare deactivations outnumber the bare activations, there are always as many
activations as there are guards and bare activations less bare deactivations.  So the library is
active while there is a guard, every bare deactivation ends an activation, every guard finds one when
it is given up, and no operation meets a fault.

In any other sequence, a guard that is given up finds no activation only if the bare deactivations
that ended one outnumber the bare activations by then.  That is a fault in the checked build only, and
there is no activation afterwards either.  A guard that is replaced always finds one. -/
theorem guards_keep_active
    (hlifecycle : ∀ operation ∈ operations, operation.isLifecycle = true) :
    (Operation.Balanced operations →
      (∀ earlier, earlier <+: operations →
        let session : Session τ κ := fromInactive build own earlier
        session.library.activations + earlier.countP Operation.isDeactivation =
            session.guards.size + earlier.countP Operation.isActivation ∧
          ∀ g, g ∈ session.guards → session.library.isActive = true) ∧
      ∀ earlier operation rest, operations = earlier ++ operation :: rest →
        let session : Session τ κ := fromInactive build own earlier
        let answer := (session.step build operation).1
        (operation = .deactivate → answer = .ok (.flag true)) ∧
          (∀ g, operation = .dropGuard g → g ∈ session.guards → answer = .ok .done) ∧
          ∀ fault, answer ≠ .error (.failed (.fault fault))) ∧
    (∀ earlier g rest, operations = earlier ++ .dropGuard g :: rest →
      let session : Session τ κ := fromInactive build own earlier
      let answer := (session.step build (.dropGuard g)).1
      let after := (session.step build (.dropGuard g)).2
      g ∈ session.guards →
        (answer = .error (.failed (.fault .unbalancedRelease)) ↔
          build = .checked ∧ session.library.activations = 0) ∧
        (session.library.activations = 0 →
          after.library.activations = 0 ∧
            earlier.countP Operation.isActivation <
              (start false own : Session τ κ).bareEndings build earlier)) ∧
    ∀ earlier g rest, operations = earlier ++ .newGuard g :: rest →
      ∃ text, ((fromInactive build own earlier).step build (.newGuard g)).1 = .ok (.text text) := by
  refine ⟨fun hbalanced => ⟨?_, ?_⟩, ?_, ?_⟩
  · intro earlier hearlier session
    have hlifecycle' := fun operation hmem => hlifecycle operation (hearlier.subset hmem)
    have hbalanced' := hbalanced.of_prefix hearlier
    refine ⟨activations_add_deactivations build own hlifecycle' hbalanced', fun g hheld => ?_⟩
    have hsize : (session.guards.erase g).size + 1 = session.guards.size := size_erase_guards hheld
    have hguards : 0 < session.guards.size := by omega
    exact decide_eq_true (activations_pos build own hlifecycle' hbalanced' hguards)
  · rintro earlier operation rest rfl
    have hearlier : earlier ++ [operation] <+: earlier ++ operation :: rest :=
      ⟨rest, List.append_assoc ..⟩
    exact answer_of_balanced build own (fun other hmem => hlifecycle other (hearlier.subset hmem))
      (hbalanced.of_prefix hearlier)
  · rintro earlier g rest rfl session answer after hheld
    exact dropGuard_of_mem build own
      (fun operation hmem => hlifecycle operation (List.mem_append_left _ hmem)) hheld
  · intro earlier g rest _
    obtain ⟨text, hstep⟩ := step_newGuard build (fromInactive build own earlier) g
    exact ⟨text, congrArg Prod.fst hstep⟩

/-- A guard that is given up in another order than it was made, while a bare activation stands for it;
and a guard whose activation is ended by a bare deactivation. -/
theorem guards_keep_active_stolen :
    let kept : List (Operation Unit Unit) :=
      [.activate, .newGuard 0, .newGuard 1, .dropGuard 0, .deactivate, .dropGuard 1]
    let stolen : List (Operation Unit Unit) := [.newGuard 0, .deactivate, .dropGuard 0]
    ((∀ operation ∈ kept, operation.isLifecycle = true) ∧ Operation.Balanced kept ∧
      ∀ operation ∈ stolen, operation.isLifecycle = true) ∧
      (fromInactive .checked () (kept.take 5)).library.isActive = true ∧
      ((fromInactive .checked () (kept.take 5)).step .checked (.dropGuard 1)).1 = .ok .done ∧
      ((fromInactive .checked () (stolen.take 2)).step .checked (.dropGuard 0)).1 =
        .error (.failed (.fault .unbalancedRelease)) := by
  intro kept stolen
  have hkept : ∀ operation ∈ kept, operation.isLifecycle = true := by decide
  have hstolen : ∀ operation ∈ stolen, operation.isLifecycle = true := by decide
  have hbalanced : Operation.Balanced kept := by decide
  obtain ⟨hkeeps, -⟩ := guards_keep_active .checked () hkept
  obtain ⟨hactive, hanswers⟩ := hkeeps hbalanced
  obtain ⟨-, hdrop, -⟩ := hanswers (kept.take 5) (.dropGuard 1) [] rfl
  obtain ⟨-, hfault, -⟩ := guards_keep_active .checked () hstolen
  refine ⟨⟨hkept, hbalanced, hstolen⟩, ?_, ?_, ?_⟩
  · exact (hactive (kept.take 5) ⟨[.dropGuard 1], rfl⟩).2 1 (by decide +kernel)
  · exact hdrop 1 rfl (by decide +kernel)
  · exact (hfault (stolen.take 2) 0 [] rfl (by decide +kernel)).1.2 (by decide +kernel)

end FromStart

end Session

end ConstraintSearch
