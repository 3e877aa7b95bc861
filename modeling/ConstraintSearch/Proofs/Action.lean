import ConstraintSearch.Action

/-!
# Operations on an active library

Whether an operation succeeds hangs on the activations of the library and on its arguments, and not
on the messages reported before.  `Yields` says that an operation on an active library ends in a
value with some property and leaves the library active.  Such statements are put together along the
operation (`Yields.bind`, `Yields.foldlM`, `Yields.fill`), so no failure has to be looked at.  `Fails`
says the same of an operation that ends in a failure, which no cleanup hides (`Fails.followedBy`).

Most operations do not look at the library to find their value (`Determined`).  So what they yield on
an active library they yield on an inactive one too, if the build lets them (`Yields.eq_of_ok`).

`foldlM` is met in two forms: with an invariant of the items that are done (`Yields.foldlM`), and, for
loops that fill slots, with a list of the contents (`Yields.fill`).  Both are shown for a list split at
the present position, since the hypothesis on a step has to know what lies behind it.
-/

namespace ConstraintSearch.Action

variable {α β γ ι : Type} {build : Build} {action : Action α} {property : α → Prop}

/-- On an active library, the operation ends in a value with the property, and the library stays
active. -/
def Yields (action : Action α) (build : Build) (property : α → Prop) : Prop :=
  ∀ library : Library, library.isActive = true → ∃ value after,
    action build library = .ok value after ∧ after.isActive = true ∧ property value

theorem bind_apply (first : Action α) (next : α → Action β) (build : Build) (library : Library) :
    (first >>= next) build library =
      match first build library with
      | .ok value library => next value build library
      | .error failure library => .error failure library := by
  show EStateM.bind (first build) (fun value => next value build) library = _
  unfold EStateM.bind
  cases first build library <;> rfl

/-- If two operations in a row end in a value, so does each of them. -/
theorem exists_of_bind_ok {first : Action α} {next : α → Action β} {library after : Library}
    {value : β} (h : (first >>= next) build library = .ok value after) :
    ∃ middle between, first build library = .ok middle between ∧
      next middle build between = .ok value after := by
  rw [bind_apply] at h
  split at h
  · exact ⟨_, _, ‹_›, h⟩
  · cases h

theorem eq_true_of_require_ok {condition : Bool} {fault : Fault} {library after : Library}
    {value : Unit} (h : require condition fault build library = .ok value after) :
    condition = true := by
  cases condition with
  | true => rfl
  | false => cases h

theorem eq_ok_of_ofExcept_ok {result : Except Fault α} {library after : Library} {value : α}
    (h : ofExcept result build library = .ok value after) : result = .ok value := by
  cases result with
  | ok => cases h; rfl
  | error => cases h

theorem requireChecked_apply (condition : Bool) (fault : Fault) (build : Build)
    (library : Library) :
    requireChecked condition fault build library =
      if build = .checked ∧ condition = false then .error (.fault fault) library
      else .ok () library := by
  cases build <;> cases condition <;> rfl

/-- Only the checked build refuses a library that is not active. -/
theorem requireActive_apply (build : Build) (library : Library) :
    requireActive build library =
      if build = .checked ∧ library.activations = 0 then .error (.fault .inactive) library
      else .ok () library := by
  show requireChecked library.isActive .inactive build library = _
  rw [requireChecked_apply]
  simp only [Library.isActive, decide_eq_false_iff_not, Nat.not_lt, Nat.le_zero]

theorem deactivate_apply (build : Build) (library : Library) :
    deactivate build library = .ok library.isActive library.deactivate.2 := by
  rw [← Library.deactivate_ended]
  rfl

/-- Giving a guard up ends an activation; only the checked build refuses if there is none. -/
theorem release_apply (build : Build) (library : Library) :
    release build library =
      if build = .checked ∧ library.activations = 0 then
        .error (.fault .unbalancedRelease) library.deactivate.2
      else .ok () library.deactivate.2 := by
  unfold release
  rw [bind_apply, deactivate_apply]
  show requireChecked library.isActive .unbalancedRelease build library.deactivate.2 = _
  rw [requireChecked_apply]
  simp only [Library.isActive, decide_eq_false_iff_not, Nat.not_lt, Nat.le_zero]

theorem Yields.pure {value : α} (h : property value) : Yields (Pure.pure value) build property := by
  intro library hactive
  exact ⟨value, library, rfl, hactive, h⟩

theorem Yields.bind (h : Yields action build property) {next : α → Action β} {outcome : β → Prop}
    (hnext : ∀ value, property value → Yields (next value) build outcome) :
    Yields (action >>= next) build outcome := by
  intro library hactive
  obtain ⟨value, after, hvalue, hafter, hproperty⟩ := h library hactive
  rw [bind_apply, hvalue]
  exact hnext value hproperty after hafter

theorem Yields.mono (h : Yields action build property) {weaker : α → Prop}
    (hweaker : ∀ value, property value → weaker value) : Yields action build weaker := by
  intro library hactive
  obtain ⟨value, after, hvalue, hafter, hproperty⟩ := h library hactive
  exact ⟨value, after, hvalue, hafter, hweaker value hproperty⟩

/-! ## Single steps -/

theorem yields_read : Yields read build (· = build) := by
  intro library hactive
  exact ⟨build, library, rfl, hactive, rfl⟩

theorem yields_require {condition : Bool} {fault : Fault} (h : condition = true) :
    Yields (require condition fault) build fun _ => True := by
  subst h
  exact .pure trivial

theorem yields_requireChecked {condition : Bool} {fault : Fault} (h : condition = true) :
    Yields (requireChecked condition fault) build fun _ => True := by
  refine yields_read.bind fun value _ => ?_
  split
  · exact yields_require h
  · exact .pure trivial

theorem yields_requireActive : Yields requireActive build fun _ => True := by
  intro library hactive
  have hchecked : Yields (requireChecked library.isActive .inactive) build fun _ => True :=
    yields_requireChecked hactive
  exact hchecked library hactive

theorem yields_record (message : Message) : Yields (record message) build fun _ => True := by
  intro library hactive
  exact ⟨(), library.record message, rfl, hactive, trivial⟩

theorem yields_ofExcept {result : Except Fault α} {value : α} (h : result = .ok value) :
    Yields (ofExcept result) build (· = value) := by
  subst h
  exact .pure rfl

theorem Yields.followedBy (h : Yields action build property) {cleanup : Action Unit}
    (hcleanup : Yields cleanup build fun _ => True) :
    Yields (action.followedBy cleanup) build property := by
  intro library hactive
  obtain ⟨value, after, hvalue, hafter, hproperty⟩ := h library hactive
  obtain ⟨_, last, hcleaned, hlast, -⟩ := hcleanup after hafter
  refine ⟨value, last, ?_, hlast, hproperty⟩
  unfold Action.followedBy
  simp only [hvalue, hcleaned]

/-! ## Loops -/

/-- What every step of a loop keeps holds at its end. -/
theorem Yields.foldlM {step : β → ι → Action β} (invariant : List ι → β → Prop) {state : β}
    (h : invariant [] state) (items : List ι)
    (hstep : ∀ past item state, item ∈ items → invariant past state →
      Yields (step state item) build (invariant (past ++ [item]))) :
    Yields (items.foldlM step state) build (invariant items) := by
  -- The invariant speaks of the items behind us, so the statement is made about every split of the
  -- list before the induction on what is left.
  suffices hfrom : ∀ rest past state, past ++ rest = items → invariant past state →
      Yields (rest.foldlM step state) build (invariant items) from hfrom items [] state rfl h
  intro rest
  induction rest with
  | nil =>
      intro past state hitems hstate
      rw [List.append_nil] at hitems
      exact .pure (hitems ▸ hstate)
  | cons item rest ih =>
      intro past state hitems hstate
      have hmem : item ∈ items := hitems ▸ List.mem_append_right past List.mem_cons_self
      rw [List.foldlM_cons]
      refine (hstep past item state hmem hstate).bind fun next hnext => ?_
      exact ih (past ++ [item]) next (by rw [List.append_assoc]; exact hitems) hnext

/-- A loop that puts something in every place, one after the other, replaces what stood there. -/
theorem Yields.fill (put : β → ι × Nat → Action β) (made : List γ → β) (content : ι → γ)
    {items : List ι}
    (hput : ∀ front old behind item, item ∈ items →
      Yields (put (made (front ++ old :: behind)) (item, front.length)) build
        (· = made (front ++ content item :: behind)))
    {olds : List γ} (hlength : olds.length = items.length) :
    Yields (items.zipIdx.foldlM put (made olds)) build (· = made (items.map content)) := by
  -- Fill position by position: `front` is what the fold has put, `olds` what it has yet to
  -- overwrite.  The index in the list is the length of `front`.
  suffices hfrom : ∀ (rest : List ι) (front olds : List γ), (∀ item ∈ rest, item ∈ items) →
      olds.length = rest.length →
      Yields ((rest.zipIdx front.length).foldlM put (made (front ++ olds))) build
        (· = made (front ++ rest.map content)) from
    hfrom items [] olds (fun _ => id) hlength
  intro rest
  induction rest with
  | nil =>
      intro front olds _ hlength
      obtain rfl := List.eq_nil_of_length_eq_zero hlength
      exact .pure rfl
  | cons item rest ih =>
      intro front olds hitems hlength
      obtain ⟨old, olds, rfl⟩ := List.exists_cons_of_length_eq_add_one hlength
      rw [List.zipIdx_cons, List.foldlM_cons]
      refine (hput front old olds item (hitems item List.mem_cons_self)).bind ?_
      rintro _ rfl
      have hrest := ih (front ++ [content item]) olds
        (fun other hother => hitems other (List.mem_cons_of_mem item hother))
        (Nat.succ.inj hlength)
      rw [List.length_append, List.length_singleton, List.append_assoc, List.append_assoc] at hrest
      exact hrest

/-! ## Values that do not hang on the library -/

/-- Whatever the library was, if the operation ends in a value, it is the same one. -/
def Determined (action : Action α) (build : Build) : Prop :=
  ∀ library other value value' after after', action build library = .ok value after →
    action build other = .ok value' after' → value = value'

theorem determined_unit (action : Action Unit) : action.Determined build :=
  fun _ _ _ _ _ _ _ _ => rfl

theorem determined_pure (value : α) : Determined (Pure.pure value) build := by
  intro library other first second after after' hfirst hsecond
  cases hfirst
  cases hsecond
  rfl

theorem determined_read : Determined read build := by
  intro library other first second after after' hfirst hsecond
  cases hfirst
  cases hsecond
  rfl

theorem determined_ofExcept (result : Except Fault α) : (ofExcept result).Determined build := by
  cases result with
  | ok value => exact determined_pure value
  | error fault => exact nofun

theorem Determined.bind (h : action.Determined build) {next : α → Action β}
    (hnext : ∀ value, (next value).Determined build) : (action >>= next).Determined build := by
  intro library other value value' after after' hvalue hvalue'
  obtain ⟨first, between, hfirst, hvalue⟩ := exists_of_bind_ok hvalue
  obtain ⟨first', between', hfirst', hvalue'⟩ := exists_of_bind_ok hvalue'
  obtain rfl : first = first' := h _ _ _ _ _ _ hfirst hfirst'
  exact hnext first _ _ _ _ _ _ hvalue hvalue'

/-- A refusal does not end in a value. -/
theorem Determined.unlessRefused {condition : Prop} [Decidable condition] {error : ProblemError}
    {next : Unit → Action α} (h : (next ()).Determined build) :
    Determined (if condition then refused error >>= next else next ()) build := by
  by_cases hrefused : condition
  · rw [if_pos hrefused]
    exact nofun
  · rw [if_neg hrefused]
    exact h

theorem Determined.foldlM {step : β → ι → Action β}
    (hstep : ∀ state item, (step state item).Determined build) (items : List ι) (state : β) :
    (items.foldlM step state).Determined build := by
  induction items generalizing state with
  | nil => exact determined_pure state
  | cons item items ih =>
      rw [List.foldlM_cons]
      exact (hstep state item).bind ih

/-- What such an operation yields on active libraries it yields on every other one, if it yields
anything there. -/
theorem Yields.eq_of_ok {expected value : α} (h : Yields action build (· = expected))
    (hdetermined : action.Determined build) {library after : Library}
    (hvalue : action build library = .ok value after) : value = expected := by
  obtain ⟨own, last, hown, -, rfl⟩ := h { activations := 1 } rfl
  exact hdetermined _ _ _ _ _ _ hvalue hown

/-! ## Failures -/

/-- On an active library, the operation ends in the failure. -/
def Fails (action : Action α) (build : Build) (failure : Failure) : Prop :=
  ∀ library : Library, library.isActive = true → ∃ after,
    action build library = .error failure after

variable {failure : Failure}

theorem fails_refused (error : ProblemError) :
    Fails (refused error : Action α) build (.problem error) := by
  intro library _
  exact ⟨library, rfl⟩

/-- What comes behind a failure is not carried out. -/
theorem Fails.bind (h : Fails action build failure) (next : α → Action β) :
    Fails (action >>= next) build failure := by
  intro library hactive
  obtain ⟨after, hfailed⟩ := h library hactive
  exact ⟨after, by rw [bind_apply, hfailed]⟩

theorem Yields.bind_fails (h : Yields action build property) {next : α → Action β}
    (hnext : ∀ value, property value → Fails (next value) build failure) :
    Fails (action >>= next) build failure := by
  intro library hactive
  obtain ⟨value, after, hvalue, hafter, hproperty⟩ := h library hactive
  rw [bind_apply, hvalue]
  exact hnext value hproperty after hafter

/-- A cleanup does not hide the failure before it. -/
theorem Fails.followedBy (h : Fails action build failure) (cleanup : Action Unit) :
    Fails (action.followedBy cleanup) build failure := by
  intro library hactive
  obtain ⟨after, hfailed⟩ := h library hactive
  unfold Action.followedBy
  simp only [hfailed]
  cases cleanup build after with
  | ok _ last => exact ⟨last, rfl⟩
  | error _ last => exact ⟨last, rfl⟩

/-! ## Guards -/

theorem whileHeld_apply (action : Action α) (build : Build) (library : Library) :
    action.whileHeld true build library = action.followedBy release build library.activate := rfl

theorem isActive_activate (library : Library) : library.activate.isActive = true := by
  rw [Library.isActive, Library.activate_activations]
  exact decide_eq_true (Nat.succ_pos _)

theorem Yields.whileHeld (h : Yields action build property) (library : Library) :
    ∃ value after, action.whileHeld true build library = .ok value after ∧ property value := by
  obtain ⟨value, after, hvalue, hafter, hproperty⟩ := h library.activate (isActive_activate library)
  have hreleased : release build after = .ok () after.deactivate.2 := by
    have hpositive : 0 < after.activations := of_decide_eq_true hafter
    rw [release_apply, if_neg fun hnone => absurd hnone.2 (Nat.ne_of_gt hpositive)]
  refine ⟨value, after.deactivate.2, ?_, hproperty⟩
  rw [whileHeld_apply]
  unfold Action.followedBy
  simp only [hvalue, hreleased]

theorem Fails.whileHeld (h : Fails action build failure) (library : Library) :
    ∃ after, action.whileHeld true build library = .error failure after :=
  h.followedBy release library.activate (isActive_activate library)

end ConstraintSearch.Action
