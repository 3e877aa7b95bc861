import ConstraintSearch.Proofs.Problem.Scan

/-!
# Scans at different frontiers

Let every slot be set, and let the checkers that can be asked be local.  Then a scan accepts exactly
if every applicable constraint does (`answer_scan_of_decided`), whatever the checkers remember.  The
constraints that are applicable at a frontier are so at every later one, and their answers depend on
nothing that stands beyond it.  From this follow the laws that make it sound to give up a partial
assignment as soon as a scan rejects it (`scan_frontier_laws`): whatever is bound next, a later scan
rejects as well.

Nothing is asked of the variables: a constraint may refer to ones that the problem does not have, as
long as its checker is at home with the assignments in question.
-/

namespace ConstraintSearch

variable {σ κ : Type}

namespace Constraint

variable {constraint : Constraint σ κ} {context : κ} {known : Array Nat → Prop}

/-- Shown any of the known assignments, the checker answers by what they have for the variables of
the tuple, and by nothing else. -/
def LocalAmong (constraint : Constraint σ κ) (context : κ) (known : Array Nat → Prop) : Prop :=
  ∃ verdict : List (Option Nat) → Bool, ∀ assignment, known assignment → ∀ memory, ∃ after,
    constraint.check assignment context memory =
      .ok (verdict (constraint.scope.map fun v => assignment[v]?)) after

/-- A constraint that has variables is applicable exactly when the largest one is bound. -/
theorem isApplicable_iff_maxVariable_lt (harity : 0 < constraint.arity) (frontier : Nat) :
    constraint.isApplicable frontier = true ↔ constraint.maxVariable < frontier := by
  rw [isApplicable_iff]
  constructor
  · intro hscope
    obtain ⟨v, hv⟩ := List.exists_mem_of_length_pos harity
    exact maxVariable_lt (Nat.zero_lt_of_lt (hscope v hv)) hscope
  · intro hlt v hv
    exact Nat.lt_of_le_of_lt (le_maxVariable hv) hlt

theorem LocalAmong.decided (hlocal : constraint.LocalAmong context known) {assignment : Array Nat}
    (hassignment : known assignment) :
    ∃ accepted, ∀ memory, ∃ after,
      constraint.check assignment context memory = .ok accepted after := by
  obtain ⟨verdict, hverdict⟩ := hlocal
  exact ⟨_, hverdict assignment hassignment⟩

/-- Such a checker does not tell assignments apart that agree on its variables. -/
theorem LocalAmong.accepts_congr (hlocal : constraint.LocalAmong context known)
    {assignment other : Array Nat} (hassignment : known assignment) (hother : known other)
    {frontier : Nat} (happlicable : constraint.isApplicable frontier = true)
    (hagree : AgreeBelow frontier assignment other) :
    constraint.Accepts context other ↔ constraint.Accepts context assignment := by
  obtain ⟨verdict, hverdict⟩ := hlocal
  have hsame : constraint.scope.map (fun v => other[v]?) =
      constraint.scope.map fun v => assignment[v]? :=
    List.map_congr_left fun v hv =>
      hagree v ((constraint.isApplicable_iff frontier).1 happlicable v hv)
  refine forall_congr' fun memory => ?_
  obtain ⟨after, hafter⟩ := hverdict assignment hassignment memory
  obtain ⟨after', hafter'⟩ := hverdict other hother memory
  rw [hafter, hafter', hsame]
  simp

end Constraint

namespace Problem

variable {problem : Problem σ κ} {context : κ} {assignment other : Array Nat}
  {frontier earlier : Nat} {memory : σ}

/-! ## Local checkers -/

section Local

variable {known : Array Nat → Prop} (hfilled : none ∉ problem.slots)
  (hlocal : ∀ constraint, problem.Attached constraint →
    constraint.isApplicable frontier = true → constraint.LocalAmong context known)

include hlocal in
theorem acceptsUpTo_congr (hassignment : known assignment) (hother : known other)
    (hagree : AgreeBelow frontier assignment other) :
    problem.AcceptsUpTo context frontier other ↔ problem.AcceptsUpTo context frontier assignment :=
  forall₃_congr fun constraint hattached happlicable =>
    (hlocal constraint hattached happlicable).accepts_congr hassignment hother happlicable hagree

include hfilled hlocal

/-- With local checkers a scan accepts if every applicable constraint does, and else it rejects. -/
theorem answer_scan_of_local (hassignment : known assignment) (memory : σ) :
    ∃ accepted, (problem.scan assignment context frontier memory).answer = .ok accepted ∧
      (accepted = true ↔ problem.AcceptsUpTo context frontier assignment) :=
  answer_scan_of_decided hfilled
    (fun constraint hattached happlicable =>
      (hlocal constraint hattached happlicable).decided hassignment) memory

theorem answer_scan_eq_true_iff_of_local (hassignment : known assignment) (memory : σ) :
    (problem.scan assignment context frontier memory).answer = .ok true ↔
      problem.AcceptsUpTo context frontier assignment := by
  obtain ⟨accepted, hanswer, haccepted⟩ := answer_scan_of_local hfilled hlocal hassignment memory
  rw [hanswer, Except.ok.injEq, haccepted]

theorem answer_scan_eq_false_iff_of_local (hassignment : known assignment) (memory : σ) :
    (problem.scan assignment context frontier memory).answer = .ok false ↔
      ¬problem.AcceptsUpTo context frontier assignment := by
  obtain ⟨accepted, hanswer, haccepted⟩ := answer_scan_of_local hfilled hlocal hassignment memory
  rw [hanswer, Except.ok.injEq, ← haccepted, Bool.not_eq_true]

end Local

/-! ## Main statement -/

/-- **Frontier laws.**  Let every slot be set, and let the constraints that are applicable at the
frontier be local among the known assignments.  A constraint, which always has variables, is
applicable exactly when the frontier is beyond its largest one.  A scan answers, whatever the
checkers remember.  If it accepts, then so does every scan at an earlier frontier.  It answers alike
for assignments that agree below the frontier.  When the frontier is beyond all variables that
constraints refer to, it accepts exactly if every constraint does.  And what a scan rejects is
rejected for good: no assignment that agrees with it below that frontier is accepted at a later one. -/
theorem scan_frontier_laws {known : Array Nat → Prop} (hfilled : none ∉ problem.slots)
    (hlocal : ∀ constraint, problem.Attached constraint →
      constraint.isApplicable frontier = true → constraint.LocalAmong context known)
    (hassignment : known assignment) (hother : known other) (hle : earlier ≤ frontier) :
    (∀ constraint, problem.Attached constraint → 0 < constraint.arity →
      (constraint.isApplicable frontier = true ↔ constraint.maxVariable < frontier)) ∧
    (∀ memory, ∃ accepted,
      (problem.scan assignment context frontier memory).answer = .ok accepted) ∧
    (∀ memory memory', (problem.scan assignment context frontier memory).answer = .ok true →
      (problem.scan assignment context earlier memory').answer = .ok true) ∧
    (AgreeBelow frontier assignment other → ∀ memory memory',
      (problem.scan other context frontier memory').answer =
        (problem.scan assignment context frontier memory).answer) ∧
    ((∀ constraint, problem.Attached constraint → ∀ v ∈ constraint.scope, v < frontier) →
      ∀ memory, (problem.scan assignment context frontier memory).answer = .ok true ↔
        problem.Accepts context assignment) ∧
    (AgreeBelow earlier assignment other → ∀ memory memory',
      (problem.scan assignment context earlier memory).answer = .ok false →
        (problem.scan other context frontier memory').answer = .ok false) := by
  -- A constraint that is applicable at the earlier frontier is so at the later one, so the checkers
  -- that matter there are local too.
  have hlocal' : ∀ constraint, problem.Attached constraint →
      constraint.isApplicable earlier = true → constraint.LocalAmong context known :=
    fun constraint hattached happlicable =>
      hlocal constraint hattached (constraint.isApplicable_mono hle happlicable)
  refine ⟨fun constraint _ harity => constraint.isApplicable_iff_maxVariable_lt harity frontier,
    ?_, ?_, ?_, ?_, ?_⟩
  · intro memory
    obtain ⟨accepted, hanswer, -⟩ := answer_scan_of_local hfilled hlocal hassignment memory
    exact ⟨accepted, hanswer⟩
  · intro memory memory' haccepted
    rw [answer_scan_eq_true_iff_of_local hfilled hlocal hassignment] at haccepted
    rw [answer_scan_eq_true_iff_of_local hfilled hlocal' hassignment]
    exact haccepted.mono hle
  · intro hagree memory memory'
    obtain ⟨accepted, hanswer, haccepted⟩ := answer_scan_of_local hfilled hlocal hassignment memory
    obtain ⟨accepted', hanswer', haccepted'⟩ := answer_scan_of_local hfilled hlocal hother memory'
    rw [acceptsUpTo_congr hlocal hassignment hother hagree, ← haccepted] at haccepted'
    rw [hanswer, hanswer', Bool.eq_iff_iff.2 haccepted']
  · intro hbeyond memory
    rw [answer_scan_eq_true_iff_of_local hfilled hlocal hassignment]
    refine ⟨fun haccepts constraint hattached => ?_, fun haccepts => haccepts.upTo frontier⟩
    exact haccepts constraint hattached
      ((constraint.isApplicable_iff frontier).2 (hbeyond constraint hattached))
  · -- A rejection is for good: carry it over to the other assignment at the earlier frontier, where
    -- the two agree, and from there to the later frontier.
    intro hagree memory memory' hrejected
    rw [answer_scan_eq_false_iff_of_local hfilled hlocal' hassignment,
      ← acceptsUpTo_congr hlocal' hassignment hother hagree] at hrejected
    rw [answer_scan_eq_false_iff_of_local hfilled hlocal hother]
    exact fun haccepts => hrejected (haccepts.mono hle)

/-- Three constraints that their first variable is not one, with a checker that counts its calls and
gives up on a variable without a value.  One of them has its variables twice and out of order, and
one refers to a variable that the problem does not have. -/
def noOnes : Problem Nat Unit where
  domains := #[3, 3, 3]
  slots :=
    let checker : Checker Nat Unit :=
      { identity := 0
        check := fun scope assignment _ calls =>
          match assignment[scope.headD 0]? with
          | some value => .ok (value ≠ 1) (calls + 1)
          | none => .error (.gaveUp "no value") (calls + 1) }
    #[some { scope := [2, 0, 2], checker }, some { scope := [1], checker },
      some { scope := [7], checker }]

theorem noOnes_local : ∀ constraint, noOnes.Attached constraint →
    constraint.isApplicable 3 = true →
      constraint.LocalAmong () fun assignment => assignment.size = 3 := by
  intro constraint hattached happlicable
  simp only [Attached, noOnes, List.mem_toArray, List.mem_cons, List.not_mem_nil, or_false,
    Option.some.injEq] at hattached
  refine ⟨fun values => values.headD none ≠ some 1, fun assignment hsize calls => ⟨calls + 1, ?_⟩⟩
  rcases hattached with rfl | rfl | rfl
  · simp [Constraint.check, hsize]
  · simp [Constraint.check, hsize]
  · exact absurd happlicable (by decide)

/-- Whatever the third variable is bound to, the scan that has rejected the second one rejects. -/
theorem scan_frontier_laws_noOnes :
    none ∉ noOnes.slots ∧
      (∀ constraint, noOnes.Attached constraint → constraint.isApplicable 3 = true →
        constraint.LocalAmong () fun assignment => assignment.size = 3) ∧
      (noOnes.scan #[0, 1, 0] () 2 0).answer = .ok false ∧
      ∀ third calls, (noOnes.scan #[0, 1, third] () 3 calls).answer = .ok false := by
  have hfilled : none ∉ noOnes.slots := by simp [noOnes]
  have hrejected : (noOnes.scan #[0, 1, 0] () 2 0).answer = .ok false := by
    rw [answer_scan]
    rfl
  refine ⟨hfilled, noOnes_local, hrejected, fun third calls => ?_⟩
  have hfirst : #[0, 1, 0].size = 3 := rfl
  have hsecond : #[0, 1, third].size = 3 := rfl
  have hlaws := scan_frontier_laws hfilled noOnes_local hfirst hsecond (show 2 ≤ 3 by decide)
  refine hlaws.2.2.2.2.2 (fun v hv => ?_) 0 calls hrejected
  have hbound : v = 0 ∨ v = 1 := by omega
  rcases hbound with rfl | rfl <;> rfl

end Problem

end ConstraintSearch
