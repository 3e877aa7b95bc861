import ConstraintSearch.Text.Outline

/-!
# Limits of a search

A search may be limited in the number of values it tries and in the time it takes.  The clock
and the cancellation flag are read only when the number of tried values is a multiple of the
check interval.
-/

namespace ConstraintSearch

/-- The limits of a search. -/
structure Config where
  /-- The greatest number of values to try. -/
  nodeLimit : Option Nat := none
  /-- The greatest number of milliseconds to take. -/
  timeLimit : Option Nat := none
  /-- After how many tried values the clock and the cancellation flag are read again. -/
  checkInterval : Nat := 1024
  deriving DecidableEq, Repr, Inhabited

/-- Why limits cannot be searched with. -/
inductive ConfigFlaw where
  | zeroInterval
  | zeroNodeLimit
  | zeroTimeLimit
  deriving DecidableEq, Repr

namespace ConfigFlaw

/-- The flaw in words. -/
def message : ConfigFlaw → String
  | .zeroInterval => "check_interval must be positive"
  | .zeroNodeLimit => "node_limit must be positive when set"
  | .zeroTimeLimit => "time_limit_ms must be positive when set"

end ConfigFlaw

namespace Config

/-- The first flaw of the limits, if they have one. -/
def flaw? (config : Config) : Option ConfigFlaw :=
  if config.checkInterval = 0 then some .zeroInterval
  else if config.nodeLimit = some 0 then some .zeroNodeLimit
  else if config.timeLimit = some 0 then some .zeroTimeLimit
  else none

/-- Limits can be searched with exactly when the interval and each limit that is set are
positive. -/
theorem flaw?_eq_none_iff (config : Config) :
    config.flaw? = none ↔
      0 < config.checkInterval ∧ config.nodeLimit ≠ some 0 ∧ config.timeLimit ≠ some 0 := by
  unfold flaw?
  by_cases hinterval : config.checkInterval = 0
  · simp [hinterval]
  · by_cases hnode : config.nodeLimit = some 0
    · simp [hinterval, hnode]
    · by_cases htime : config.timeLimit = some 0
      · simp [hinterval, hnode, htime]
      · simp [hinterval, hnode, htime, Nat.pos_of_ne_zero hinterval]

/-- The limits as a value. -/
def outline (config : Config) : Outline :=
  .record "SolverConfig"
    [("node_limit", .optional .number config.nodeLimit),
      ("time_limit_ms", .optional .number config.timeLimit),
      ("check_interval", .number config.checkInterval)] true

end Config

end ConstraintSearch
