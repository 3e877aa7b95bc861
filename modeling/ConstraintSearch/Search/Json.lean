import ConstraintSearch.Json.Shape
import ConstraintSearch.Search.Config
import ConstraintSearch.Search.Result

/-!
# Limits and outcomes as data

What is kept as JSON of limits, counters, statuses and outcomes: the names of their fields in order,
and which of them may be absent.  A status is a choice among its names.  An outcome is nested: its
status and its counters are fields of their own shapes.
-/

namespace ConstraintSearch

/-- The limits as a record; each limit may be absent. -/
def Config.format : Format Config where
  shape := .record
    [("node_limit", .optional .word), ("time_limit_ms", .optional .word), ("check_interval", .word)]
  toDatum config := .record
    [.ofOption config.nodeLimit, .ofOption config.timeLimit, .word config.checkInterval]
  ofDatum?
    | .record [nodeLimit, timeLimit, .word checkInterval] => do
        return {
          nodeLimit := ← nodeLimit.optionalWord?
          timeLimit := ← timeLimit.optionalWord?
          checkInterval }
    | _ => none

/-- The counters as a record. -/
def Stats.format : Format Stats where
  shape := .record
    [("nodes", .word), ("consistency_checks", .word), ("backtracks", .word), ("max_depth", .word),
      ("elapsed_ms", .word)]
  toDatum stats := .record
    [.word stats.nodes, .word stats.checks, .word stats.backtracks, .word stats.maxDepth,
      .word stats.elapsed]
  ofDatum?
    | .record [.word nodes, .word checks, .word backtracks, .word maxDepth, .word elapsed] =>
        some { nodes, checks, backtracks, maxDepth, elapsed }
    | _ => none

/-- The status as one of its names. -/
def Status.format : Format Status where
  shape := .choice (Status.all.map Status.name)
  toDatum status := .chosen status.name
  ofDatum?
    | .chosen name => Status.ofName? name
    | _ => none

/-- The outcome as a record of its status and its counters. -/
def Result.format : Format Result where
  shape := .record [("status", Status.format.shape), ("stats", Stats.format.shape)]
  toDatum result := .record [Status.format.toDatum result.status, Stats.format.toDatum result.stats]
  ofDatum?
    | .record [status, stats] => do
        return {
          status := ← Status.format.ofDatum? status
          stats := ← Stats.format.ofDatum? stats }
    | _ => none

end ConstraintSearch
