import ConstraintSearch.Action
import ConstraintSearch.Build
import ConstraintSearch.CommandLine.Arguments
import ConstraintSearch.CommandLine.Program
import ConstraintSearch.Constraint
import ConstraintSearch.Error
import ConstraintSearch.Fault
import ConstraintSearch.Json.Compact
import ConstraintSearch.Json.Shape
import ConstraintSearch.Json.Token
import ConstraintSearch.Json.Value
import ConstraintSearch.Library
import ConstraintSearch.Log
import ConstraintSearch.Main
import ConstraintSearch.Problem
import ConstraintSearch.Problem.Scan
import ConstraintSearch.Puzzle.BoxGrid
import ConstraintSearch.Puzzle.Model
import ConstraintSearch.Puzzle.Queens
import ConstraintSearch.Puzzle.Sudoku.Grid
import ConstraintSearch.Puzzle.Sudoku.Model
import ConstraintSearch.Search.Basic
import ConstraintSearch.Search.Config
import ConstraintSearch.Search.Json
import ConstraintSearch.Search.Machine
import ConstraintSearch.Search.Report
import ConstraintSearch.Search.Result
import ConstraintSearch.Search.Run
import ConstraintSearch.Search.Watched
import ConstraintSearch.Session.CheckerKind
import ConstraintSearch.Session.Memory
import ConstraintSearch.Session.Operation
import ConstraintSearch.Session.Perform
import ConstraintSearch.Session.State
import ConstraintSearch.Text.Blank
import ConstraintSearch.Text.Outline
import ConstraintSearch.Text.Quoted
import ConstraintSearch.Text.Unseen
import ConstraintSearch.Proofs.Library
import ConstraintSearch.Proofs.Action
import ConstraintSearch.Proofs.Problem.FirstStop
import ConstraintSearch.Proofs.Problem.Replaced
import ConstraintSearch.Proofs.Problem.Valid
import ConstraintSearch.Proofs.Problem.Local
import ConstraintSearch.Proofs.Problem.Scan
import ConstraintSearch.Proofs.Problem.Frontier
import ConstraintSearch.Proofs.Problem.Viable
import ConstraintSearch.Proofs.Search.StackInvariant
import ConstraintSearch.Proofs.Search.Turn
import ConstraintSearch.Proofs.Search.Attempts
import ConstraintSearch.Proofs.Search.Ready
import ConstraintSearch.Proofs.Search.Limits
import ConstraintSearch.Proofs.Search.Exploration
import ConstraintSearch.Proofs.Search.DepthFirst
import ConstraintSearch.Proofs.Search.Applicable
import ConstraintSearch.Proofs.Search.Recursive
import ConstraintSearch.Proofs.Search.Asked
import ConstraintSearch.Proofs.Problem.FirstFlaw
import ConstraintSearch.Proofs.Search.LeastExtension
import ConstraintSearch.Proofs.Search.View
import ConstraintSearch.Proofs.Search.Branch
import ConstraintSearch.Proofs.Search.Writes
import ConstraintSearch.Proofs.Search.Accounting
import ConstraintSearch.Proofs.Search.Soundness
import ConstraintSearch.Proofs.Search.Termination
import ConstraintSearch.Proofs.Search.Moves
import ConstraintSearch.Proofs.Search.Tour
import ConstraintSearch.Proofs.Search.WithinDomains
import ConstraintSearch.Proofs.Search.Incremental
import ConstraintSearch.Proofs.Puzzle.Model
import ConstraintSearch.Proofs.Puzzle.Queens
import ConstraintSearch.Proofs.Puzzle.Queens.Existence
import ConstraintSearch.Proofs.Puzzle.Sudoku.Grid
import ConstraintSearch.Proofs.Text.Spelling
import ConstraintSearch.Proofs.Puzzle.Sudoku.Grammar
import ConstraintSearch.Proofs.Puzzle.Sudoku.RoundTrip
import ConstraintSearch.Proofs.Puzzle.Sudoku.Groups
import ConstraintSearch.Proofs.Puzzle.Sudoku.Model
import ConstraintSearch.Proofs.Search.Leftovers
import ConstraintSearch.Proofs.Search.Lockstep
import ConstraintSearch.Proofs.Search.Independence
import ConstraintSearch.Proofs.Search.Rearranged
import ConstraintSearch.Proofs.Search.Tightening
import ConstraintSearch.Proofs.Session.Step
import ConstraintSearch.Proofs.Search.Words
import ConstraintSearch.Proofs.Search.Objections
import ConstraintSearch.Proofs.Search.Watched
import ConstraintSearch.Proofs.Session.Guards
import ConstraintSearch.Proofs.Problem.Builds
import ConstraintSearch.Proofs.Problem.Operations
import ConstraintSearch.Proofs.Search.Builds
import ConstraintSearch.Proofs.Session.Builds
import ConstraintSearch.Proofs.Session.Inactive
import ConstraintSearch.Proofs.Search.DeadEnd
import ConstraintSearch.Proofs.Puzzle.Sudoku.Clash
import ConstraintSearch.Proofs.Puzzle.BoxGrid
import ConstraintSearch.Proofs.Puzzle.Faithful
import ConstraintSearch.Proofs.Puzzle.Sudoku.Drawing
import ConstraintSearch.Proofs.Puzzle.Limited
import ConstraintSearch.Proofs.CommandLine.Verdicts
import ConstraintSearch.Proofs.Session.Place
import ConstraintSearch.Proofs.Problem.Results
import ConstraintSearch.Proofs.Session.Effect
import ConstraintSearch.Proofs.Session.Upkeep
import ConstraintSearch.Proofs.Search.BetweenTurns
import ConstraintSearch.Proofs.Puzzle.Queens.Pairs
import ConstraintSearch.Proofs.Json.Token
import ConstraintSearch.Proofs.Json.Value
import ConstraintSearch.Proofs.Json.Rules
import ConstraintSearch.Proofs.Json.Shape
import ConstraintSearch.Proofs.Json.Compact
import ConstraintSearch.Proofs.Search.Json
