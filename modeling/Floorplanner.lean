import Floorplanner.Alignment
import Floorplanner.Annealing
import Floorplanner.Annealing.Run
import Floorplanner.Binary64
import Floorplanner.Block
import Floorplanner.Block.Reshape
import Floorplanner.Block.Stretch
import Floorplanner.Command.Arguments
import Floorplanner.Command.Execution
import Floorplanner.Command.Host
import Floorplanner.Command.Request
import Floorplanner.Command.Workspace
import Floorplanner.Config
import Floorplanner.Config.Document
import Floorplanner.Config.Validation
import Floorplanner.Cost.Model
import Floorplanner.Cost.Notch
import Floorplanner.Cost.Terms
import Floorplanner.Design
import Floorplanner.Design.Document
import Floorplanner.Design.Error
import Floorplanner.Design.Resolution
import Floorplanner.Diagnostic
import Floorplanner.Diagnostic.Journal
import Floorplanner.Diagnostic.Json
import Floorplanner.Entity
import Floorplanner.Floorplan
import Floorplanner.Geometry
import Floorplanner.Geometry.Json
import Floorplanner.Input
import Floorplanner.Main
import Floorplanner.Move
import Floorplanner.Number
import Floorplanner.Packing
import Floorplanner.Path
import Floorplanner.Plan
import Floorplanner.Plan.Report
import Floorplanner.Problem
import Floorplanner.Progress
import Floorplanner.Random.Generator
import Floorplanner.Random.Script
import Floorplanner.Random.Source
import Floorplanner.Search
import Floorplanner.SequencePair
import Floorplanner.Text.Data
import Floorplanner.Text.Decimal
import Floorplanner.Text.Json
import Floorplanner.Text.Json.Document
import Floorplanner.Text.Json.Numeral
import Floorplanner.Text.Json.Reader
import Floorplanner.Text.Json.Record
import Floorplanner.Text.NumberText
import Floorplanner.Text.Toml.Reader
import Floorplanner.Text.Toml.Scalar
import Floorplanner.Text.Toml.Table
import Floorplanner.Text.Toml.TaggedDate
import Floorplanner.Proofs.ExactNumber
import Floorplanner.Proofs.Packing.Places
import Floorplanner.Proofs.Packing.Reach
import Floorplanner.Proofs.Geometry.Overlap
import Floorplanner.Proofs.Packing.Separation
import Floorplanner.Proofs.Packing.LongestChain
import Floorplanner.Proofs.Move.Undo
import Floorplanner.Proofs.Annealing.Iterations
import Floorplanner.Proofs.Annealing.Coherence
import Floorplanner.Proofs.Annealing.BestLayout
import Floorplanner.Proofs.Alignment.Passes
import Floorplanner.Proofs.Alignment.Legality
import Floorplanner.Proofs.Alignment.HardBlocks
import Floorplanner.Proofs.Plan.Overlap
import Floorplanner.Proofs.Fallible
import Floorplanner.Proofs.Random.Fraction
import Floorplanner.Proofs.Random.Draws
import Floorplanner.Proofs.Block.Slots
import Floorplanner.Proofs.Config.Validation
import Floorplanner.Proofs.Block.Shape
import Floorplanner.Proofs.Design.Resolution
import Floorplanner.Proofs.Move.Legality
import Floorplanner.Proofs.Move.Range
import Floorplanner.Proofs.Annealing.Legality
import Floorplanner.Proofs.Annealing.FinalCost
import Floorplanner.Proofs.Annealing.EarlyStop
import Floorplanner.Proofs.Design.Consistency
import Floorplanner.Proofs.Cost.Range
import Floorplanner.Proofs.Design.Closed
import Floorplanner.Proofs.Annealing.Range
import Floorplanner.Proofs.Search.Room
import Floorplanner.Proofs.Search.Success
import Floorplanner.Proofs.Alignment.Range
import Floorplanner.Proofs.TotalOrder
import Floorplanner.Proofs.Design.Names
import Floorplanner.Proofs.Design.WellFormed
import Floorplanner.Proofs.Search.Levels
import Floorplanner.Proofs.Search.MoreLevels
import Floorplanner.Proofs.Annealing.Shrinking
import Floorplanner.Proofs.Search.Shrinking
import Floorplanner.Proofs.Annealing.HardBlocks
import Floorplanner.Proofs.Search.LevelCosts
import Floorplanner.Proofs.Block.Stock
import Floorplanner.Proofs.Design.NetForms
import Floorplanner.Proofs.Plan.SoftBlocks
import Floorplanner.Proofs.Diagnostic.Journal
import Floorplanner.Proofs.Plan.Account
import Floorplanner.Proofs.Command.Agreement
import Floorplanner.Proofs.Packing.Completeness
import Floorplanner.Proofs.Interval.Nearest
import Floorplanner.Proofs.Block.Resize
import Floorplanner.Proofs.Cost.Raster
import Floorplanner.Proofs.Rescaling.Geometry
import Floorplanner.Proofs.Rescaling.Block
import Floorplanner.Proofs.Rescaling.Packing
import Floorplanner.Proofs.Rescaling.Cost
import Floorplanner.Proofs.Rescaling.Move
import Floorplanner.Proofs.Rescaling.Annealing
import Floorplanner.Proofs.Rescaling.Alignment
import Floorplanner.Proofs.Rescaling.Floorplan
import Floorplanner.Proofs.Plan.Fit
import Floorplanner.Proofs.Alignment.Edges
import Floorplanner.Proofs.Equality
import Floorplanner.Proofs.Alignment.FixedPoint
import Floorplanner.Proofs.Cost.Sums
import Floorplanner.Proofs.Symmetry.Transposition
import Floorplanner.Proofs.Symmetry.Reflection
import Floorplanner.Proofs.Symmetry.Rearrangement
import Floorplanner.Proofs.Symmetry.Cost
import Floorplanner.Proofs.Pointwise
import Floorplanner.Proofs.Alignment.Displacement
import Floorplanner.Proofs.Rounding
import Floorplanner.Proofs.Monotone
import Floorplanner.Proofs.Packing.Monotonicity
import Floorplanner.Proofs.Annealing.Fit
import Floorplanner.Proofs.Packing.Renaming
import Floorplanner.Proofs.Move.DoubleSwap
import Floorplanner.Proofs.Cost.Nonneg
import Floorplanner.Proofs.Annealing.Normalization
import Floorplanner.Proofs.Annealing.AverageCost
import Floorplanner.Proofs.Annealing.Restarts
import Floorplanner.Proofs.Outward
import Floorplanner.Proofs.Packing.BoundingSize
import Floorplanner.Proofs.Plan.Recomputation
import Floorplanner.Proofs.Design.Expansion
import Floorplanner.Proofs.Extremes
import Floorplanner.Proofs.Block.Stretch
import Floorplanner.Proofs.Cost.Wirelength
import Floorplanner.Proofs.Cost.Overflow
import Floorplanner.Proofs.Annealing.Temperature
import Floorplanner.Proofs.Search.Temperature
import Floorplanner.Proofs.Packing.Slots
import Floorplanner.Proofs.Move.Kinds
import Floorplanner.Proofs.Move.Connectivity
import Floorplanner.Proofs.Text.Json.Strings
import Floorplanner.Proofs.Text.Json.RoundTrip
import Floorplanner.Proofs.Text.Json.Record
import Floorplanner.Proofs.Diagnostic.Json
import Floorplanner.Proofs.SequencePair.Position
import Floorplanner.Proofs.Random.Skipping
import Floorplanner.Proofs.Geometry.Intersection
import Floorplanner.Proofs.Alignment.Traversal
