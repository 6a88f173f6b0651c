import FleetMatch.Main
import FleetMatch.Message.Geometry
import FleetMatch.Proofs.Engine.History
import FleetMatch.Proofs.Index.Within
import FleetMatch.Proofs.Engine.Reload
import FleetMatch.Engine.Stage
import FleetMatch.Proofs.Engine.Stage
import FleetMatch.Proofs.Engine.Background
import FleetMatch.Proofs.Distance.Kind
import FleetMatch.Proofs.CommandLine.Session
import FleetMatch.Proofs.CommandLine.Override
import FleetMatch.Proofs.Geo.Algebra
import FleetMatch.Proofs.Scalar.Rounding
import FleetMatch.Proofs.Scalar.Unpacked
import FleetMatch.Proofs.Scalar.Arithmetic
import FleetMatch.Proofs.Scalar.Value
import FleetMatch.Proofs.Scalar.Operations
import FleetMatch.Proofs.Scalar.Clamping
import FleetMatch.Proofs.Distance.Euclidean
import FleetMatch.Proofs.Distance.Overflow
import FleetMatch.Proofs.Index.Shape
import FleetMatch.Proofs.Index.AnyMetric
import FleetMatch.Proofs.Index.Selection
import FleetMatch.Proofs.Index.Balance
import FleetMatch.Proofs.Index.Range
import FleetMatch.Proofs.Distance.GreatCircle
import FleetMatch.Proofs.Engine.Log
import FleetMatch.Proofs.Roster.Check
import FleetMatch.Proofs.Roster.Columns
import FleetMatch.Proofs.Roster.Identifiers
import FleetMatch.Proofs.Engine.Batch
import FleetMatch.Proofs.Index.Safety
import FleetMatch.Proofs.Json.Grammar
import FleetMatch.Proofs.Json.Scanner
import FleetMatch.Proofs.Scalar.Fields
import FleetMatch.Proofs.Scalar.Quotients
import FleetMatch.Proofs.Decimal.Reading
import FleetMatch.Proofs.Decimal.Interval
import FleetMatch.Proofs.Decimal.Shortest
import FleetMatch.Proofs.Decimal.Digits
import FleetMatch.Proofs.Json.Values
import FleetMatch.Proofs.Json.Numbers
import FleetMatch.Proofs.Json.Printing
import FleetMatch.Proofs.Json.Records
import FleetMatch.Proofs.Message.Update
import FleetMatch.Proofs.Message.Record
import FleetMatch.Proofs.Message.Distances
import FleetMatch.Proofs.Decimal.Stepwise
