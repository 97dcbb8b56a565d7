import ClusterBalance.Document.Json.Payload
import ClusterBalance.Literal
import ClusterBalance.Main
import ClusterBalance.Report.Publication
import ClusterBalance.Proofs.Report.WriteOnce
import ClusterBalance.Proofs.Chain
import ClusterBalance.Proofs.Exact.Scalar
import ClusterBalance.Proofs.Cluster.Admission
import ClusterBalance.Proofs.Exact.Cluster
import ClusterBalance.Proofs.Statistics.Divisors
import ClusterBalance.Proofs.Statistics.Measurable
import ClusterBalance.Proofs.Decimal.Magnitude
import ClusterBalance.Proofs.Decimal.Whole
import ClusterBalance.Proofs.Document.Literal
import ClusterBalance.Proofs.Snapshot.Shape
import ClusterBalance.Proofs.Snapshot.Acceptance
import ClusterBalance.Proofs.Snapshot.Refusal
import ClusterBalance.Proofs.Document.Within
import ClusterBalance.Proofs.Snapshot.File
import ClusterBalance.Proofs.Statistics.Overflow
import ClusterBalance.Proofs.CommandLine.Call
import ClusterBalance.Proofs.CommandLine.Endings
import ClusterBalance.Cluster.Tables
import ClusterBalance.Proofs.Alike
import ClusterBalance.Proofs.Groups
import ClusterBalance.Proofs.Cluster.Tables
import ClusterBalance.Proofs.Sorting.Search
import ClusterBalance.Proofs.Sorting.Merge
import ClusterBalance.Proofs.Sorting.Order
import ClusterBalance.Proofs.Text.Loose
import ClusterBalance.Proofs.Claim.Partition
import ClusterBalance.Proofs.Cluster.Answers
import ClusterBalance.Proofs.Report.Independence
import ClusterBalance.Cluster.Amounts
import ClusterBalance.Proofs.Decimal.Counts
import ClusterBalance.Proofs.Cluster.Amounts
import ClusterBalance.Proofs.Snapshot.RoundTrip
import ClusterBalance.Proofs.Snapshot.Restored
import ClusterBalance.Proofs.Decimal.Near
import ClusterBalance.Proofs.Decimal.Shortest
import ClusterBalance.Proofs.Decimal.Bits
import ClusterBalance.Proofs.Decimal.Digits
import ClusterBalance.Proofs.Decimal.Written
import ClusterBalance.Proofs.Document.Json.Number
import ClusterBalance.Proofs.Document.Json.Text
import ClusterBalance.Proofs.Document.Json.RoundTrip
import ClusterBalance.Proofs.Snapshot.Dump
import ClusterBalance.Proofs.Report.Measured
import ClusterBalance.Proofs.Cluster.Counts
import ClusterBalance.Proofs.Cluster.Leadership
import ClusterBalance.Proofs.Cluster.Order
import ClusterBalance.Proofs.Exact.Order
import ClusterBalance.Proofs.Exact.Band
import ClusterBalance.Proofs.Exact.Widening
import ClusterBalance.Proofs.Decimal.Grid
import ClusterBalance.Proofs.Decimal.Comparison
import ClusterBalance.Proofs.Decimal.Rounding
import ClusterBalance.Proofs.Decimal.Sums
import ClusterBalance.Proofs.Statistics.Extremes
import ClusterBalance.Proofs.Exact.Deviation
import ClusterBalance.Proofs.Exact.Averages
import ClusterBalance.Proofs.Snapshot.DefaultHost
import ClusterBalance.Proofs.Decimal.Products
import ClusterBalance.Proofs.Decimal.Zeros
import ClusterBalance.Proofs.Statistics.Balanced
import ClusterBalance.Proofs.Exact.Evenness
import ClusterBalance.Proofs.Decimal.Signs
import ClusterBalance.Proofs.Exact.Topics
import ClusterBalance.Proofs.Statistics.Hosts
import ClusterBalance.Proofs.Cluster.Matching
import ClusterBalance.Proofs.Report.Labels
import ClusterBalance.Proofs.Exact.Scaling
import ClusterBalance.Proofs.Exact.Conservation
import ClusterBalance.Proofs.Cluster.Degradation
import ClusterBalance.Proofs.Exact.Degradation
import ClusterBalance.Proofs.Log.Delivery
import ClusterBalance.Proofs.Constraint.Values
import ClusterBalance.Proofs.Constraint.Revision
import ClusterBalance.Proofs.Constraint.Collected
import ClusterBalance.Proofs.Constraint.Decoding
import ClusterBalance.Proofs.CommandLine.Prepared
import ClusterBalance.Proofs.CommandLine.Precedence
import ClusterBalance.Proofs.FileName
import ClusterBalance.Proofs.Settings.Demands
import ClusterBalance.Proofs.Settings.Refused
import ClusterBalance.Proofs.Decimal.Quotients
import ClusterBalance.Proofs.Decimal.Bounded
import ClusterBalance.Proofs.Document.Json.Size
import ClusterBalance.Proofs.Document.Json.Masked
import ClusterBalance.Proofs.Snapshot.Size
import ClusterBalance.Proofs.Statistics.Finite
import ClusterBalance.Proofs.Report.Parsed
import ClusterBalance.Proofs.Report.Finite
import ClusterBalance.Proofs.Report.ReadBack
