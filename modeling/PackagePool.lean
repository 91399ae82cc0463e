import PackagePool.Arch
import PackagePool.Capability.Basic
import PackagePool.Capability.Outcome
import PackagePool.Config.Basic
import PackagePool.Config.Decode
import PackagePool.Config.Format
import PackagePool.Config.Render
import PackagePool.Declarations
import PackagePool.Filter.Attribute
import PackagePool.Filter.Basic
import PackagePool.Filter.Probe
import PackagePool.Filter.Visit
import PackagePool.Fingerprint
import PackagePool.Kind
import PackagePool.Label
import PackagePool.PackageUnit
import PackagePool.Pool.Basic
import PackagePool.Pool.Handle
import PackagePool.Pool.InPlace
import PackagePool.Pool.Index
import PackagePool.Pool.Item
import PackagePool.Pool.Query
import PackagePool.Pool.Run
import PackagePool.Resolvable
import PackagePool.Status
import PackagePool.Text.Alphanumeric
import PackagePool.Text.Blank
import PackagePool.Text.Bytes
import PackagePool.Text.Cut
import PackagePool.Text.Numeral
import PackagePool.Toml.Document
import PackagePool.Toml.Lexical
import PackagePool.Toml.Scalar
import PackagePool.Toml.Table
import PackagePool.Toml.Value
import PackagePool.Version.Edition
import PackagePool.Version.RelOp
import PackagePool.Version.Scanner
import PackagePool.Version.Segment
import PackagePool.Version.Token
import PackagePool.Proofs.Filter.ShortCircuit
import PackagePool.Proofs.Pool.Indexing
import PackagePool.Proofs.Pool.Roster
import PackagePool.Proofs.Version.Order
import PackagePool.Proofs.Pool.Chronology
import PackagePool.Proofs.Pool.Consistency
import PackagePool.Proofs.Pool.IndexedQueries
import PackagePool.Proofs.Pool.Handles
import PackagePool.Proofs.Pool.Deduplication
import PackagePool.Proofs.Pool.SlotEconomy
import PackagePool.Proofs.Pool.LockSafety
import PackagePool.Proofs.Pool.Projection
import PackagePool.Proofs.Text.ByteOrder
import PackagePool.Proofs.Text.Trim
import PackagePool.Proofs.Text.Classification
import PackagePool.Proofs.Text.Fields
import PackagePool.Proofs.Version.Scan
import PackagePool.Proofs.Version.TokenOrder
import PackagePool.Proofs.Version.MatchOrder
import PackagePool.Proofs.Capability.Ranges
import PackagePool.Proofs.Capability.Kleene
import PackagePool.Proofs.Capability.Operators
import PackagePool.Proofs.Version.Grammar
import PackagePool.Proofs.Version.RoundTrip
import PackagePool.Proofs.Capability.Grammar
import PackagePool.Proofs.Capability.RoundTrip
import PackagePool.Proofs.Label.Grammar
import PackagePool.Proofs.Resolvable.Spelling
import PackagePool.Proofs.Pool.Selection
import PackagePool.Proofs.Pool.FilteredJoin
import PackagePool.Proofs.Pool.Reordering
import PackagePool.Proofs.Pool.Renaming
import PackagePool.Proofs.Pool.Transience
import PackagePool.Proofs.Pool.Sorting
import PackagePool.Proofs.Pool.InsertionOrder
import PackagePool.Proofs.Pool.Atomicity
import PackagePool.Proofs.Congruence
import PackagePool.Proofs.Config.Lines
import PackagePool.Proofs.Toml.Blocks
import PackagePool.Proofs.Config.RoundTrip
import PackagePool.Proofs.Config.DeadLocks
import PackagePool.Proofs.Filter.Visiting
import PackagePool.Proofs.PackageUnit.Building
import PackagePool.Proofs.Version.Scanner
import PackagePool.Proofs.Version.Separators
import PackagePool.Proofs.Config.Lossless
import PackagePool.Proofs.Config.Documents
