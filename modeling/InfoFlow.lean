import InfoFlow.Program.Malformed
import InfoFlow.Program.Method
import InfoFlow.Program.Field
import InfoFlow.Program.Variable
import InfoFlow.Program.Site
import InfoFlow.Program.CallEdge
import InfoFlow.Location.Address
import InfoFlow.Location.Slot
import InfoFlow.Location.Context
import InfoFlow.Value.Basic
import InfoFlow.Value.Members
import InfoFlow.Value.Set
import InfoFlow.Facts
import InfoFlow.SparseMap.Entries
import InfoFlow.SparseMap.Basic
import InfoFlow.SparseMap.Algebra
import InfoFlow.Text.Printable
import InfoFlow.Text.Quoted
import InfoFlow.Decimal.Shortest
import InfoFlow.Json.Basic
import InfoFlow.Json.Fault
import InfoFlow.Json.Numeral
import InfoFlow.Json.Token
import InfoFlow.Json.Read
import InfoFlow.Trace
import InfoFlow.Error
import InfoFlow.Intern.Table
import InfoFlow.Intern.Tables
import InfoFlow.State.Store
import InfoFlow.State.Frame
import InfoFlow.State.Heap
import InfoFlow.State.Snapshot
import InfoFlow.State.Analysis
import InfoFlow.Program.Json
import InfoFlow.Location.Json
import InfoFlow.Value.Json
import InfoFlow.Session
import InfoFlow.Intern.Access
import InfoFlow.Proofs.Reading
import InfoFlow.Proofs.Reachability
import InfoFlow.Proofs.Search
import InfoFlow.Proofs.Collection
import InfoFlow.Proofs.Lattice
import InfoFlow.Proofs.Garbage
import InfoFlow.Proofs.AccessPath
import InfoFlow.Proofs.Sparsity
import InfoFlow.Proofs.Callee
import InfoFlow.Proofs.Monotone
import InfoFlow.Proofs.Projection
import InfoFlow.Proofs.Joins
import InfoFlow.Proofs.Boundary
import InfoFlow.Proofs.Iteration
import InfoFlow.Proofs.Progress
import InfoFlow.Proofs.Interning
import InfoFlow.Proofs.HeldFields
import InfoFlow.Proofs.Refinement
import InfoFlow.Proofs.History
import InfoFlow.Proofs.Labels
import InfoFlow.Proofs.Report
import InfoFlow.Proofs.Sharing
import InfoFlow.Proofs.Tokens
import InfoFlow.Proofs.RoundTrip
import InfoFlow.Proofs.Serialized
import InfoFlow.Proofs.Declared
import InfoFlow.Proofs.Orders
import InfoFlow.Proofs.Making
