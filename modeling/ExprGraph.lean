import ExprGraph.Graph.Inspection
import ExprGraph.Json.Types
import ExprGraph.PairCache.Distinct
import ExprGraph.Session.Run
import ExprGraph.Session.Towers
import ExprGraph.Proofs.SameArguments
import ExprGraph.Proofs.Traversal
import ExprGraph.Proofs.Replay
import ExprGraph.Proofs.SameNodes
import ExprGraph.Proofs.Construction
import ExprGraph.Proofs.Episode
import ExprGraph.Proofs.PartnerIndex
import ExprGraph.Proofs.Histories
import ExprGraph.Proofs.Transparency
import ExprGraph.Proofs.Contents
import ExprGraph.Proofs.Accounting
import ExprGraph.Proofs.Mirroring
import ExprGraph.Proofs.Paths
import ExprGraph.Proofs.Closure
import ExprGraph.Proofs.Equivalence
import ExprGraph.Proofs.Digests
import ExprGraph.Proofs.Isolation
import ExprGraph.Proofs.FieldRules
import ExprGraph.Proofs.Values
import ExprGraph.Proofs.Indistinguishable
import ExprGraph.Proofs.Substitution
import ExprGraph.Proofs.Acceptance
import ExprGraph.Proofs.RoundTrip
import ExprGraph.Proofs.Effect
import ExprGraph.Proofs.Costs
import ExprGraph.Proofs.SharedTowers
import ExprGraph.Proofs.Reading
import ExprGraph.Proofs.Legibility
import ExprGraph.Proofs.Dictionaries
import ExprGraph.Proofs.EntryPoints
import ExprGraph.Proofs.TypedConstruction
import ExprGraph.Proofs.Concatenation
import ExprGraph.Proofs.Naming
import ExprGraph.Proofs.Promotion
import ExprGraph.Proofs.Sharding
import ExprGraph.Proofs.ShardCounts
import ExprGraph.Proofs.Descent
import ExprGraph.Proofs.ShardIndices
