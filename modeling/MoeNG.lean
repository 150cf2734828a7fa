import MoeNG.Budget.RunRef
import MoeNG.Budget.Reservation
import MoeNG.Budget.Settlement
import MoeNG.Budget.SettlementSpec
import MoeNG.Budget.Lifecycle
import MoeNG.Budget.Account
import MoeNG.Budget.AccountSpec
import MoeNG.Budget.AccountInvariant
import MoeNG.Budget.Replay
import MoeNG.Kernel.Value
import MoeNG.Authority.Lease
import MoeNG.Authority.LeaseRun
import MoeNG.Authority.Resource
import MoeNG.Authority.ResourceRun
import MoeNG.Lib.Redelivery
import MoeNG.Fairness.Contract
import MoeNG.Fairness.Rotation
import MoeNG.Fairness.RotationSpec
import MoeNG.Fairness.Starvation
import MoeNG.Store.Input
import MoeNG.Store.ReadPage
import MoeNG.Subscriptions.Docs
import MoeNG.Subscriptions.Operations
import MoeNG.Subscriptions.Window
import MoeNG.Subscriptions.OperationSpec
import MoeNG.Subscriptions.Invariant
import MoeNG.Subscriptions.Read
import MoeNG.Subscriptions.Delivery
import MoeNG.Subscriptions.Reseat
import MoeNG.Core.Goal
import MoeNG.Core.GoalRun
import MoeNG.Core.Supersession
import MoeNG.Core.GraphRevision
import MoeNG.Core.GraphRevisionReplay
import MoeNG.Core.GraphRevisionRun
import MoeNG.Convergence.Breaker
import MoeNG.Convergence.BreakerRun
import MoeNG.Core.Policy
import MoeNG.Core.PolicyChain
import MoeNG.Graph.Frontier
import MoeNG.Readiness.Facts
import MoeNG.Readiness.Projection
import MoeNG.Readiness.Agreement
import MoeNG.Readiness.Layers
import MoeNG.Readiness.Weakening
import MoeNG.Core.PlanningRun
import MoeNG.Core.PlanningRunInvariant
import MoeNG.Lib.Run
import MoeNG.Projections.Canonical
import MoeNG.Projections.Fold
import MoeNG.Projections.Ledger
import MoeNG.Projections.Relay
import MoeNG.Projections.Append
import MoeNG.Projections.Rebuild
import MoeNG.Projections.RelaySpec
import MoeNG.Projections.Agreement
import MoeNG.Projections.Race
import MoeNG.Core.Approval
import MoeNG.Core.ApprovalRun
import MoeNG.Core.ExpansionHold
import MoeNG.Core.ExpansionHoldSpec
import MoeNG.Core.ExpansionHoldRun
import MoeNG.Kernel.JsonCode
import MoeNG.Kernel.CanonicalJson
import MoeNG.Review.Contract
import MoeNG.Review.Findings
import MoeNG.Review.FindingsRun
import MoeNG.Review.LineageLaw
import MoeNG.Supervisor.Effect
import MoeNG.Supervisor.Lifecycle
import MoeNG.Supervisor.Activation
import MoeNG.Supervisor.EffectRun
import MoeNG.Supervisor.EffectRace
import MoeNG.Supervisor.Drain
import MoeNG.Supervisor.Restart
import MoeNG.Supervisor.RestartRun
import MoeNG.Graph.Traversal
import MoeNG.Graph.TopoOrder
import MoeNG.Graph.Validate
import MoeNG.Graph.Accepted
import MoeNG.Graph.Identity
import MoeNG.Dependencies.Contract
import MoeNG.Lib.Merkle
import MoeNG.NodeAuthority.Contract
import MoeNG.NodeAuthority.Recursion
import MoeNG.Lib.MapWrites
import MoeNG.NodeAuthority.Closing
import MoeNG.NodeAuthority.Hashing
import MoeNG.Authority.Release
import MoeNG.Budget.Movement
import MoeNG.Budget.SettlementGuards
import MoeNG.Budget.ViewClosure
import MoeNG.Fairness.Serialization
import MoeNG.Fairness.RequestOrder
import MoeNG.NodeAuthority.Deriving
import MoeNG.NodeAuthority.Injective
import MoeNG.NodeAuthority.Law
import MoeNG.Graph.CycleCore
import MoeNG.Graph.Cycles
import MoeNG.Graph.Validation
import MoeNG.Lib.OrderedTable
import MoeNG.Graph.Analysis
import MoeNG.Graph.HardPaths
import MoeNG.Graph.AnalysisSpec
import MoeNG.Graph.Counterfactual
import MoeNG.Graph.EdgeRemoval
import MoeNG.Graph.RedundancySpec
import MoeNG.Graph.CounterfactualSpec
import MoeNG.Projections.Batches
import MoeNG.Projections.Upcast
import MoeNG.Lib.ListOrder
import MoeNG.Store.PrefixRange
import MoeNG.Store.Paging
import MoeNG.Context.CanonicalLaw
import MoeNG.Lib.ComparatorSort
import MoeNG.Context.Selection
import MoeNG.Kernel.JsonParse
import MoeNG.Kernel.JsonReading
import MoeNG.Context.SelectionLaw
import MoeNG.Projections.StateIdentity
import MoeNG.Session.Canonical
import MoeNG.Session.CanonicalLaw
import MoeNG.Kernel.NumberValue
import MoeNG.Kernel.Utf8Decode
import MoeNG.Lib.Codes
import MoeNG.Store.DecisionLegRoster
import MoeNG.Store.TextLength
import MoeNG.Store.DecisionLegRosterLaw
import MoeNG.Core.PlanningFence
import MoeNG.Core.PolicyRelaxation
import MoeNG.Core.PolicyAllow
import MoeNG.Core.PolicyObligations
import MoeNG.Core.SupersessionLaw
import MoeNG.Contracts.BoundedJson
import MoeNG.Contracts.BoundedStrings
import MoeNG.Contracts.BoundedGrammar
import MoeNG.Contracts.BoundedParse
import MoeNG.Contracts.BoundedLaw
import MoeNG.Contracts.BoundedNumber
import MoeNG.Core.BoundedSnapshot
import MoeNG.Lib.DepthFirst
import MoeNG.Core.ProductContract
import MoeNG.Core.ProductContractAdmission
import MoeNG.Core.ProductContractClosure
import MoeNG.Core.ProductContractCodec
import MoeNG.Scope.Status
import MoeNG.Scope.StatusLaw
import MoeNG.Scope.Attribution
import MoeNG.Scope.AttributionLaw
import MoeNG.Expansion.Admission
import MoeNG.Review.ContinuationLaw
import MoeNG.Lib.TiedFold
import MoeNG.Materialization.Kernel
import MoeNG.Materialization.Selection
import MoeNG.Materialization.Recheck
import MoeNG.Materialization.SelectionLaw
import MoeNG.Materialization.Listing
import MoeNG.Materialization.RecheckLaw
import MoeNG.Contracts.DecimalForm
import MoeNG.Supervisor.LeaseMirror
import MoeNG.Supervisor.Delivery
import MoeNG.Materialization.ListingLaw
import MoeNG.Materialization.Manifest
import MoeNG.Materialization.ManifestLaw
import MoeNG.Materialization.SealLaw
import MoeNG.Subscriptions.DocCodec
import MoeNG.Contracts.NumberText
import MoeNG.Subscriptions.DocCodecLaw
import MoeNG.Core.ProductContractHistory
