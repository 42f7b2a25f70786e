import CostGovernor.FiniteMaps
import CostGovernor.ScanSelection
import CostGovernor.ScopeRanks
import CostGovernor.Executions
import CostGovernor.IterationOrder
import CostGovernor.Snapshot
import CostGovernor.GrantCases
import CostGovernor.SettlementCases
import CostGovernor.Operations
import CostGovernor.HardCap
import CostGovernor.Lifecycle
import CostGovernor.EpochFence
import CostGovernor.Client
import CostGovernor.BudgetLedger
import CostGovernor.Ledger
import CostGovernor.Honouring
import CostGovernor.Rejections
import CostGovernor.Expiry
import CostGovernor.ReservedEffects
import CostGovernor.ReservedBudgets
import CostGovernor.Evaluation
import CostGovernor.CeilMulDiv
import CostGovernor.CheckedArithmetic
import CostGovernor.PricedAmounts
import CostGovernor.Feasibility
import CostGovernor.Verdicts
import CostGovernor.CostClassification
import CostGovernor.CostStates
import CostGovernor.PriceSelection
import CostGovernor.Freshness
import CostGovernor.PlanSelection
import CostGovernor.CandidateOrder
import CostGovernor.PricingErrors
import CostGovernor.BudgetRoom
import CostGovernor.Authorization
import CostGovernor.RejectionReasons
import CostGovernor.DecisionOutlines
import CostGovernor.ReorderedBudgets
import CostGovernor.BudgetOrder
import CostGovernor.Coordinator
import CostGovernor.CheckOut
import CostGovernor.DoubleCharge
import CostGovernor.Incarnations
import CostGovernor.ByteStreams
import CostGovernor.ByteReaders
import CostGovernor.Codec
import CostGovernor.SnapshotRecords
import CostGovernor.RoundTrip
import CostGovernor.SaveLoad
import CostGovernor.EvidenceIntake
import CostGovernor.EvidenceEffects
import CostGovernor.EvidenceStore
import CostGovernor.StaleDecision
import CostGovernor.DispatchValidation
import CostGovernor.SessionDecisions
import CostGovernor.Wire
import CostGovernor.WireRoundTrip
import CostGovernor.SegmentedStreams
import CostGovernor.Framing
import CostGovernor.Transmission
import CostGovernor.SessionLoop
import CostGovernor.RawFrames
import CostGovernor.Resynchronisation
import CostGovernor.Interface
import CostGovernor.Identities
import CostGovernor.InterventionIds
import CostGovernor.Recovery
import CostGovernor.WorkerBoots
import CostGovernor.WorkerIsolation
import CostGovernor.Postings
import CostGovernor.Charges
import CostGovernor.AttemptCosts
import CostGovernor.UsageOrder
import CostGovernor.Metering
import CostGovernor.WirePlans
import CostGovernor.RemoteEvaluation
import CostGovernor.Deliveries
import CostGovernor.PriceQuotes
import CostGovernor.FrozenCosts
import CostGovernor.PriceRefresh
import CostGovernor.CoordinatorCalls
import CostGovernor.KeyedLog
import CostGovernor.AcceptedPrices
import CostGovernor.Publications
import CostGovernor.Books
import CostGovernor.Acknowledgements
import CostGovernor.Checksums
import CostGovernor.SnapshotCorruption
import CostGovernor.FrameCorruption
import CostGovernor.OperationTraces
import CostGovernor.SignedOperations
import CostGovernor.PhysicalUnits
import CostGovernor.ProjectionSums
import CostGovernor.RoundingBounds
import CostGovernor.ShiftRegisters
import CostGovernor.OverflowAtomicity
import CostGovernor.Answers
import CostGovernor.Handlers
import CostGovernor.Requests
import CostGovernor.Exchanges
import CostGovernor.ClientCalls
import CostGovernor.RemoteResults
import CostGovernor.Replies
import CostGovernor.StableDecoders
import CostGovernor.CutRequests
import CostGovernor.FileReplacement
import CostGovernor.AtomicReplacement
import CostGovernor.RefusedFiles
import CostGovernor.Deployments
import CostGovernor.StateFiles
import CostGovernor.OverlappingSaves
import CostGovernor.FirstEpoch
import CostGovernor.RecoveredBudgets
import CostGovernor.InterventionCourses
import CostGovernor.InterventionTrails
import CostGovernor.BudgetAccounts
import CostGovernor.BudgetIsolation
import CostGovernor.PriceTerms
import CostGovernor.BetterTerms
import CostGovernor.AuthorizedSpending
import CostGovernor.DecimalText
import CostGovernor.MoneyText
import CostGovernor.WithheldDecisions
import CostGovernor.Workers
import CostGovernor.CoordinatorCharges
import CostGovernor.LifetimeCharges
import CostGovernor.SameTerms
import CostGovernor.RestartedDecisions
import CostGovernor.FileSpellings
import CostGovernor.AcceptedFiles
