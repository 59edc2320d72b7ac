import DRCAgent.ExcState
import DRCAgent.Schemas
import DRCAgent.Acceptance
import DRCAgent.ExecutionEnv
import DRCAgent.AttemptLedger
import DRCAgent.Transaction
import DRCAgent.AttemptLifecycle
import DRCAgent.AttemptAccounting
import DRCAgent.AcceptanceSoundness
import DRCAgent.LateFailure
import DRCAgent.ActiveWindow
import DRCAgent.WindowClosure
import DRCAgent.Continuation
import DRCAgent.LabelledRuns
import DRCAgent.RunState
import DRCAgent.Resume
import DRCAgent.ContinuationCrash
import DRCAgent.SnapshotProvenance
import DRCAgent.WorkflowNodes
import DRCAgent.Workflow
import DRCAgent.FrontierAccounting
import DRCAgent.AllNoop
import DRCAgent.WindowRecord
import DRCAgent.CommitMonotone
import DRCAgent.ProvenanceChain
import DRCAgent.RunConsistency
import DRCAgent.BoundedRounds
import DRCAgent.WindowCoordination
import DRCAgent.CoordinationSafety
import DRCAgent.CardinalityBackoff
import DRCAgent.BackoffLadder
import DRCAgent.ParallelPlanning
import DRCAgent.SandboxBudget
import DRCAgent.EvidenceStages
import DRCAgent.CircuitBreaker
import DRCAgent.EnvelopeGrowth
import DRCAgent.ProcessTable
import DRCAgent.ResourceArbiter
import DRCAgent.ArbiterSafety
import DRCAgent.InsertionDict
import DRCAgent.UnionFind
import DRCAgent.RegionBuilder
import DRCAgent.RegionPartition
import DRCAgent.ObjectOrder
import DRCAgent.PlanBinding
import DRCAgent.RootSearch
import DRCAgent.PlanFreshness
import DRCAgent.StopSearch
import DRCAgent.WindowRoles
import DRCAgent.HelperTargets
import DRCAgent.DeferredWindows
import DRCAgent.LeastRotation
import DRCAgent.PhysicalDependency
import DRCAgent.Polygon
import DRCAgent.OccurrenceTranslation
import DRCAgent.ComponentMapping
import DRCAgent.RegionPlanning
import DRCAgent.SpecializationCompiler
import DRCAgent.SpecializationDiff
import DRCAgent.CandidateChecker
import DRCAgent.CheckerReads
import DRCAgent.CheckerTotality
import DRCAgent.PlanAuthority
import DRCAgent.PlanRevisions
import DRCAgent.RunningTotals
import DRCAgent.ResourceAdmission
import DRCAgent.GroupedSlices
import DRCAgent.OperationGrouping
import DRCAgent.EdgeDisplacement
import DRCAgent.ViaStackClosure
import DRCAgent.ClosedCarriers
import DRCAgent.SolutionLowering
import DRCAgent.SolutionAccounting
import DRCAgent.GreedyPacking
import DRCAgent.BatchScheduling
import DRCAgent.BudgetedBisection
import DRCAgent.FailureAttribution
import DRCAgent.CanonicalForm
import DRCAgent.TransformInference
import DRCAgent.CappedClosure
import DRCAgent.MergedComponent
import DRCAgent.RuleClosure
import DRCAgent.EngineeringScope
import DRCAgent.SpecializationGeometry
import DRCAgent.SharedObjects
import DRCAgent.KeptGroups
import DRCAgent.RegionChecks
import DRCAgent.RegionWindows
import DRCAgent.RegionTotality
import DRCAgent.LocalTopology
import DRCAgent.TopologyRecords
import DRCAgent.TopologyIntegrity
import DRCAgent.StateReducers
import DRCAgent.RegionHistory
import DRCAgent.SourceLineage
import DRCAgent.InstanceLineage
import DRCAgent.ResourceStatus
import DRCAgent.AsyncAcquire
import DRCAgent.SandboxRecord
import DRCAgent.PlannerPayload
import DRCAgent.NeighborFacts
import DRCAgent.PromptBudget
import DRCAgent.PromptGrounding
import DRCAgent.DofDomains
import DRCAgent.RelationMatching
import DRCAgent.RegistryInvariance
import DRCAgent.SemanticBinding
import DRCAgent.SearchAccounting
import DRCAgent.SearchAgreement
import DRCAgent.MessageAddressing
import DRCAgent.ReviewedWitness
import DRCAgent.LessonTruncation
import DRCAgent.MetricsRecovery
import DRCAgent.ForestAnswers
import DRCAgent.DistanceRounding
import DRCAgent.EdaSlots
import DRCAgent.RunBounds
import DRCAgent.RunConformance
import DRCAgent.ContextCache
import DRCAgent.DebtGroups
import DRCAgent.SpacingGrounding
import DRCAgent.ConfigLoader
