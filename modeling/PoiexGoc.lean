import PoiexGoc.Lib.Interleave
import PoiexGoc.Proofs.ProvenanceChains
import PoiexGoc.Runtime.ControlPlane
import PoiexGoc.Runtime.FirestoreStore
import PoiexGoc.Proofs.DocumentCodecs
import PoiexGoc.Proofs.StoreRefinement
import PoiexGoc.Proofs.ControlPlaneCalls
import PoiexGoc.Proofs.StorageChoice
import PoiexGoc.Runtime.CloudDemo
import PoiexGoc.Proofs.GateReports
import PoiexGoc.Proofs.Mediation
import PoiexGoc.Proofs.AuditLedger
import PoiexGoc.Lib.Covering
import PoiexGoc.Runtime.CertifiedRepair
import PoiexGoc.Proofs.RepairPruning
import PoiexGoc.Proofs.DemoRuns
import PoiexGoc.Proofs.ConcurrentExecutions
import PoiexGoc.Proofs.RevocationRaces
import PoiexGoc.Proofs.LostUpdates
import PoiexGoc.Lib.Rely
import PoiexGoc.Proofs.OwnWrites
import PoiexGoc.Proofs.SeededReads
import PoiexGoc.Proofs.ConcurrentRequests
import PoiexGoc.Lib.UniqueReading
import PoiexGoc.Lib.CanonicalText
import PoiexGoc.Proofs.HashedFields
import PoiexGoc.Proofs.StandingReceipts
import PoiexGoc.Proofs.TamperedReceipts
import PoiexGoc.Proofs.FreshReplays
import PoiexGoc.Proofs.RemovedRecords
import PoiexGoc.Proofs.LeaseWindows
import PoiexGoc.Proofs.CapabilityBinding
import PoiexGoc.Proofs.FailingWrites
import PoiexGoc.Proofs.ProposalAtomicity
import PoiexGoc.Lib.PointerEndings
import PoiexGoc.Proofs.ProvenanceWalks
import PoiexGoc.Proofs.SanctionedRequests
import PoiexGoc.Proofs.TargetInterlock
import PoiexGoc.Proofs.IntentHashes
import PoiexGoc.Proofs.PassingTime
import PoiexGoc.Proofs.Namespaces
import PoiexGoc.Proofs.PlannerContent
import PoiexGoc.Lib.Codec
import PoiexGoc.Proofs.CodecNormalForms
import PoiexGoc.Proofs.CertificateVerdicts
import PoiexGoc.Lib.Reordering
import PoiexGoc.Proofs.CertificateOrders
import PoiexGoc.Lib.Grouping
import PoiexGoc.Lib.PyRepr
import PoiexGoc.Runtime.FutureStateSufficiency
import PoiexGoc.Proofs.StateAliasing
import PoiexGoc.Proofs.ResidualCoordinates
import PoiexGoc.Proofs.MemoryReadback
import PoiexGoc.Runtime.ActionIndependence
import PoiexGoc.Proofs.EffectClasses
import PoiexGoc.Proofs.ObserverProgress
import PoiexGoc.Lib.LinearDuality
import PoiexGoc.Lib.Serializability
import PoiexGoc.Proofs.PruneCompleteness
import PoiexGoc.Proofs.SerializableWrites
import PoiexGoc.Lib.Delegation
import PoiexGoc.Lib.Typestate
import PoiexGoc.Proofs.ClientCalls
import PoiexGoc.Proofs.ConcurrentLedger
import PoiexGoc.Proofs.ConcurrentStorage
import PoiexGoc.Proofs.NoEscalation
import PoiexGoc.Lib.RelyGuarantee
import PoiexGoc.Proofs.ServedFacts
import PoiexGoc.Proofs.ServedRequests
import PoiexGoc.Proofs.ServiceRuns
import PoiexGoc.Proofs.LostAuthority
import PoiexGoc.Lib.Samples
import PoiexGoc.Lib.Snapshot
import PoiexGoc.Proofs.BoundTargets
import PoiexGoc.Proofs.CapacityAudits
import PoiexGoc.Proofs.HardeningRequests
import PoiexGoc.Proofs.SnapshotDecisions
import PoiexGoc.Proofs.FurtherStates
import PoiexGoc.Lib.LastWrite
import PoiexGoc.Proofs.FaultDiagnosis
import PoiexGoc.Proofs.TamperedHistories
import PoiexGoc.Proofs.ProposalNames
import PoiexGoc.Runtime.FirestoreLibrary
import PoiexGoc.Proofs.LibraryRuns
