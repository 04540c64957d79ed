import RepoForge.Guarantees.Activation.NotWedged
import RepoForge.Guarantees.Activation.PointersSurvive
import RepoForge.Guarantees.Activation.SecretRoundTrip
import RepoForge.Guarantees.Adhoc.PushesKeptOut
import RepoForge.Guarantees.Approvals.PendingReviewable
import RepoForge.Guarantees.Audit.CompactionBounded
import RepoForge.Guarantees.Audit.CursorPages
import RepoForge.Guarantees.Audit.PruneTotal
import RepoForge.Guarantees.Configuration.CrashSafe
import RepoForge.Guarantees.Configuration.GenerationsKept
import RepoForge.Guarantees.Configuration.PatchesInTurn
import RepoForge.Guarantees.Diagnostics.ProfilesRun
import RepoForge.Guarantees.HotReload.FailedReload
import RepoForge.Guarantees.Identity.ResolutionSound
import RepoForge.Guarantees.IssueGraph.BodiesMaterialized
import RepoForge.Guarantees.IssueGraph.Converges
import RepoForge.Guarantees.Operations.OrphanDecisions
import RepoForge.Guarantees.Operations.RecordsReloaded
import RepoForge.Guarantees.Operations.SingleStart
import RepoForge.Guarantees.Operations.Storable
import RepoForge.Guarantees.Operations.WorkItemsStored
import RepoForge.Guarantees.Patches.HunksPlaced
import RepoForge.Guarantees.Persistence.ActiveScans
import RepoForge.Guarantees.Persistence.CleanupRollback
import RepoForge.Guarantees.Persistence.CleanupSelection
import RepoForge.Guarantees.Persistence.EvidencePruned
import RepoForge.Guarantees.Persistence.ImportResumed
import RepoForge.Guarantees.Persistence.LostUpdate
import RepoForge.Guarantees.Persistence.WindowEnforced
import RepoForge.Guarantees.Retrieval.DiffModels
import RepoForge.Guarantees.Retrieval.PagesWhole
import RepoForge.Guarantees.Retrieval.SearchPages
import RepoForge.Guarantees.Rules.FittedMinimally
import RepoForge.Guarantees.Runtime.ForwardOnly
import RepoForge.Guarantees.Runtime.PermitsSingleUse
import RepoForge.Guarantees.Testing.ChangeSets
import RepoForge.Guarantees.Testing.SelectionWidens
import RepoForge.Guarantees.Tickets.ReadinessSound
import RepoForge.Guarantees.Transaction.CommitApplies
import RepoForge.Guarantees.Verification.PlanCompiles
import RepoForge.Guarantees.Workspace.AppliedOnce
import RepoForge.Guarantees.Workspace.PathContained
