import Dethernety.ControlLibrary.LockExclusion
import Dethernety.ControlLibrary.LocalEdits
import Dethernety.ControlLibrary.WalFrame
import Dethernety.ControlLibrary.BrownfieldAudit
import Dethernety.ControlLibrary.ExternalEdit
import Dethernety.ControlLibrary.Pull
import Dethernety.PayloadDigest.Framing
import Dethernety.Cypher.Inversion
import Dethernety.ModelSchema.RoundTrip
import Dethernety.ModelImport.Completeness
import Dethernety.ModelUpdate.Orphans
import Dethernety.ModelUpdate.ControlReferences
import Dethernety.LinkDelta.ConduitOps
import Dethernety.Zoning.Adapter
import Dethernety.Zoning.Summary
import Dethernety.ThreatReport.PolicyViews
import Dethernety.ThreatReport.ModesAgree
import Dethernety.Coverage.Honesty
import Dethernety.FlowStore.Freshness
import Dethernety.FlowStore.NodeSaves
import Dethernety.ModuleRegistry.Accounting
import Dethernety.DtUtils.KeyedMutex
import Dethernety.DtUtils.LastWriter
import Dethernety.ModelDirectory.BagPreservation
import Dethernety.Instantiation.Reevaluation
import Dethernety.Instantiation.PolicyStamps
import Dethernety.Instantiation.Exclusion
import Dethernety.Instantiation.Staleness
import Dethernety.Instantiation.Dispositions
import Dethernety.ClassIdentity.Survivors
import Dethernety.ClassIdentity.LiveWork
import Dethernety.ModelDirectory.Confinement
import Dethernety.ControlLibrary.WalConfinement
import Dethernety.Instantiation.SavedFindings
import Dethernety.ModuleInstall.NothingLost
import Dethernety.ModuleInstall.Extract
import Dethernety.Console.Ownership
import Dethernety.FileModule.EngineHeap
import Dethernety.FileModule.PolicyLint
import Dethernety.FileModule.PolicyHashes
import Dethernety.RemoteModule.Denials
import Dethernety.RemoteModule.CallerIsolation
import Dethernety.RemoteModule.ServedHashes
import Dethernety.RemoteModule.StaysRegistered
import Dethernety.KnowledgeGraph.KeyedAnswers
import Dethernety.KnowledgeGraph.EmbeddingResponse
import Dethernety.FlatKeys.RoundTrip
import Dethernety.QueryGuards.Depth
import Dethernety.QueryGuards.FilterSoundness
import Dethernety.Console.ArtifactCurrency
import Dethernety.ModuleRegistry.TemplateCache
import Dethernety.FlowStore.BoundaryDeletion
import Dethernety.FlowStore.EditProjection
import Dethernety.KnowledgeGraph.ClassVectors
