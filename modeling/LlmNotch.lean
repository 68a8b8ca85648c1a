import LlmNotch.Transition
import LlmNotch.Dict
import LlmNotch.JsonValue
import LlmNotch.Protocol
import LlmNotch.VendorStdout
import LlmNotch.DecisionBroker
import LlmNotch.DecisionSections
import LlmNotch.DecisionEffects
import LlmNotch.DecisionSafety
import LlmNotch.DecisionOneWay
import LlmNotch.DecisionAnswer
import LlmNotch.DecisionDelivery
import LlmNotch.StateExcept
import LlmNotch.CoreDomain
import LlmNotch.Table
import LlmNotch.Registry
import LlmNotch.Alerts
import LlmNotch.Stream
import LlmNotch.Repository
import LlmNotch.AppCore
import LlmNotch.CoreSteps
import LlmNotch.Restart
import LlmNotch.CoreChanges
import LlmNotch.CoreEffects
import LlmNotch.RegistryIndex
import LlmNotch.EventSequences
import LlmNotch.IngestErrors
import LlmNotch.NativeReducer
import LlmNotch.StreamMirror
import LlmNotch.StreamEffects
import LlmNotch.StreamRefinement
import LlmNotch.ConnectorEdits
import LlmNotch.HookTravel
import LlmNotch.FrameReader
import LlmNotch.HookClient
import LlmNotch.HubDelivery
import LlmNotch.LastWrite
import LlmNotch.StreamCoalescing
import LlmNotch.SessionFates
import LlmNotch.WorkList
import LlmNotch.ProcessGraph
import LlmNotch.HostIngest
import LlmNotch.IngestServer
import LlmNotch.HookDelivery
import LlmNotch.RestartAgreement
import LlmNotch.SettingsAgreement
import LlmNotch.SessionView
import LlmNotch.SessionMoves
import LlmNotch.SessionEffects
import LlmNotch.StatusHistory
import LlmNotch.EndedSessions
import LlmNotch.AttentionAlerts
import LlmNotch.ActivityOrder
import LlmNotch.PendingList
import LlmNotch.FileLock
import LlmNotch.ConnectorApply
import LlmNotch.ApplySteps
import LlmNotch.ApplyAtomicity
import LlmNotch.Utf8
import LlmNotch.WireCodec
import LlmNotch.ConnectorManager
import LlmNotch.RollbackRestore
import LlmNotch.JsonRead
import LlmNotch.RelayHooks
import LlmNotch.RelayIngest
import LlmNotch.RelayOrigins
import LlmNotch.RelayAdmission
import LlmNotch.StartOutcomes
import LlmNotch.UpsertAtomicity
import LlmNotch.SpoolAgreement
import LlmNotch.SpoolDirectory
import LlmNotch.RelayLoop
import LlmNotch.RelaySurvival
import LlmNotch.RelaySession
import LlmNotch.BoundedLines
import LlmNotch.RelayLines
import LlmNotch.RemoteDelivery
import LlmNotch.RemoteRegistry
import LlmNotch.ShellWords
import LlmNotch.RelayDeployment
import LlmNotch.Transaction
import LlmNotch.Migrations
import LlmNotch.SessionIdentity
import LlmNotch.FilePaths
import LlmNotch.SoundPacks
import LlmNotch.TextSearch
import LlmNotch.HelperCommands
import LlmNotch.UnreadableConfig
import LlmNotch.SettledFolds
import LlmNotch.ConnectorIdempotence
import LlmNotch.ConnectorUndo
import LlmNotch.InstalledSet
import LlmNotch.AddingFolds
import LlmNotch.CoreOutcomes
import LlmNotch.RootReconcile
import LlmNotch.HostOutcomes
import LlmNotch.SessionEnding
import LlmNotch.UpsertOutcomes
import LlmNotch.SustainedAlerts
import LlmNotch.UniformState
import LlmNotch.ResourceAlerts
import LlmNotch.AlertSounds
import LlmNotch.SessionMetrics
import LlmNotch.ExactAttribution
import LlmNotch.OmittedFields
import LlmNotch.PackValidation
import LlmNotch.PackInstall
import LlmNotch.Base64
import LlmNotch.ContextLocator
import LlmNotch.SessionContext
import LlmNotch.DiskPlans
import LlmNotch.SymbolicLinks
import LlmNotch.PathConfinement
import LlmNotch.Thinning
import LlmNotch.MetricSeries
import LlmNotch.BootstrapEvents
import LlmNotch.EventPages
import LlmNotch.UnifiedDiff
import LlmNotch.PreviewDiff
import LlmNotch.DiffReading
import LlmNotch.SpoolReplay
import LlmNotch.SpoolBounds
import LlmNotch.ReconnectSchedule
import LlmNotch.HostSchedules
import LlmNotch.Capacity
import LlmNotch.LogReplica
import LlmNotch.RendererProvider
import LlmNotch.RendererRecovery
import LlmNotch.Retention
import LlmNotch.RootSettling
import LlmNotch.Sampler
import LlmNotch.VendorHooks
import LlmNotch.HeardEvents
import LlmNotch.ReportView
import LlmNotch.Attempts
import LlmNotch.PaneActivation
import LlmNotch.ContextOpening
