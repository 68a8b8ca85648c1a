import LlmNotch.CoreSteps
import LlmNotch.Normalize
import LlmNotch.ProcessGraph

/-!
# Ingest in the desktop host

`ingestNormalized` applies a normalized payload : it looks the session up in a snapshot of the
core and calls the core. After a session is started or updated, the process roots of all
sessions are compared with the processes that run (`reconcileMetricRoots`).

The calls of one ingest run one after the other. What each of them reads from outside (the
`Env` of a call of the core, the processes that run) is the next element of `envs`.
-/

namespace LlmNotch

namespace Host

open Ipc

/-! ## The host -/

/-- A session whose processes are measured. -/
structure RegisteredSession where
  sessionId : String
  root : ProcessIdentity
  attribution : AttributionQuality
  registeredAtMs : ℤ

/-- What a call of the host reads from outside. -/
structure HostEnv where
  core : Env := {}
  processes : ℕ → Option ProcessIdentity := fun _ => none

/-- The core, the registered roots, the traffic, and what the calls to come find. -/
structure HostWorld where
  world : World
  roots : List RegisteredSession := []
  traffic : List (AgentSource × ℤ) := []
  envs : ℕ → HostEnv := fun _ => {}

/-- How an ingest ends early : with a text for the client, or with a panic of its task. -/
inductive HostFault where
  | rejected (text : String)
  | panic (message : String)
  deriving DecidableEq

abbrev HostM := EStateM HostFault HostWorld

def maxActiveRoots : ℕ := 64

/-- The texts of the errors of the core. -/
def errorText : CoreError → String
  | .sessionNotFound detail => "session not found: " ++ detail
  | .ingestRejected detail => "ingest rejected: " ++ detail
  | .unsupportedCapability detail => "unsupported capability: " ++ detail
  | .invalidTransition source target =>
    "invalid transition: " ++ source.debug ++ " -> " ++ target.debug
  | .sessionCapacity limit => "session capacity reached (" ++ toString limit ++ ")"
  | .validation detail => "validation failed: " ++ detail

/-- `map_err(|error| error.to_string())`. -/
def hostFault : Fault → HostFault
  | .err e => .rejected (errorText e)
  | .other detail => .rejected detail
  | .panic message => .panic message

def reject {α : Type} (text : String) : HostM α :=
  throw (.rejected text)

/-- The environment of the next call. -/
def HostWorld.env (h : HostWorld) : HostEnv := h.envs 0

/-- After a call : its environment is used up. -/
@[simps]
def HostWorld.called (h : HostWorld) (w : World) : HostWorld :=
  { h with world := w, envs := fun n => h.envs (n + 1) }

/-- A call of the core. -/
def callCore {α : Type} (m : Env → CoreM α) : HostM α := fun h =>
  match m h.env.core (h.world.entered h.env.core) with
  | .ok a w => .ok a (h.called w)
  | .error f w => .error (hostFault f) (h.called w)

/-- The sessions of a snapshot. -/
def snapshotSessions : HostM (List AgentSession) := fun h =>
  .ok (AppCore.snapshotWithSequence h.env.core h.world).snapshot.sessions (h.called h.world)

/-- The integrations of a snapshot. -/
def snapshotAdapters : HostM (List AdapterCapabilities) := fun h =>
  .ok h.world.inner.integrations (h.called h.world)

/-- `resolve_process_identity`. -/
def resolveProcessIdentity (pid : ℕ) : HostM (Option ProcessIdentity) := fun h =>
  .ok (h.env.processes pid) (h.called h.world)

def unregisterSession (sessionId : String) : HostM Unit :=
  modify fun h => { h with roots := h.roots.filter fun r => r.sessionId ≠ sessionId }

/-- Register a process root in place of the one the session had. -/
def registerSession (sessionId : String) (root : ProcessIdentity)
    (attribution : AttributionQuality) (registeredAtMs : ℤ) : HostM Unit := do
  unregisterSession sessionId
  let h ← get
  if maxActiveRoots ≤ h.roots.length then
    reject ("too many active roots (max " ++ toString maxActiveRoots ++ ")")
  else
    modify fun h => { h with
      roots := h.roots ++ [⟨sessionId, root, attribution, registeredAtMs⟩] }

def recordConnectorTraffic (source : AgentSource) (atMs : ℤ) : HostM Unit :=
  onlyIf (source ≠ .unknown) (modify fun h => { h with traffic := h.traffic ++ [(source, atMs)] })

/-! ## Process roots -/

def attributionForSource : AgentSource → AttributionQuality
  | .cursor => .shared
  | .claudeCode | .codex | .gemini => .heuristic
  | .qwen | .antigravityCli | .copilotCli | .generic => .exact
  | .unknown => .unknown

/-- The sources with a connector, and whether their windows can be brought to the front. -/
def builtinAdapterCapabilities : List AdapterCapabilities :=
  ([.cursor, .claudeCode, .codex, .gemini].map fun source =>
    { AdapterCapabilities.template source with
      contextOpen := true, contextOpenTier := .appActivate }) ++
  [.qwen, .antigravityCli, .copilotCli, .generic].map AdapterCapabilities.template

section Config

variable (cfg : CoreConfig)

def ingestCore (command : IngestCommand) : HostM IngestResult :=
  callCore fun env => AppCore.ingest cfg env command

def setAdapterAttributionWithSnapshot (source : AgentSource) (attribution : AttributionQuality)
    (current : List AdapterCapabilities) : HostM Unit := do
  match builtinAdapterCapabilities.find? (·.source = source) with
  | none => reject "unsupported adapter source"
  | some template =>
    let capabilities := { template with processAttribution := attribution }
    if current.find? (·.source = source) = some capabilities then pure ()
    else
      let h ← get
      let _ ← ingestCore cfg (.integrationHealth
        { capabilities := capabilities
          healthy := false
          message := some "Template available; live connector health not yet verified"
          occurredAtMs := h.env.core.now })

def setAdapterAttribution (source : AgentSource) (attribution : AttributionQuality) :
    HostM Unit := do
  let adapters ← snapshotAdapters
  setAdapterAttributionWithSnapshot cfg source attribution adapters

/-- The sources and sessions whose roots are alive. -/
structure ValidRoots where
  sources : List (AgentSource × AttributionQuality) := []
  sessionIds : List String := []

def ValidRoots.add (valid : ValidRoots) (session : AgentSession)
    (attribution : AttributionQuality) : ValidRoots where
  sessionIds := valid.sessionIds ++ [session.id]
  sources := if valid.sources.any (·.1 = session.source) then valid.sources
    else valid.sources ++ [(session.source, attribution)]

/-- Forget a root that does not run. -/
def dropRoot (sessionId : String) : HostM Unit := do
  unregisterSession sessionId
  callCore fun env => AppCore.clearProcessRoot env sessionId

/-- Keep a root that runs. -/
def keepRoot (registered : List String) (session : AgentSession) (observed : ProcessIdentity)
    (valid : ValidRoots) : HostM ValidRoots := do
  let attribution := attributionForSource session.source
  if attribution = .unknown then pure valid
  else
    onlyIf (!registered.contains session.id)
      (registerSession session.id observed attribution session.startedAtMs)
    pure (valid.add session attribution)

/-- The process of a root, if it is the one that was registered. -/
def liveProcess (root : ProcessIdentity) : HostM (Option ProcessIdentity) := do
  let observed ← resolveProcessIdentity root.pid
  pure (observed.filter fun o => Metrics.startTimesMatch root.startedAtMs o.startedAtMs)

def reconcileSession (registered : List String) (valid : ValidRoots) (session : AgentSession) :
    HostM ValidRoots :=
  match session.processRoot with
  | none => pure valid
  | some root =>
    if isTerminal session.status then do
      dropRoot session.id
      pure valid
    else do
      match ← liveProcess root with
      | none =>
        dropRoot session.id
        pure valid
      | some observed => keepRoot registered session observed valid

def reconcileAdapterAttribution (validSources : List (AgentSource × AttributionQuality)) :
    HostM Unit := do
  let adapters ← snapshotAdapters
  builtinAdapterCapabilities.forM fun capabilities =>
    setAdapterAttributionWithSnapshot cfg capabilities.source
      (((validSources.find? (·.1 = capabilities.source)).map (·.2)).getD .unknown) adapters

/-- Keep the roots that are still valid, and report the attribution of each adapter. -/
def reconcileMetricRoots : HostM Unit := do
  let sessions ← snapshotSessions
  let h ← get
  let registered := h.roots.map (·.sessionId)
  let valid ← sessions.foldlM (reconcileSession registered) {}
  registered.forM fun sessionId =>
    onlyIf (!valid.sessionIds.contains sessionId) (unregisterSession sessionId)
  reconcileAdapterAttribution cfg valid.sources

/-! ## Sessions -/

/-- The process a payload names must run. -/
def validatedRoot (incoming : AgentSession) :
    HostM (Option (ProcessIdentity × AttributionQuality)) :=
  match incoming.processRoot with
  | none => pure none
  | some root =>
    if isTerminal incoming.status then pure none
    else do
      match ← resolveProcessIdentity root.pid with
      | none => reject "process root is not running"
      | some observed =>
        if Metrics.startTimesMatch root.startedAtMs observed.startedAtMs then
          let attribution := attributionForSource incoming.source
          pure (if attribution = .unknown then none else some (observed, attribution))
        else reject "process root start time does not match the live process"

def startStatus : SessionStatus → SessionStatus
  | .starting => .starting
  | .failed => .failed
  | _ => .running

/-- Start the session of a payload. -/
def startSession (incoming : AgentSession) : HostM String := do
  let result ← ingestCore cfg (.sessionStart
    { idempotencyKey := none
      source := incoming.source
      externalSessionId := incoming.externalSessionId
      label := incoming.label
      workspaceLabel := incoming.workspaceLabel
      status := startStatus incoming.status
      occurredAtMs := incoming.startedAtMs })
  match result.sessionId with
  | some sessionId => pure sessionId
  | none => reject "core did not return a session id"

def sendUpdate (incoming : AgentSession) (status : SessionStatus)
    (label workspaceLabel : Option String) : HostM Unit := do
  let _ ← ingestCore cfg (.sessionUpdate
    { source := incoming.source
      externalSessionId := incoming.externalSessionId
      status := some status
      label := label
      workspaceLabel := workspaceLabel
      occurredAtMs := incoming.lastEventAtMs })

def sendEnd (incoming : AgentSession) : HostM Unit := do
  let _ ← ingestCore cfg (.sessionEnd
    { source := incoming.source
      externalSessionId := incoming.externalSessionId
      status := incoming.status
      occurredAtMs := incoming.lastEventAtMs
      summary := some "Session ended" })

/-- Whether a session ended, as opposed to went stale. -/
def hasEnded : SessionStatus → Bool
  | .completed | .failed => true
  | _ => false

/-- The status of a session the core has already. -/
def updateExisting (incoming existing : AgentSession) : HostM Unit := do
  if !hasEnded incoming.status then
    sendUpdate cfg incoming incoming.status (some incoming.label) incoming.workspaceLabel
  else onlyIf (!hasEnded existing.status) do
    onlyIf (existing.status = .starting) (sendUpdate cfg incoming .running none none)
    sendEnd cfg incoming
    unregisterSession existing.id

/-- The status of a session that was just started. -/
def updateStarted (incoming : AgentSession) : HostM Unit :=
  match incoming.status with
  | .completed | .failed => sendEnd cfg incoming
  | .waiting | .paused | .stale => sendUpdate cfg incoming incoming.status none none
  | .starting | .running => pure ()

def registerRoot (incoming : AgentSession) (sessionId : String) :
    Option (ProcessIdentity × AttributionQuality) → HostM Unit
  | none => pure ()
  | some (observed, attribution) => do
    setAdapterAttribution cfg incoming.source attribution
    let _ ← ingestCore cfg (.registerProcessRoot
      { source := incoming.source
        externalSessionId := incoming.externalSessionId
        processRoot := observed
        occurredAtMs := incoming.lastEventAtMs })
    registerSession sessionId observed attribution incoming.lastEventAtMs

def reportAttention (incoming : AgentSession) : HostM Unit :=
  onlyIf (incoming.attention ≠ .none) do
    let _ ← ingestCore cfg (.attention
      { source := incoming.source
        externalSessionId := incoming.externalSessionId
        attention := incoming.attention
        level := if incoming.attention = .error then .error else .warning
        summary := "Attention observed by local integration"
        occurredAtMs := incoming.lastEventAtMs })

def reportTerminal (sessionId : String) : Option VerifiedTerminalContext → HostM Unit
  | none => pure ()
  | some terminal => callCore fun env => AppCore.setVerifiedTerminal env sessionId terminal

/-- Bring a session of the core in line with a reported one. -/
def ingestSessionUpsert (incoming : AgentSession) : HostM Unit := do
  let sessions ← snapshotSessions
  let root ← validatedRoot incoming
  let sessionId ←
    match sessions.find? fun s =>
      s.source = incoming.source ∧ s.externalSessionId = incoming.externalSessionId with
    | some existing => do
      updateExisting cfg incoming existing
      pure existing.id
    | none => do
      let sessionId ← startSession cfg incoming
      updateStarted cfg incoming
      pure sessionId
  registerRoot cfg incoming sessionId root
  reportAttention cfg incoming
  reportTerminal sessionId incoming.verifiedTerminal
  recordConnectorTraffic incoming.source incoming.lastEventAtMs
  reconcileMetricRoots cfg

/-! ## Payloads -/

/-- Whether `resolve_session` stops at a session. -/
def matchesSession (sessionId : String) (source : AgentSource) (externalSessionId : Option String)
    (session : AgentSession) : Bool :=
  session.id = sessionId ∨ (session.source = source ∧ (session.externalSessionId = sessionId ∨
    externalSessionId = some session.externalSessionId))

/-- The session a payload is about, by its id or by its external id. -/
def resolveSession (sessionId : String) (source : AgentSource)
    (externalSessionId : Option String) : HostM (Option AgentSession) := do
  let sessions ← snapshotSessions
  pure (sessions.find? (matchesSession sessionId source externalSessionId))

/-- The command for an event of a session. -/
def eventCommand (event : SessionEvent) (source : AgentSource) (externalSessionId : String)
    (attention : Option AttentionKind) : IngestCommand :=
  match event.kind, attention with
  | .attention, some attention => .attention
      { source := source
        externalSessionId := externalSessionId
        attention := attention
        level := event.level
        summary := event.summary
        occurredAtMs := event.occurredAtMs }
  | .tool, _ => .toolEvent
      { source := source
        externalSessionId := externalSessionId
        level := event.level
        summary := event.summary
        toolName := event.toolName
        occurredAtMs := event.occurredAtMs }
  | _, _ => .lifecycleEvent
      { source := source
        externalSessionId := externalSessionId
        level := event.level
        summary := event.summary
        occurredAtMs := event.occurredAtMs }

/-- Carry a normalized payload out. -/
def ingestNormalized : NormalizedIngest → HostM Unit
  | .sessionUpsert session => ingestSessionUpsert cfg session
  | .sessionRemove sessionId source externalSessionId => do
    match ← resolveSession sessionId source externalSessionId with
    | none => reject "session not found for remove"
    | some resolved =>
      callCore fun env => AppCore.removeSession env resolved.id
      unregisterSession resolved.id
  | .sessionEvent event source externalSessionId attention => do
    match ← resolveSession event.sessionId source externalSessionId with
    | none => reject "session not found for event"
    | some session =>
      let _ ← ingestCore cfg (eventCommand event source session.externalSessionId attention)
      recordConnectorTraffic source event.occurredAtMs

end Config

end Host

end LlmNotch
