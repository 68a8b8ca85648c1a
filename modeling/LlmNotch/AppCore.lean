import LlmNotch.Repository
import LlmNotch.Stream

/-!
# The application core

The operations of `AppCore` as programs over a `World` : the state behind the lock of the
core, the store and the frames handed to the stream so far. A mutable reference to a stored
session is a local value that is written back with every assignment (`assign`), so that an
early return leaves exactly the assignments made before it.

What a call reads from outside (the clock, a fresh identifier, the iteration orders of the
hash maps, the file sizes and faults of the store) is its `Env`.
-/

namespace LlmNotch

/-- The state behind the lock of the core. -/
structure AppCoreInner where
  registry : SessionRegistry
  settings : PublicSettings
  integrations : List AdapterCapabilities
  streamSequence : ℕ
  coalescer : StreamCoalescer
  alerts : AlertEvaluator
  latestMetrics : Option MetricsFrame

/-- The core, its store and the frames it has emitted. -/
structure World where
  inner : AppCoreInner
  store : Store
  frames : List StreamFrame := []

/-- Programs over the world. -/
abbrev CoreM := EStateM Fault World

/-- The clock, the next uuid and the iteration orders of the maps in one call. -/
structure Env where
  now : ℤ := 0
  flushedAt : ℤ := 0
  uuid : ℕ := 0
  sessionsRank : String → ℕ := fun _ => 0
  eventsRank : String → ℕ := fun _ => 0
  upsertsRank : String → ℕ := fun _ => 0
  sizes : List ℕ := []
  faults : List Bool := []

namespace World

abbrev registry (w : World) : SessionRegistry := w.inner.registry

abbrev db (w : World) : Database := w.store.db

@[simps]
def setRegistry (w : World) (r : SessionRegistry) : World :=
  { w with inner := { w.inner with registry := r } }

@[simps]
def setStore (w : World) (store : Store) : World :=
  { w with store := store }

@[simps]
def push (w : World) (p : StreamPayload) : World :=
  { w with inner := { w.inner with coalescer := w.inner.coalescer.push p } }

@[simps]
def setAlerts (w : World) (alerts : AlertEvaluator) : World :=
  { w with inner := { w.inner with alerts := alerts } }

/-- Hand the pending payloads to the stream. -/
def flush (w : World) (env : Env) : World :=
  if w.inner.coalescer.isEmpty then w
  else
    let payloads := w.inner.coalescer.drain env.upsertsRank
    { w with
      inner := { w.inner with
        coalescer := {}
        streamSequence := w.inner.streamSequence + payloads.length }
      frames := w.frames ++ frame w.inner.streamSequence env.flushedAt payloads }

theorem alerts_flush (w : World) (env : Env) : (w.flush env).inner.alerts = w.inner.alerts := by
  unfold flush
  split <;> rfl

end World

namespace AppCore

variable {α : Type}

/-- Run a call of the registry. -/
def onRegistry (m : RegistryM α) : CoreM α :=
  zoom (fun w => w.inner.registry) World.setRegistry m

/-- Run a call of the store. -/
def onStore (m : StoreM α) : CoreM α :=
  zoom World.store World.setStore m

/-- Queue a payload for the next flush. -/
def queuePayload (p : StreamPayload) : CoreM Unit :=
  modify fun w => w.push p

/-- Send the pending payloads. -/
def flushPending (env : Env) : CoreM Unit :=
  modify fun w => w.flush env

/-! ## Looking up -/

/-- The capabilities the integration of a source has registered. -/
def capabilitiesFor (source : AgentSource) : CoreM AdapterCapabilities := do
  let w ← get
  okOr (.unsupportedCapability ("no integration registered for " ++ source.debug))
    (w.inner.integrations.find? (·.source = source))

/-- The integration of the source must support events. -/
def requireEvents (source : AgentSource) : CoreM Unit := do
  let capabilities ← capabilitiesFor source
  ensure capabilities.events (.unsupportedCapability "integration does not support events")

/-- Whether the integration may report this attention. -/
def supportsAttention (capabilities : AdapterCapabilities) (attention : AttentionKind) : Bool :=
  match capabilities.attention with
  | .full => true
  | .partially => attention ≠ .none
  | .none => attention = .none

def ensureAttentionCapability (capabilities : AdapterCapabilities)
    (attention : AttentionKind) : CoreM Unit :=
  ensure (supportsAttention capabilities attention)
    (.unsupportedCapability "integration does not support attention reporting")

/-- The id of the session a source reports under an external id. -/
def resolveSessionId (source : AgentSource) (externalSessionId : String) : CoreM String := do
  let w ← get
  let session ← okOr (.sessionNotFound (externalKey source externalSessionId))
    (w.inner.registry.resolveExternal source externalSessionId)
  pure session.id

/-- `get_mut(..).expect("resolved session")`. -/
def resolvedSession (sessionId : String) : CoreM AgentSession := do
  let w ← get
  expect "resolved session" (w.inner.registry.get sessionId)

/-- `get_mut(..).ok_or(SessionNotFound)`. -/
def storedSession (sessionId : String) : CoreM AgentSession := do
  let w ← get
  okOr (.sessionNotFound sessionId) (w.inner.registry.get sessionId)

/-- Assign through the reference to a stored session. -/
def assign (sessionId : String) (session : AgentSession) : CoreM AgentSession := do
  onRegistry (SessionRegistry.modifySession sessionId fun _ => session)
  pure session

/-! ## Ingest -/

/-- Record an event of a session in memory and in the store, and announce it. -/
def appendEvent (env : Env) (sessionId : String) (kind : SessionEventKind)
    (level : EventLevel) (summary : String) (toolName : Option String) (occurredAtMs : ℤ) :
    CoreM SessionEvent := do
  let w ← get
  let event : SessionEvent :=
    { id := env.uuid
      sessionId
      sequence := w.inner.registry.nextEventSequence sessionId
      occurredAtMs, kind, level, summary, toolName }
  onRegistry (SessionRegistry.appendEvent event)
  onStore (Repository.appendEvent event)
  queuePayload (.sessionEvent event)
  pure event

/-- A field is checked if there is one. -/
def validateOptional (validate : String → Except CoreError Unit) :
    Option String → Except CoreError Unit
  | some value => validate value
  | none => .ok ()

/-- Whether the key was seen before; it is stored if the registry does not have it. -/
def knownKey (key : String) (occurredAtMs : ℤ) : CoreM Bool := do
  let w ← get
  if w.inner.registry.checkIdempotency key then pure true
  else onStore (Repository.storeIdempotencyKey key occurredAtMs)

/-- The session a repeated start refers to; the key of any other start is recorded. -/
def replayedStart (cmd : SessionStartCommand) : CoreM (Option AgentSession) :=
  match cmd.idempotencyKey with
  | none => pure none
  | some key => do
    let known ← knownKey key cmd.occurredAtMs
    let w ← get
    match w.inner.registry.resolveExternal cmd.source cmd.externalSessionId, known with
    | some session, true => pure (some session)
    | _, _ =>
      onRegistry (SessionRegistry.recordIdempotency key)
      pure none

/-- Delete a session from the store and the registry, and announce it. -/
def dropSession (sessionId : String) : CoreM Unit := do
  onStore (Repository.removeSession sessionId)
  onRegistry (SessionRegistry.removeSession sessionId)
  queuePayload (.sessionRemove sessionId)

/-- Make room for a new session. -/
def evict (env : Env) : CoreM Unit := do
  let w ← get
  let candidate ← check (w.inner.registry.capacityEvictionCandidate env.sessionsRank)
  match candidate with
  | none => pure ()
  | some evictedId => dropSession evictedId

/-- The session a start creates. -/
def newSession (cmd : SessionStartCommand) (id : String) : AgentSession where
  id := id
  source := cmd.source
  externalSessionId := cmd.externalSessionId
  label := cmd.label
  workspaceLabel := cmd.workspaceLabel
  status := cmd.status
  attention := .none
  startedAtMs := cmd.occurredAtMs
  lastEventAtMs := cmd.occurredAtMs
  endedAtMs := none
  processRoot := none
  verifiedTerminal := none
  latestMetric := none

/-- Persist and announce a session that was just inserted. -/
def openSession (env : Env) (cmd : SessionStartCommand) (session : AgentSession) :
    CoreM IngestResult := do
  onStore (Repository.upsertSession session)
  let event ← appendEvent env session.id .lifecycle .info "Session started" none cmd.occurredAtMs
  let session := { session with lastEventAtMs := cmd.occurredAtMs }
  onRegistry (SessionRegistry.upsertSession session)
  onStore (Repository.upsertSession session)
  queuePayload (.sessionUpsert session)
  pure ⟨some event.sessionId, some event.id, false⟩

/-- A full registry evicts first, and a start of a known key is a replay. -/
def createSession (cfg : CoreConfig) (env : Env) (cmd : SessionStartCommand) :
    CoreM IngestResult := do
  evict env
  let (session, replay) ← onRegistry
    (SessionRegistry.insertNewSession cfg cmd.source cmd.externalSessionId (newSession cmd))
  if replay then pure (IngestResult.replay session) else openSession env cmd session

/-- A start with any other status than starting is checked as a transition. -/
def validateStartStatus (status : SessionStatus) : Except CoreError Unit :=
  if status = .starting then .ok () else validateTransition .starting status

/-- Start a session, or answer with the one that has its key. -/
def sessionStart (cfg : CoreConfig) (env : Env) (cmd : SessionStartCommand) :
    CoreM IngestResult := do
  check (validateExternalSessionId cmd.externalSessionId)
  check (validateSessionLabel cmd.label)
  check (validateOptional validateWorkspaceLabel cmd.workspaceLabel)
  match ← replayedStart cmd with
  | some session => pure (IngestResult.replay session)
  | none =>
    requireEvents cmd.source
    check (validateStartStatus cmd.status)
    let w ← get
    match w.inner.registry.resolveExternal cmd.source cmd.externalSessionId with
    | some existing => pure (IngestResult.replay existing)
    | none => createSession cfg env cmd

/-- `if let Some(label)` : check the label and assign it. -/
def updateLabel (sessionId : String) (session : AgentSession) :
    Option String → CoreM AgentSession
  | some label => do
    check (validateSessionLabel label)
    assign sessionId { session with label := label }
  | none => pure session

/-- The workspace label is kept when the update has none. -/
def updateWorkspaceLabel (sessionId : String) (session : AgentSession) :
    Option String → CoreM AgentSession
  | some workspace => do
    check (validateWorkspaceLabel workspace)
    assign sessionId { session with workspaceLabel := some workspace }
  | none => pure session

/-- The status changes along the allowed transitions only. -/
def updateStatus (sessionId : String) (session : AgentSession) :
    Option SessionStatus → CoreM AgentSession
  | some status => do
    check (validateTransition session.status status)
    assign sessionId { session with status := status }
  | none => pure session

/-- Change label, workspace label and status, each as far as given. -/
def sessionUpdate (env : Env) (cmd : SessionUpdateCommand) : CoreM IngestResult := do
  check (validateExternalSessionId cmd.externalSessionId)
  requireEvents cmd.source
  let sessionId ← resolveSessionId cmd.source cmd.externalSessionId
  let session ← resolvedSession sessionId
  let session ← updateLabel sessionId session cmd.label
  let session ← updateWorkspaceLabel sessionId session cmd.workspaceLabel
  let session ← updateStatus sessionId session cmd.status
  let session ← assign sessionId { session with lastEventAtMs := cmd.occurredAtMs }
  onStore (Repository.upsertSession session)
  let event ← appendEvent env sessionId .status .info "Session updated" none cmd.occurredAtMs
  queuePayload (.sessionUpsert session)
  pure ⟨some sessionId, some event.id, false⟩

/-- The session after a session end. -/
def ended (session : AgentSession) (cmd : SessionEndCommand) : AgentSession :=
  { session with
    status := cmd.status
    endedAtMs := some cmd.occurredAtMs
    lastEventAtMs := cmd.occurredAtMs
    attention := .none
    latestMetric := none }

/-- End a session as completed or failed. -/
def sessionEnd (env : Env) (cmd : SessionEndCommand) : CoreM IngestResult := do
  check (validateExternalSessionId cmd.externalSessionId)
  requireEvents cmd.source
  let sessionId ← resolveSessionId cmd.source cmd.externalSessionId
  let session ← resolvedSession sessionId
  ensure (cmd.status = .completed ∨ cmd.status = .failed)
    (.validation "session end status must be completed or failed")
  check (validateTransition session.status cmd.status)
  let session ← assign sessionId (ended session cmd)
  onStore (Repository.upsertSession session)
  let summary := cmd.summary.getD "Session ended"
  check (validateEventSummary summary)
  let event ← appendEvent env sessionId .lifecycle .info summary none cmd.occurredAtMs
  queuePayload (.sessionUpsert session)
  pure ⟨some sessionId, some event.id, false⟩

/-- Record the time of an event in the session it belongs to. -/
def touchSession (sessionId : String) (occurredAtMs : ℤ) : CoreM Unit := do
  let w ← get
  match w.inner.registry.get sessionId with
  | some session =>
    let session ← assign sessionId { session with lastEventAtMs := occurredAtMs }
    onStore (Repository.upsertSession session)
  | none => pure ()

/-- The end of the handlers that record an event only. -/
abbrev recordEvent (env : Env) (source : AgentSource) (externalSessionId : String)
    (kind : SessionEventKind) (level : EventLevel) (summary : String) (toolName : Option String)
    (occurredAtMs : ℤ) : CoreM IngestResult := do
  requireEvents source
  let sessionId ← resolveSessionId source externalSessionId
  touchSession sessionId occurredAtMs
  let event ← appendEvent env sessionId kind level summary toolName occurredAtMs
  pure ⟨some sessionId, some event.id, false⟩

/-- Record a lifecycle event. -/
def lifecycleEvent (env : Env) (cmd : LifecycleEventCommand) : CoreM IngestResult := do
  check (validateExternalSessionId cmd.externalSessionId)
  check (validateEventSummary cmd.summary)
  requireEvents cmd.source
  let sessionId ← resolveSessionId cmd.source cmd.externalSessionId
  touchSession sessionId cmd.occurredAtMs
  let event ← appendEvent env sessionId .lifecycle cmd.level cmd.summary none cmd.occurredAtMs
  pure ⟨some sessionId, some event.id, false⟩

/-- Record the use of a tool. -/
def toolEvent (env : Env) (cmd : ToolEventCommand) : CoreM IngestResult := do
  check (validateExternalSessionId cmd.externalSessionId)
  check (validateEventSummary cmd.summary)
  check (validateOptional validateToolName cmd.toolName)
  requireEvents cmd.source
  let sessionId ← resolveSessionId cmd.source cmd.externalSessionId
  touchSession sessionId cmd.occurredAtMs
  let event ← appendEvent env sessionId .tool cmd.level cmd.summary cmd.toolName cmd.occurredAtMs
  pure ⟨some sessionId, some event.id, false⟩

/-- Set the attention of a session. -/
def attention (env : Env) (cmd : AttentionCommand) : CoreM IngestResult := do
  check (validateExternalSessionId cmd.externalSessionId)
  check (validateEventSummary cmd.summary)
  let capabilities ← capabilitiesFor cmd.source
  ensureAttentionCapability capabilities cmd.attention
  let sessionId ← resolveSessionId cmd.source cmd.externalSessionId
  let session ← resolvedSession sessionId
  let session ← assign sessionId
    { session with attention := cmd.attention, lastEventAtMs := cmd.occurredAtMs }
  onStore (Repository.upsertSession session)
  modify fun w => w.setAlerts
    (w.inner.alerts.evaluateAttention sessionId cmd.attention cmd.occurredAtMs)
  let event ← appendEvent env sessionId .attention cmd.level cmd.summary none cmd.occurredAtMs
  queuePayload (.sessionUpsert session)
  pure ⟨some sessionId, some event.id, false⟩

/-- Attribute a process to a session. -/
def registerProcessRoot (env : Env) (cmd : ProcessRootCommand) : CoreM IngestResult := do
  check (validateExternalSessionId cmd.externalSessionId)
  let capabilities ← capabilitiesFor cmd.source
  ensure (capabilities.processAttribution ≠ .unknown)
    (.unsupportedCapability "integration does not support process attribution")
  let sessionId ← resolveSessionId cmd.source cmd.externalSessionId
  let session ← resolvedSession sessionId
  let session ← assign sessionId
    { session with processRoot := some cmd.processRoot, lastEventAtMs := cmd.occurredAtMs }
  onStore (Repository.upsertSession session)
  let event ← appendEvent env sessionId .lifecycle .info "Process root registered" none
    cmd.occurredAtMs
  queuePayload (.sessionUpsert session)
  pure ⟨some sessionId, some event.id, false⟩

/-- Replace the first integration of the same source, or add the integration. -/
def upsertCapabilities (capabilities : AdapterCapabilities) (all : List AdapterCapabilities) :
    List AdapterCapabilities :=
  match all.findIdx? (·.source = capabilities.source) with
  | some i => all.set i capabilities
  | none => all ++ [capabilities]

/-- Store what an integration says of itself. -/
def integrationHealth (cmd : IntegrationHealthCommand) : CoreM IngestResult := do
  onStore (Repository.upsertIntegration
    ⟨cmd.capabilities, cmd.healthy, cmd.message, cmd.occurredAtMs⟩)
  modify fun w => { w with inner := { w.inner with
    integrations := upsertCapabilities cmd.capabilities w.inner.integrations } }
  queuePayload (.integrationChanged cmd.capabilities)
  pure IngestResult.empty

/-- Clear the attention of a session and its alerts. -/
def acknowledgeAttention (cmd : AcknowledgeAttentionCommand) : CoreM IngestResult := do
  check (validateSessionId cmd.sessionId)
  let session ← storedSession cmd.sessionId
  let session ← assign cmd.sessionId
    { session with attention := .none, lastEventAtMs := cmd.occurredAtMs }
  onStore (Repository.upsertSession session)
  modify fun w => w.setAlerts (w.inner.alerts.clearLocalAcknowledgement cmd.sessionId)
  queuePayload (.sessionUpsert session)
  pure ⟨some cmd.sessionId, none, false⟩

def handleIngest (cfg : CoreConfig) (env : Env) : IngestCommand → CoreM IngestResult
  | .sessionStart cmd => sessionStart cfg env cmd
  | .sessionUpdate cmd => sessionUpdate env cmd
  | .sessionEnd cmd => sessionEnd env cmd
  | .lifecycleEvent cmd => lifecycleEvent env cmd
  | .toolEvent cmd => toolEvent env cmd
  | .attention cmd => attention env cmd
  | .registerProcessRoot cmd => registerProcessRoot env cmd
  | .integrationHealth cmd => integrationHealth cmd
  | .acknowledgeAttention cmd => acknowledgeAttention cmd

/-- Handle a command, and flush if it succeeds. -/
def ingest (cfg : CoreConfig) (env : Env) (command : IngestCommand) : CoreM IngestResult := do
  let result ← handleIngest cfg env command
  flushPending env
  pure result

end AppCore

end LlmNotch
