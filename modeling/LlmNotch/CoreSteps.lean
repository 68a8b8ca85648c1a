import LlmNotch.AppCore
import LlmNotch.Transition

/-!
# The core as a system of interleaved calls

The public methods of `AppCore` besides `ingest`, and the transition system they form. A
method that calls the repository before it takes the lock of the core is cut into sections :
each section is atomic, and the sections of concurrent calls interleave (`CoreState`,
`coreStep`). A section answers with the sections its call goes on with; a call whose section
fails ends there.

A restart drops the calls in flight and builds a new core from the store.
-/

namespace LlmNotch

namespace AppCore

/-! ## Metrics -/

def bucketStart (atMs : ℤ) : ℤ :=
  atMs - atMs % (metricBucketSecs * 1000)

def aggregateSample (frame : MetricsFrame) : MetricSample where
  atMs := frame.aggregate.atMs
  cpuCorePercent := frame.aggregate.cpuCorePercent
  cpuHostPercent := frame.aggregate.cpuHostPercent
  rssBytes := frame.aggregate.rssBytes
  runtimeMs := frame.aggregate.runtimeMs
  processCount := frame.aggregate.processCount
  readBytesPerSec := frame.aggregate.readBytesPerSec
  writeBytesPerSec := frame.aggregate.writeBytesPerSec
  quality := frame.aggregate.quality

def hostSample (frame : MetricsFrame) : MetricSample where
  atMs := frame.host.atMs
  cpuCorePercent := frame.host.cpuHostPercent
  cpuHostPercent := frame.host.cpuHostPercent
  rssBytes := frame.host.usedMemoryBytes
  runtimeMs := 0
  processCount := frame.host.visibleProcessCount
  readBytesPerSec := frame.host.diskReadBytesPerSec
  writeBytesPerSec := frame.host.diskWriteBytesPerSec
  quality := ⟨.unknown, .available, .disk, none⟩

/-- The samples of a frame in the order of their session ids. -/
def agentSamples (frame : MetricsFrame) : List (String × MetricSample) :=
  (frame.agents.entries.insertionSort fun a b => a.1 ≤ b.1).map fun e => (e.1, e.2)

/-- The part of `record_metrics` before the lock. -/
def recordBuckets (frame : MetricsFrame) (now : ℤ) : CoreM Unit := do
  onStore (Repository.recordMetricBucket "host" none (bucketStart now) (hostSample frame))
  onStore (Repository.recordMetricBucket "aggregate" none (bucketStart now)
    (aggregateSample frame))
  (agentSamples frame).forM fun sample =>
    onStore (Repository.recordMetricBucket "agent" (some sample.1) (bucketStart now) sample.2)

/-- The last sample of a session that has not ended. -/
def refreshMetric (frame : MetricsFrame) (sessionId : String) : CoreM Unit := do
  let w ← get
  match w.inner.registry.get sessionId with
  | some session =>
    let session ← assign sessionId { session with
      latestMetric := if isTerminal session.status then none else frame.agents.lookup sessionId }
    onStore (Repository.upsertSession session)
  | none => pure ()

/-- The part of `record_metrics` under the lock. -/
def applyMetrics (env : Env) (frame : MetricsFrame) (now : ℤ) : CoreM Unit := do
  let w ← get
  ((w.inner.registry.sessions.valuesBy env.sessionsRank).map (·.id)).forM (refreshMetric frame)
  modify fun w => { w with inner := { w.inner with latestMetrics := some frame } }
  modify fun w => w.setAlerts
    (w.inner.alerts.evaluateHostMetrics frame.host (aggregateSample frame) now).1
  queuePayload (.metrics frame)
  flushPending env

/-! ## Other operations under the lock -/

/-- Mark one session as stale if its status allows it. -/
def markStale (now : ℤ) (sessionId : String) : CoreM Unit := do
  let w ← get
  let session ← expect "stale session" (w.inner.registry.get sessionId)
  onlyIf (isValidTransition session.status .stale) do
    let session ← assign sessionId
      { session with status := .stale, lastEventAtMs := now, latestMetric := none }
    onStore (Repository.upsertSession session)
    queuePayload (.sessionUpsert session)

/-- Mark the sessions without events for long as stale. -/
def markStaleSessions (env : Env) (now : ℤ) : CoreM Unit := do
  let w ← get
  (((w.inner.registry.sessions.valuesBy env.sessionsRank).filter fun s =>
    !isTerminal s.status && decide (staleSessionMs ≤ saturatingSubI64 now s.lastEventAtMs)).map
      (·.id)).forM (markStale now)

def tick (env : Env) : CoreM Unit := do
  markStaleSessions env env.now
  flushPending env

def removeSession (env : Env) (sessionId : String) : CoreM Unit := do
  check (validateSessionId sessionId)
  let _ ← storedSession sessionId
  dropSession sessionId
  flushPending env

/-- Assign to a stored session, persist it and announce it. -/
def publish (env : Env) (sessionId : String) (session : AgentSession) : CoreM Unit := do
  let session ← assign sessionId session
  onStore (Repository.upsertSession session)
  queuePayload (.sessionUpsert session)
  flushPending env

def clearProcessRoot (env : Env) (sessionId : String) : CoreM Unit := do
  check (validateSessionId sessionId)
  let session ← storedSession sessionId
  onlyIf session.processRoot.isSome
    (publish env sessionId { session with processRoot := none, latestMetric := none })

def setVerifiedTerminal (env : Env) (sessionId : String) (terminal : VerifiedTerminalContext) :
    CoreM Unit := do
  check (validateSessionId sessionId)
  let session ← storedSession sessionId
  publish env sessionId { session with verifiedTerminal := some terminal }

def heartbeat (env : Env) : CoreM Unit := do
  queuePayload .heartbeat
  flushPending env

/-- The part of `update_settings` under the lock. -/
def applySettings (env : Env) (settings : PublicSettings) : CoreM Unit := do
  modify fun w => { w with inner := { w.inner with settings := settings } }
  queuePayload (.settingsChanged settings)
  flushPending env

/-- The part of the metric purges under the lock. -/
def forgetMetrics : CoreM Unit := do
  onRegistry SessionRegistry.clearLatestMetrics
  modify fun w => { w with inner := { w.inner with latestMetrics := none } }

/-! ## Snapshots -/

structure SnapshotWithSequence where
  snapshot : AppSnapshot
  sequence : ℕ
  events : List SessionEvent

/-- The snapshot a client starts from. -/
def snapshotWithSequence (env : Env) (w : World) : SnapshotWithSequence where
  snapshot :=
    { protocolVersion := protocolVersion
      capturedAtMs := env.now
      host := w.inner.latestMetrics.map (·.host)
      aggregate := w.inner.latestMetrics.map (·.aggregate)
      sessions := ((w.inner.registry.sessions.valuesBy env.sessionsRank).insertionSort
        fun a b => b.lastEventAtMs ≤ a.lastEventAtMs).take maxSessions
      settings := w.inner.settings
      adapters := w.inner.integrations
      resourceAlerts := resourceAlertsFromActive w.inner.alerts.active }
  sequence := w.inner.streamSequence
  events := w.inner.registry.bootstrapEvents env.sessionsRank env.eventsRank

/-! ## Starting -/

/-- Build the registry from stored rows. -/
def restored (sessions : List AgentSession) (events : List SessionEvent) :
    StoreM SessionRegistry :=
  match SessionRegistry.restore sessions events SessionRegistry.new with
  | .ok _ registry => pure registry
  | .error fault _ => throw fault

/-- `AppCore::new`. -/
def new (cfg : CoreConfig) (settings : PublicSettings) : StoreM AppCoreInner := do
  let sessions ← Repository.loadSessions cfg
  let events ← Repository.loadEvents
  let registry ← restored sessions events
  let integrations ← Repository.loadIntegrations
  let persisted ← Repository.loadSettings
  pure
    { registry, integrations
      settings := persisted.getD settings
      streamSequence := 0
      coalescer := {}
      alerts := {}
      latestMetrics := none }

end AppCore

/-! ## Sections -/

/-- The atomic parts of the operations. -/
inductive CoreSection where
  | ingest (command : IngestCommand)
  | tick
  | removeSession (sessionId : String)
  | clearProcessRoot (sessionId : String)
  | setVerifiedTerminal (sessionId : String) (terminal : VerifiedTerminalContext)
  | heartbeat
  | saveSettings (settings : PublicSettings)
  | applySettings (settings : PublicSettings)
  | recordBuckets (frame : MetricsFrame)
  | applyMetrics (frame : MetricsFrame) (now : ℤ)
  | readRetention
  | prune (retentionMs : ℤ)
  | purgeMetricRows
  | forgetMetrics
  | purgeEventRows
  | clearEvents

open AppCore in
/-- Run a section; the result is what its call goes on with. -/
def CoreSection.exec (cfg : CoreConfig) (env : Env) : CoreSection → CoreM (List CoreSection)
  | ingest command => do
    let _ ← AppCore.ingest cfg env command
    pure []
  | tick => do
    AppCore.tick env
    pure []
  | removeSession sessionId => do
    AppCore.removeSession env sessionId
    pure []
  | clearProcessRoot sessionId => do
    AppCore.clearProcessRoot env sessionId
    pure []
  | setVerifiedTerminal sessionId terminal => do
    AppCore.setVerifiedTerminal env sessionId terminal
    pure []
  | heartbeat => do
    AppCore.heartbeat env
    pure []
  | saveSettings settings => do
    onStore (Repository.saveSettings settings)
    pure [applySettings settings]
  | applySettings settings => do
    AppCore.applySettings env settings
    pure []
  | recordBuckets frame => do
    AppCore.recordBuckets frame env.now
    pure [applyMetrics frame env.now]
  | applyMetrics frame now => do
    AppCore.applyMetrics env frame now
    pure []
  | readRetention => do
    let w ← get
    pure [prune (saturatingMulI64 w.inner.settings.historyRetentionHours (60 * 60 * 1000))]
  | prune retentionMs => do
    let report ← onStore (Repository.pruneWithMetricRetention env.now retentionMs env.sizes)
    pure (if 0 < report.metricBucketsDeleted then [forgetMetrics] else [])
  | purgeMetricRows => do
    let _ ← onStore Repository.purgeMetricHistory
    pure [forgetMetrics]
  | forgetMetrics => do
    AppCore.forgetMetrics
    pure []
  | purgeEventRows => do
    let _ ← onStore Repository.purgeSessionEvents
    pure [clearEvents]
  | clearEvents => do
    onRegistry SessionRegistry.clearEvents
    pure []

/-- The public methods that change something. -/
inductive CoreCall where
  | ingest (command : IngestCommand)
  | updateSettings (settings : PublicSettings)
  | recordMetrics (frame : MetricsFrame)
  | tick
  | purgeHistory
  | purgeMetricHistory
  | purgeSessionEvents
  | purgeScoped (history sessionEvents : Bool)
  | removeSession (sessionId : String)
  | clearProcessRoot (sessionId : String)
  | setVerifiedTerminal (sessionId : String) (terminal : VerifiedTerminalContext)
  | heartbeat

/-- How a call starts. -/
def CoreCall.sections : CoreCall → List CoreSection
  | ingest command => [.ingest command]
  | updateSettings settings => [.saveSettings settings]
  | recordMetrics frame => [.recordBuckets frame]
  | tick => [.tick]
  | purgeHistory => [.readRetention]
  | purgeMetricHistory => [.purgeMetricRows]
  | purgeSessionEvents => [.purgeEventRows]
  | purgeScoped history sessionEvents =>
    (if history then [.purgeMetricRows] else []) ++
      (if sessionEvents then [.purgeEventRows] else [])
  | removeSession sessionId => [.removeSession sessionId]
  | clearProcessRoot sessionId => [.clearProcessRoot sessionId]
  | setVerifiedTerminal sessionId terminal => [.setVerifiedTerminal sessionId terminal]
  | heartbeat => [.heartbeat]

/-! ## The system -/

/-- The world and the calls in flight. -/
structure CoreState where
  world : World
  calls : Dict ℕ (List CoreSection) := ∅

inductive CoreAct where
  | call (tid : ℕ) (call : CoreCall)
  | advance (tid : ℕ) (env : Env)
  | restart (env : Env) (settings : PublicSettings)

/-- The world a section starts in. -/
def World.entered (w : World) (env : Env) : World :=
  w.setStore { w.store with faults := env.faults }

/-- Record how a section of call `tid` ended. -/
def CoreState.finish (s : CoreState) (tid : ℕ) (rest : List CoreSection) :
    EStateM.Result Fault World (List CoreSection) → CoreState
  | .ok more w => ⟨w, s.calls.insert tid (more ++ rest)⟩
  | .error _ w => ⟨w, s.calls.erase tid⟩

/-- One step : a call begins, its next section runs, or the core is restarted. -/
def coreStep (cfg : CoreConfig) (s : CoreState) : CoreAct → Option CoreState
  | .call tid call =>
    match s.calls.lookup tid with
    | none => some { s with calls := s.calls.insert tid call.sections }
    | some _ => none
  | .advance tid env =>
    match s.calls.lookup tid with
    | some (sec :: rest) => some (s.finish tid rest (sec.exec cfg env (s.world.entered env)))
    | some [] => some { s with calls := s.calls.erase tid }
    | none => none
  | .restart env settings =>
    match AppCore.new cfg settings { s.world.store with faults := env.faults } with
    | .ok inner store => some ⟨⟨inner, store, []⟩, ∅⟩
    | .error _ _ => none

/-- How the next section of a call fails, if it does. -/
def sectionFault (cfg : CoreConfig) (s : CoreState) (tid : ℕ) (env : Env) : Option Fault :=
  match s.calls.lookup tid with
  | some (sec :: _) =>
    match sec.exec cfg env (s.world.entered env) with
    | .ok _ _ => none
    | .error f _ => some f
  | _ => none

/-- The core over a store, before any call. -/
def startCore (cfg : CoreConfig) (env : Env) (settings : PublicSettings) (db : Database) :
    Option CoreState :=
  match AppCore.new cfg settings ⟨db, env.faults⟩ with
  | .ok inner store => some ⟨⟨inner, store, []⟩, ∅⟩
  | .error _ _ => none

/-! ## A sample -/

/-- A configuration whose identifiers are the external keys. -/
def sampleCoreConfig : CoreConfig := ⟨externalKey, some⟩

def sampleSettings : PublicSettings where
  overlayEnabled := true
  autostartEnabled := false
  reducedMotion := false
  samplingIntervalMs := 1000
  selectedDisplay := none
  showOverFullscreen := false
  historyRetentionHours := 24
  alertSoundEnabled := false
  selectedSoundThemeId := none
  soundRouting := ⟨false, 0, none, [], []⟩

/-- Adapters that report events. -/
def sampleIntegrations : List IntegrationHealth :=
  [⟨AdapterCapabilities.template .generic, true, none, 0⟩,
    ⟨AdapterCapabilities.template .qwen, true, none, 0⟩]

def sampleStart (source : AgentSource) (externalSessionId : String) : SessionStartCommand where
  idempotencyKey := none
  source := source
  externalSessionId := externalSessionId
  label := "session"
  workspaceLabel := none
  status := .running
  occurredAtMs := 0

def sampleEvent (source : AgentSource) (externalSessionId : String) : LifecycleEventCommand where
  source := source
  externalSessionId := externalSessionId
  level := .info
  summary := "event"
  occurredAtMs := 0

/-- Make a call and run its first section. -/
def CoreAct.perform (tid : ℕ) (call : CoreCall) (env : Env) : List CoreAct :=
  [.call tid call, .advance tid env]

end LlmNotch
