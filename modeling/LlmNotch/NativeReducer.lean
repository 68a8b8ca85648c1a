import LlmNotch.Stream
import LlmNotch.Registry

/-!
# The state of the renderer

The reducer of the renderer (`nativeReducer`) : how a bootstrap and every frame of the stream
change its state. A record with string keys is a `Dict`; an absent metric and an absent
nullable field are `none`.

The actions that only serve the history view and the display selection, and the fields only
they use, are left out.
-/

namespace LlmNotch

inductive ConnectionStatus where
  | loading | connected | disconnected | resyncing | incompatibleProtocol
  deriving DecidableEq

inductive NativeClientMode where
  | tauri | preview
  deriving DecidableEq

structure NativeState where
  clientMode : NativeClientMode
  connection : ConnectionStatus
  protocolVersion : Option ℕ
  lastSequence : Option ℕ
  resyncReason : Option String
  errorMessage : Option String
  snapshot : Option AppSnapshot
  sessions : Dict String AgentSession
  sessionOrder : List String
  events : List SessionEvent
  eventsBySession : Dict String (List SessionEvent)
  metrics : Option MetricsFrame
  adapters : List AdapterCapabilities
  settings : Option PublicSettings
  selectedSessionId : Option String
  reducedMotion : Bool

inductive NativeAction where
  | setClientMode (mode : NativeClientMode)
  | setConnection (status : ConnectionStatus) (errorMessage : Option String)
  | setProtocolIncompatible (received expected : ℕ)
  | applyBootstrap (snapshot : AppSnapshot) (lastSequence : ℕ) (events : List SessionEvent)
  | applyFrame (frame : StreamFrame)
  | setResyncReason (reason : String)
  | clearResync
  | setSelectedSession (sessionId : Option String)
  | reset

namespace NativeState

def maxEvents : ℕ := 256
def maxEventsPerSession : ℕ := 96

def createInitialNativeState (clientMode : NativeClientMode) : NativeState where
  clientMode := clientMode
  connection := .loading
  protocolVersion := none
  lastSequence := none
  resyncReason := none
  errorMessage := none
  snapshot := none
  sessions := ∅
  sessionOrder := []
  events := []
  eventsBySession := ∅
  metrics := none
  adapters := []
  settings := none
  selectedSessionId := none
  reducedMotion := false

/-! ## Snapshots -/

/-- `Object.fromEntries` : the last entry of a key counts. -/
def fromEntries {β : Type} (entries : List (String × β)) : Dict String β :=
  entries.foldl (fun m e => m.insert e.1 e.2) ∅

/-- The sessions of a snapshot by their id, and the ids in order. -/
def indexSessions (sessions : List AgentSession) : Dict String AgentSession × List String :=
  (fromEntries (sessions.map fun s => (s.id, s)), sessions.map (·.id))

def trimEvents (events : List SessionEvent) : List SessionEvent :=
  keepLast maxEvents events

def appendEvent (st : NativeState) (event : SessionEvent) : NativeState :=
  { st with
    events := trimEvents (st.events ++ [event])
    eventsBySession := st.eventsBySession.insert event.sessionId
      (keepLast maxEventsPerSession
        ((st.eventsBySession.lookup event.sessionId).getD [] ++ [event])) }

/-- The metrics a snapshot starts with; a snapshot without them keeps the last ones. -/
def snapshotMetrics (st : NativeState) (snapshot : AppSnapshot) : Option MetricsFrame :=
  match snapshot.host, snapshot.aggregate with
  | some host, some aggregate => some ⟨host, aggregate, fromEntries (snapshot.sessions.flatMap
      fun s => (s.latestMetric.map fun metric => (s.id, metric)).toList)⟩
  | _, _ => st.metrics

/-- Keep the selected session if the snapshot has it. -/
def selectAfter (selected : Option String) (sessions : Dict String AgentSession)
    (snapshot : AppSnapshot) : Option String :=
  match selected with
  | some id => if id ≠ "" ∧ (sessions.lookup id).isSome then some id
      else snapshot.sessions.head?.map (·.id)
  | none => snapshot.sessions.head?.map (·.id)

def applySnapshot (st : NativeState) (snapshot : AppSnapshot) (lastSequence : ℕ)
    (bootstrapEvents : List SessionEvent) : NativeState :=
  let indexed := indexSessions snapshot.sessions
  let events := trimEvents bootstrapEvents
  { st with
    connection := .connected
    protocolVersion := some snapshot.protocolVersion
    lastSequence := some lastSequence
    resyncReason := none
    errorMessage := none
    snapshot := some snapshot
    sessions := indexed.1
    sessionOrder := indexed.2
    events := events
    eventsBySession := fromEntries (snapshot.sessions.map fun s =>
      (s.id, keepLast maxEventsPerSession (events.filter (·.sessionId = s.id))))
    adapters := snapshot.adapters
    settings := some snapshot.settings
    reducedMotion := snapshot.settings.reducedMotion
    metrics := snapshotMetrics st snapshot
    selectedSessionId := selectAfter st.selectedSessionId indexed.1 snapshot }

/-- The stored snapshot with the sessions as they are now. -/
def syncSnapshotSessions (st : NativeState) (sessions : Dict String AgentSession)
    (sessionOrder : List String) : Option AppSnapshot :=
  st.snapshot.map fun snapshot =>
    { snapshot with sessions := sessionOrder.filterMap sessions.lookup }

/-! ## Sessions -/

/-- `['completed', 'failed', 'stale'].includes(status)`. -/
def terminal (status : SessionStatus) : Bool :=
  [SessionStatus.completed, .failed, .stale].contains status

def clearLatestMetric (session : AgentSession) : AgentSession :=
  { session with latestMetric := none }

/-- A binary64 zero. -/
def zeroF64 : F64 := ⟨0⟩

/-- The metrics shown before any frame of metrics arrived. -/
def defaultHost (metric : MetricSample) : HostMetricSample :=
  ⟨metric.atMs, zeroF64, 0, 0, 0, 0, 0⟩

def defaultAggregate (metric : MetricSample) : AgentAggregate :=
  ⟨metric.atMs, zeroF64, zeroF64, 0, 0, 0, 0, 0, metric.quality, 0, 0⟩

def upsertMetrics (metrics : Option MetricsFrame) (sessionId : String) (metric : MetricSample) :
    MetricsFrame where
  host := (metrics.map (·.host)).getD (defaultHost metric)
  aggregate := (metrics.map (·.aggregate)).getD (defaultAggregate metric)
  agents := ((metrics.map MetricsFrame.agents).getD ∅).insert sessionId metric

def upsertSession (st : NativeState) (session : AgentSession) : NativeState :=
  let normalized := if terminal session.status then clearLatestMetric session else session
  let sessions := st.sessions.insert session.id normalized
  let sessionOrder := if (st.sessions.lookup session.id).isSome then st.sessionOrder
    else st.sessionOrder ++ [session.id]
  { st with
    sessions := sessions
    sessionOrder := sessionOrder
    snapshot := syncSnapshotSessions st sessions sessionOrder
    metrics := match normalized.latestMetric with
      | some metric => some (upsertMetrics st.metrics session.id metric)
      | none => st.metrics }

def removeSession (st : NativeState) (sessionId : String) : NativeState :=
  if (st.sessions.lookup sessionId).isSome then
    let sessions := st.sessions.erase sessionId
    let sessionOrder := st.sessionOrder.filter (· ≠ sessionId)
    { st with
      sessions := sessions
      sessionOrder := sessionOrder
      snapshot := syncSnapshotSessions st sessions sessionOrder
      events := st.events.filter (·.sessionId ≠ sessionId)
      eventsBySession := st.eventsBySession.erase sessionId
      metrics := st.metrics.map fun m => { m with agents := m.agents.erase sessionId }
      selectedSessionId :=
        if st.selectedSessionId = some sessionId then none else st.selectedSessionId }
  else st

/-! ## Metrics -/

/-- A session with the sample of a frame of metrics. -/
def mergeSample (frame : MetricsFrame) (sessionId : String) (session : AgentSession) :
    AgentSession :=
  match frame.agents.lookup sessionId with
  | some sample =>
    if terminal session.status then clearLatestMetric session
    else { session with latestMetric := some sample }
  | none => clearLatestMetric session

def mergeMetricsIntoSessions (st : NativeState) (frame : MetricsFrame) : NativeState :=
  let sessions := Dict.mapEntries (mergeSample frame) st.sessions
  { st with
    sessions := sessions
    snapshot := st.snapshot.map fun snapshot => { snapshot with
      sessions := snapshot.sessions.map fun s =>
        (sessions.lookup s.id).getD (clearLatestMetric s) } }

/-- `incoming ?? current`. -/
def mergeMetricsFrame (_current : Option MetricsFrame) (incoming : MetricsFrame) :
    MetricsFrame :=
  incoming

/-! ## Adapters -/

/-- Replace the adapters of the same source, or add the adapter. -/
def changeIntegration (adapters : List AdapterCapabilities) (integration : AdapterCapabilities) :
    List AdapterCapabilities :=
  if adapters.any (·.source = integration.source) then
    adapters.map fun adapter => if adapter.source = integration.source then integration else adapter
  else adapters ++ [integration]

/-! ## The reducer -/

def applyFrame (st : NativeState) (frame : StreamFrame) : NativeState :=
  match frame.payload with
  | .snapshot snapshot => applySnapshot st snapshot frame.sequence []
  | .sessionUpsert session =>
    { upsertSession st session with lastSequence := some frame.sequence }
  | .sessionRemove sessionId =>
    { removeSession st sessionId with lastSequence := some frame.sequence }
  | .sessionEvent event => { appendEvent st event with lastSequence := some frame.sequence }
  | .metrics incoming =>
    let metrics := mergeMetricsFrame st.metrics incoming
    { mergeMetricsIntoSessions st metrics with
      metrics := some metrics
      lastSequence := some frame.sequence }
  | .settingsChanged settings =>
    { st with
      settings := some settings
      reducedMotion := settings.reducedMotion
      snapshot := st.snapshot.map fun snapshot => { snapshot with settings := settings }
      lastSequence := some frame.sequence }
  | .integrationChanged integration =>
    let adapters := changeIntegration st.adapters integration
    { st with
      adapters := adapters
      snapshot := st.snapshot.map fun snapshot => { snapshot with adapters := adapters }
      lastSequence := some frame.sequence }
  | .resyncRequired reason =>
    { st with
      connection := .resyncing
      resyncReason := some reason
      lastSequence := some frame.sequence }
  | .heartbeat => { st with lastSequence := some frame.sequence }

def setProtocolIncompatible (st : NativeState) (received expected : ℕ) : NativeState :=
  { st with
    connection := .incompatibleProtocol
    protocolVersion := some received
    errorMessage := some ("Protocol " ++ toString received ++
      " is incompatible with renderer protocol " ++ toString expected) }

end NativeState

open NativeState in
def nativeReducer (st : NativeState) : NativeAction → NativeState
  | .setClientMode mode => { st with clientMode := mode }
  | .setConnection status errorMessage =>
    { st with connection := status, errorMessage := errorMessage }
  | .setProtocolIncompatible received expected => st.setProtocolIncompatible received expected
  | .applyBootstrap snapshot lastSequence events =>
    if snapshot.protocolVersion ≠ protocolVersion then
      st.setProtocolIncompatible snapshot.protocolVersion protocolVersion
    else applySnapshot st snapshot lastSequence events
  | .applyFrame frame => applyFrame st frame
  | .setResyncReason reason =>
    { st with connection := .resyncing, resyncReason := some reason }
  | .clearResync => { st with resyncReason := none }
  | .setSelectedSession sessionId => { st with selectedSessionId := sessionId }
  | .reset => createInitialNativeState st.clientMode

end LlmNotch
