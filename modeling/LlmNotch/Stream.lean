import LlmNotch.Alerts

/-!
# The stream to the renderer

Payloads queued for the renderer, the coalescer that holds them until the end of an
operation, and the frames it is drained into. The coalescer keeps the last upsert of every
session and the last metrics; everything else is kept in order and drained first.
-/

namespace LlmNotch

/-- What a window is shown at the start. -/
structure AppSnapshot where
  protocolVersion : ℕ
  capturedAtMs : ℤ
  host : Option HostMetricSample
  aggregate : Option AgentAggregate
  sessions : List AgentSession
  settings : PublicSettings
  adapters : List AdapterCapabilities
  resourceAlerts : List ResourceAlert

/-- What a frame of the stream tells a window. -/
inductive StreamPayload where
  | snapshot (snapshot : AppSnapshot)
  | sessionUpsert (session : AgentSession)
  | sessionRemove (sessionId : String)
  | sessionEvent (event : SessionEvent)
  | metrics (metrics : MetricsFrame)
  | settingsChanged (settings : PublicSettings)
  | integrationChanged (integration : AdapterCapabilities)
  | heartbeat
  | resyncRequired (reason : String)

/-- A payload under its number in the stream. -/
structure StreamFrame where
  sequence : ℕ
  emittedAtMs : ℤ
  payload : StreamPayload

/-- The payloads that wait for the next flush. -/
structure StreamCoalescer where
  pendingSessionUpserts : Dict String AgentSession := ∅
  pendingMetrics : Option MetricsFrame := none
  pendingOther : List StreamPayload := []

namespace StreamCoalescer

/-- A later upsert of a session and later metrics replace the earlier ones. -/
def push (c : StreamCoalescer) : StreamPayload → StreamCoalescer
  | .sessionUpsert session =>
    { c with pendingSessionUpserts := c.pendingSessionUpserts.insert session.id session }
  | .metrics metrics => { c with pendingMetrics := some metrics }
  | other => { c with pendingOther := c.pendingOther ++ [other] }

/-- What a drain hands out; the coalescer is empty afterwards. -/
def drain (c : StreamCoalescer) (rank : String → ℕ) : List StreamPayload :=
  c.pendingOther ++ (c.pendingSessionUpserts.valuesBy rank).map .sessionUpsert ++
    c.pendingMetrics.toList.map .metrics

/-- Nothing waits. -/
def isEmpty (c : StreamCoalescer) : Bool :=
  c.pendingOther.isEmpty && c.pendingSessionUpserts.entries.isEmpty && c.pendingMetrics.isNone

end StreamCoalescer

/-- Number the payloads of a drain. -/
def frame (sequence : ℕ) (emittedAtMs : ℤ) : List StreamPayload → List StreamFrame
  | [] => []
  | payload :: rest =>
    ⟨sequence + 1, emittedAtMs, payload⟩ :: frame (sequence + 1) emittedAtMs rest

end LlmNotch
