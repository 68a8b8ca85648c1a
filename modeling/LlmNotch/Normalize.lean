import LlmNotch.Wire

/-!
# Normalization of hook payloads

`normalizeIngest` turns an accepted payload into what the host consumes : a session to start
or update, a session to remove, or an event of a session. A payload names its session by the
external identifier of the vendor, by `sessionId`, or by both. A payload without `sessionId`
gets a digest of its source and external identifier (`stableId`); the digest is computed by a
library and is a parameter here.
-/

namespace LlmNotch

namespace Ipc

/-- What the host application consumes. -/
inductive NormalizedIngest where
  | sessionUpsert (session : AgentSession)
  | sessionRemove (sessionId : String) (source : AgentSource) (externalSessionId : Option String)
  | sessionEvent (event : SessionEvent) (source : AgentSource) (externalSessionId : Option String)
      (attention : Option AttentionKind)
  deriving DecidableEq

def parseSource (value : String) : Except IpcError AgentSource :=
  match RustText.asciiLowercase value with
  | "cursor" => .ok .cursor
  | "claudecode" | "claude_code" | "claude-code" => .ok .claudeCode
  | "codex" => .ok .codex
  | "gemini" | "geminicli" | "gemini-cli" => .ok .gemini
  | "antigravitycli" | "antigravity-cli" | "antigravity" | "agy" => .ok .antigravityCli
  | "copilotcli" | "copilot-cli" | "copilot" => .ok .copilotCli
  | "qwen" | "qwen-cli" | "qwencode" => .ok .qwen
  | "generic" => .ok .generic
  | "unknown" => .ok .unknown
  | other => .error (.frameRejected ("unsupported source `" ++ other ++ "`"))

def statusOf (value : String) : Option SessionStatus :=
  match RustText.asciiLowercase value with
  | "starting" => some .starting
  | "running" => some .running
  | "waiting" => some .waiting
  | "paused" => some .paused
  | "completed" => some .completed
  | "failed" => some .failed
  | "stale" => some .stale
  | _ => none

def parseStatus (payload : IngestPayload) : Option SessionStatus :=
  payload.status.bind statusOf

def attentionOf (value : String) : Option AttentionKind :=
  match RustText.asciiLowercase value with
  | "none" => some .none
  | "approval" => some .approval
  | "question" => some .question
  | "permission" => some .permission
  | "error" => some .error
  | _ => none

def parseAttention (payload : IngestPayload) : Option AttentionKind :=
  payload.attention.bind attentionOf

def parseEventKind (event : String) : Except IpcError SessionEventKind :=
  match event with
  | "tool" => .ok .tool
  | "attention" => .ok .attention
  | "status" | "statuschange" | "status_change" => .ok .status
  | "lifecycle" | "sessionevent" | "event" | "sessionstart" | "sessionend" | "start" | "end" =>
    .ok .lifecycle
  | other => .error (.frameRejected ("unsupported event kind `" ++ other ++ "`"))

def parseLevel (payload : IngestPayload) : EventLevel :=
  match parseAttention payload with
  | some .error => .error
  | some .permission | some .approval => .warning
  | _ => .info

def defaultSummary : SessionEventKind → String
  | .lifecycle => "Session lifecycle update"
  | .tool => "Tool activity"
  | .attention => "Attention required"
  | .status => "Status update"

/-- The terminal of a session, if the payload names any part of one. -/
def verifiedTerminalFromIngest (payload : IngestPayload) : Option VerifiedTerminalContext :=
  if payload.terminalSessionId.isNone ∧ payload.tabId.isNone ∧ payload.paneId.isNone ∧
      payload.windowHandle.isNone then none
  else some ⟨payload.terminalSessionId, payload.tabId, payload.paneId,
    payload.windowHandle.map UInt64.toNat⟩

/-- When the event happened. -/
def occurredAt (payload : IngestPayload) (nowMs : ℤ) : ℤ :=
  (payload.occurredAtMs.map Int64.toInt).getD nowMs

/-- The process of a session; both parts are needed. -/
def processRootOf (payload : IngestPayload) : Option ProcessIdentity :=
  match payload.pid, payload.processStartedAtMs with
  | some pid, some startedAtMs => some ⟨pid.toNat, startedAtMs.toInt⟩
  | _, _ => none

/-- The arms of `normalize_ingest`. -/
inductive PayloadKind where
  | remove | event | upsert | ended
  deriving DecidableEq

def payloadKind (event : String) : Option PayloadKind :=
  match event with
  | "sessionremove" | "session_remove" | "remove" => some .remove
  | "sessionevent" | "event" | "tool" | "attention" | "status" | "lifecycle" => some .event
  | "sessionupsert" | "session_upsert" | "sessionstart" | "session_start" | "start" | "update"
  | "statuschange" | "status_change" => some .upsert
  | "sessionend" | "session_end" | "end" | "complete" | "fail" => some .ended
  | _ => none

section

variable (stableId : AgentSource → String → String)

def resolveSessionId (payload : IngestPayload) (source : AgentSource) :
    Except IpcError String :=
  match payload.sessionId with
  | some id => .ok id
  | none =>
    match payload.externalSessionId with
    | some external => .ok (stableId source external)
    | none => .error (.frameRejected "sessionId or externalSessionId required")

def buildSession (payload : IngestPayload) (source : AgentSource) (nowMs : ℤ) :
    Except IpcError AgentSession :=
  match payload.externalSessionId.or payload.sessionId with
  | none => .error (.frameRejected "externalSessionId required")
  | some externalSessionId => .ok
    { id := payload.sessionId.getD (stableId source externalSessionId)
      source := source
      externalSessionId := externalSessionId
      label := payload.label.getD "Agent session"
      workspaceLabel := payload.workspaceLabel
      status := (parseStatus payload).getD .running
      attention := (parseAttention payload).getD .none
      startedAtMs := occurredAt payload nowMs
      lastEventAtMs := occurredAt payload nowMs
      endedAtMs := none
      processRoot := processRootOf payload
      verifiedTerminal := verifiedTerminalFromIngest payload
      latestMetric := none }

/-- The event a payload reports. -/
def buildEvent (payload : IngestPayload) (source : AgentSource) (nowMs : ℤ) (uuid : ℕ)
    (event : String) : Except IpcError SessionEvent := do
  let sessionId ← resolveSessionId stableId payload source
  let kind ← parseEventKind event
  pure
    { id := uuid
      sessionId := sessionId
      sequence := 0
      occurredAtMs := occurredAt payload nowMs
      kind := kind
      level := parseLevel payload
      summary := payload.summary.getD (defaultSummary kind)
      toolName := payload.toolName }

def normalizeIngest (payload : IngestPayload) (nowMs : ℤ) (uuid : ℕ) :
    Except IpcError NormalizedIngest := do
  let source ← parseSource payload.source
  let event := RustText.asciiLowercase payload.event
  match payloadKind event with
  | some .remove =>
    let sessionId ← resolveSessionId stableId payload source
    pure (.sessionRemove sessionId source payload.externalSessionId)
  | some .event =>
    let event ← buildEvent stableId payload source nowMs uuid event
    pure (.sessionEvent event source payload.externalSessionId (parseAttention payload))
  | some .upsert =>
    let session ← buildSession stableId payload source nowMs
    pure (.sessionUpsert session)
  | some .ended =>
    let session ← buildSession stableId payload source nowMs
    pure (.sessionUpsert { session with
      status := (parseStatus payload).getD .completed
      endedAtMs := some (occurredAt payload nowMs) })
  | none => throw (.frameRejected ("unsupported event `" ++ event ++ "`"))

end

/-- The external identifier a payload is about. -/
def IngestPayload.target (payload : IngestPayload) : Option String :=
  payload.externalSessionId.or payload.sessionId

/-! ## What is normalized -/

section

variable {stableId : AgentSource → String → String} {payload : IngestPayload}
  {source : AgentSource} {nowMs : ℤ}

/-- An external identifier comes before any other. -/
theorem eq_target {x target : String} (htarget : payload.target = some target)
    (hexternal : payload.externalSessionId = some x) : x = target := by
  unfold IngestPayload.target at htarget
  rw [hexternal] at htarget
  exact Option.some.inj htarget

theorem target_of_resolveSessionId {id : String}
    (h : resolveSessionId stableId payload source = .ok id) :
    ∃ target, payload.target = some target := by
  unfold resolveSessionId at h
  unfold IngestPayload.target
  cases hsession : payload.sessionId with
  | some sessionId =>
    cases payload.externalSessionId with
    | some external => exact ⟨external, rfl⟩
    | none => exact ⟨sessionId, rfl⟩
  | none =>
    cases hexternal : payload.externalSessionId with
    | some external => exact ⟨external, rfl⟩
    | none =>
      rw [hsession, hexternal] at h
      cases h

theorem buildSession_ok {session : AgentSession}
    (h : buildSession stableId payload source nowMs = .ok session) :
    session.source = source ∧ payload.target = some session.externalSessionId := by
  unfold buildSession at h
  unfold IngestPayload.target
  cases htarget : payload.externalSessionId.or payload.sessionId with
  | none =>
    rw [htarget] at h
    cases h
  | some external =>
    rw [htarget] at h
    cases h
    exact ⟨rfl, rfl⟩

theorem buildEvent_ok {uuid : ℕ} {name : String} {event : SessionEvent}
    (h : buildEvent stableId payload source nowMs uuid name = .ok event) :
    resolveSessionId stableId payload source = .ok event.sessionId := by
  unfold buildEvent at h
  cases hid : resolveSessionId stableId payload source with
  | error e =>
    rw [hid] at h
    cases h
  | ok id =>
    cases hkind : parseEventKind name with
    | error e =>
      rw [hid, hkind] at h
      cases h
    | ok kind =>
      rw [hid, hkind] at h
      cases h
      rfl

theorem except_bind_ok {α β : Type} {x : Except IpcError α} {f : α → Except IpcError β} {b : β}
    (h : (x >>= f) = .ok b) : ∃ a, x = .ok a ∧ f a = .ok b := by
  cases x with
  | error e => cases h
  | ok a => exact ⟨a, rfl, h⟩

/-- The session the host is asked to change has the source, and the external identifier if the
host is given one. -/
def NormalizedIngest.About (source : AgentSource) (target : String) : NormalizedIngest → Prop
  | .sessionUpsert session => session.source = source ∧ session.externalSessionId = target
  | .sessionRemove _ s externalSessionId =>
    s = source ∧ ∀ x, externalSessionId = some x → x = target
  | .sessionEvent _ s externalSessionId _ =>
    s = source ∧ ∀ x, externalSessionId = some x → x = target

/-- The identifier by which a removal or an event asks for a session. -/
def NormalizedIngest.asksFor : NormalizedIngest → Option String
  | .sessionUpsert _ => none
  | .sessionRemove sessionId _ _ => some sessionId
  | .sessionEvent event _ _ _ => some event.sessionId

/-- A normalized payload carries its source and its external identifier, and names a session. -/
theorem normalizeIngest_ok {uuid : ℕ} {n : NormalizedIngest}
    (h : normalizeIngest stableId payload nowMs uuid = .ok n) :
    ∃ source target, parseSource payload.source = .ok source ∧ payload.target = some target ∧
      n.About source target := by
  obtain ⟨source, hsource, h⟩ := except_bind_ok h
  dsimp only at h
  split at h
  · obtain ⟨id, hid, h⟩ := except_bind_ok h
    cases h
    obtain ⟨target, htarget⟩ := target_of_resolveSessionId hid
    exact ⟨source, target, hsource, htarget, rfl, fun x => eq_target htarget⟩
  · obtain ⟨event, hevent, h⟩ := except_bind_ok h
    cases h
    obtain ⟨target, htarget⟩ := target_of_resolveSessionId (buildEvent_ok hevent)
    exact ⟨source, target, hsource, htarget, rfl, fun x => eq_target htarget⟩
  · obtain ⟨session, hsession, h⟩ := except_bind_ok h
    cases h
    obtain ⟨hs, htarget⟩ := buildSession_ok hsession
    exact ⟨source, _, hsource, htarget, hs, rfl⟩
  · obtain ⟨session, hsession, h⟩ := except_bind_ok h
    cases h
    obtain ⟨hs, htarget⟩ := buildSession_ok hsession
    exact ⟨source, _, hsource, htarget, hs, rfl⟩
  · cases h

end

end Ipc

end LlmNotch
