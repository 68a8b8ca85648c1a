import LlmNotch.DecisionBroker
import LlmNotch.Wire

/-!
# Interactive decisions of the hook helper

`planInteractiveDecision` turns a vendor event into the event and the decision wait the helper
sends. The host converts a wait (`convertIpcPayload`) and registers it with the broker.
-/

namespace LlmNotch

open Json

namespace Ipc

/-! ## Normalization -/

/-- A normalized Claude Code event. -/
structure NormalizedClaudeEvent where
  source : AgentSource
  vendorEvent : String
  protocolEvent : String
  externalSessionId : String
  workspaceLabel : Option String
  status : Option String
  attention : Option String
  summary : String
  toolName : Option String
  decisionKind : Option DecisionKind
  respondableHook : Option ClaudeRespondableHook

inductive ClaudeNormalizeError where
  | notObject
  | missingSessionId
  | unsupportedEvent (event : String)
  deriving DecidableEq

def ClaudeNormalizeError.display : ClaudeNormalizeError → String
  | notObject => "vendor payload must be a JSON object"
  | missingSessionId => "vendor session identifier missing"
  | unsupportedEvent event => "unsupported vendor event `" ++ event ++ "`"

def normalizeVendorEventName (raw : String) : String :=
  String.ofList ((raw.toList.filter RustText.isAsciiAlphanumeric).map RustText.toAsciiLowercase)

def permissionSummary : Option String → String
  | some name => "Permission request for " ++ name
  | none => "Permission request observed"

/-- What the vendor event stands for. -/
structure EventShape where
  protocolEvent : String
  status : Option String
  attention : Option String
  summary : String
  decisionKind : Option DecisionKind
  respondableHook : Option ClaudeRespondableHook

/-- An event that asks for nothing. -/
def EventShape.observed (protocolEvent summary : String) (status : Option String) : EventShape :=
  ⟨protocolEvent, status, none, summary, none, none⟩

/-- The shape of a normalized event name; only an empty name has none. -/
def eventShape (name : String) (toolName : Option String) : Option EventShape :=
  if name = "sessionstart" then some (.observed "sessionStart" "Session started" (some "running"))
  else if name = "sessionend" then
    some (.observed "sessionEnd" "Session ended" (some "completed"))
  else if name = "stop" then some (.observed "update" "Agent turn completed" (some "waiting"))
  else if name = "permissionrequest" then
    some ⟨"attention", none, some "permission", permissionSummary toolName, some .permission,
      some .permissionRequest⟩
  else if name = "pretooluse" ∧ toolName = some "ExitPlanMode" then
    some ⟨"attention", none, some "approval", "Plan approval requested", some .approval,
      some .exitPlanModePreToolUse⟩
  else if name = "pretooluse" then some (.observed "tool" "Tool activity observed" none)
  else if name = "posttooluse" then some (.observed "tool" "Tool activity observed" none)
  else if name = "posttoolusefailure" then some (.observed "tool" "Tool activity failed" none)
  else if name = "" then none
  else some (.observed "lifecycle" "Agent lifecycle event observed" none)

/-- The session of a vendor payload. -/
def externalSessionIdOf (payload : Json) : Option String :=
  (payload.getStr "session_id").or (payload.getStr "sessionId")

def toolNameOf (payload : Json) : Option String :=
  (payload.getEither "tool_name" "toolName").bind asStr

/-- Redaction of a Claude Code payload. `fileName` is the last component of a path, in the
syntax of the platform. -/
def normalizeEvent (fileName : String → Option String) (vendorEvent : String) (payload : Json) :
    Except ClaudeNormalizeError NormalizedClaudeEvent :=
  match payload.asObject with
  | none => .error .notObject
  | some _ =>
    match externalSessionIdOf payload with
    | none => .error .missingSessionId
    | some externalSessionId =>
      let toolName := toolNameOf payload
      let normalized := normalizeVendorEventName vendorEvent
      match eventShape normalized toolName with
      | none => .error (.unsupportedEvent vendorEvent)
      | some shape => .ok
        { source := .claudeCode
          vendorEvent := normalized
          protocolEvent := shape.protocolEvent
          externalSessionId := externalSessionId
          workspaceLabel := (payload.getStr "cwd").bind fileName
          status := shape.status
          attention := shape.attention
          summary := shape.summary
          toolName := toolName
          decisionKind := shape.decisionKind
          respondableHook := shape.respondableHook }

/-! ## The plan -/

/-- A random identifier. -/
abbrev Uuid := Fin (2 ^ 128)

theorem uuid_pos : 0 < 2 ^ 128 := by
  decide

def Uuid.nil : Uuid :=
  ⟨0, uuid_pos⟩

/-- The 32 hexadecimal digits of an identifier. -/
def Uuid.simple (id : Uuid) : String :=
  String.ofList ((List.range 32).map fun i => hexDigit (id / 16 ^ (31 - i) % 16))

structure InteractiveDecisionPlan where
  ingest : IngestPayload
  wait : DecisionWaitPayload

def versionOf (value : Json) : Option String :=
  (value.getEither "claude_code_version" "claudeCodeVersion").bind asStr

def respondableName : ClaudeRespondableHook → String
  | .permissionRequest => "permissionRequest"
  | .exitPlanModePreToolUse => "exitPlanModePreToolUse"

def decisionKindName : DecisionKind → String
  | .approval => "approval"
  | .question => "question"
  | .permission => "permission"

/-- The version and the tool input, null if missing. -/
def vendorContext (value : Json) : Json :=
  .obj [("claude_code_version", ((versionOf value).map .str).getD .null),
    ("updated_input", (value.getEither "tool_input" "toolInput").getD .null)]

/-- The event the helper sends before it waits. -/
def ingestOf (source : String) (normalized : NormalizedClaudeEvent) : IngestPayload where
  source := source
  event := normalized.protocolEvent
  sessionId := none
  externalSessionId := some normalized.externalSessionId
  label := none
  workspaceLabel := normalized.workspaceLabel
  status := normalized.status
  attention := normalized.attention
  summary := some normalized.summary
  toolName := normalized.toolName
  pid := none
  processStartedAtMs := none
  occurredAtMs := none
  terminalSessionId := none
  tabId := none
  paneId := none
  windowHandle := none

def connectionIdOf (externalSessionId vendorEvent : String) (toolName : Option String) : String :=
  externalSessionId ++ ":" ++ vendorEvent ++ ":" ++ toolName.getD "none"

def waitOf (nonce : Uuid) (now : Int64) (source vendorEvent : String) (value : Json)
    (normalized : NormalizedClaudeEvent) (kind : DecisionKind) (hook : ClaudeRespondableHook) :
    DecisionWaitPayload :=
  let caps := claudeCapabilities (detectVersion (versionOf value))
  { nonce := nonce.simple
    source := source
    vendorEvent := vendorEvent
    externalSessionId := normalized.externalSessionId
    sessionId := none
    decisionKind := decisionKindName kind
    summary := normalized.summary
    hasActionablePayload := caps.respondDecisions && caps.decisionResponse && kind != .question
    respondableHook := some (respondableName hook)
    toolName := normalized.toolName
    connectionId := connectionIdOf normalized.externalSessionId vendorEvent normalized.toolName
    vendorContextJson := some (vendorContext value).text
    createdAtMs := now }

def planInteractiveDecision (fileName : String → Option String) (nonce : Uuid) (now : Int64)
    (source vendorEvent : String) (value : Json) :
    Except IpcError (Option InteractiveDecisionPlan) :=
  if source ≠ "claudeCode" then .ok none
  else match normalizeEvent fileName vendorEvent value with
    | .error err => .error (.frameRejected ("claude normalize failed: " ++ err.display))
    | .ok normalized =>
      match normalized.decisionKind, normalized.respondableHook with
      | some kind, some hook => do
        validateIngestPayload (ingestOf source normalized)
        return some ⟨ingestOf source normalized,
          waitOf nonce now source vendorEvent value normalized kind hook⟩
      | _, _ => .ok none

end Ipc

/-! ## The host -/

def parseIpcSource (raw : String) : AgentSource :=
  if raw = "cursor" then .cursor
  else if raw = "claudeCode" then .claudeCode
  else if raw = "codex" then .codex
  else if raw = "gemini" then .gemini
  else if raw ∈ ["antigravityCli", "antigravity-cli", "antigravity", "agy"] then .antigravityCli
  else if raw ∈ ["copilotCli", "copilot-cli", "copilot"] then .copilotCli
  else if raw ∈ ["qwen", "qwen-cli", "qwencode"] then .qwen
  else if raw = "generic" then .generic
  else .unknown

def parseIpcDecisionKind (raw : String) : DecisionKind :=
  if raw = "approval" then .approval
  else if raw = "question" then .question
  else .permission

/-- A wait as the broker takes it. `parse` reads a JSON document. -/
def convertIpcPayload (parse : String → Option Json) (payload : Ipc.DecisionWaitPayload) :
    DecisionWaitPayload where
  nonce := payload.nonce
  source := parseIpcSource payload.source
  vendorEvent := payload.vendorEvent
  externalSessionId := payload.externalSessionId
  sessionId := payload.sessionId
  decisionKind := parseIpcDecisionKind payload.decisionKind
  summary := payload.summary
  hasActionablePayload := payload.hasActionablePayload
  respondableHook := payload.respondableHook
  toolName := payload.toolName
  connectionId := payload.connectionId
  vendorContext := payload.vendorContextJson.bind parse
  createdAtMs := payload.createdAtMs.toInt

def deliveryStateWire : DecisionDeliveryState → String
  | .pending => "pending"
  | .delivered => "delivered"
  | .effectObserved => "effectObserved"
  | .expired => "expired"
  | .failed => "failed"

end LlmNotch
