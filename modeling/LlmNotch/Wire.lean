import LlmNotch.JsonSize
import LlmNotch.Protocol
import LlmNotch.RustText

/-!
# Wire messages

The messages between the hook helper and the host : their bounds (`validateWireMessage`) and
their frames, a length prefix and the compact JSON text (`encodeMessage`). Every bound is in
bytes. A frame has its own bound, but the bounds of the fields keep it from being reached, so
a message is encoded exactly if it is valid (`travels_iff_valid`).
-/

namespace LlmNotch

namespace Ipc

open Json

/-! ## Limits -/

def ipcWireVersion : UInt16 := 1
def maxFrameBytes : ℕ := 65536
def maxRequestIdLen : ℕ := 64
def maxErrorCodeLen : ℕ := 64
def maxErrorMessageLen : ℕ := 256
def maxDecisionContextBytes : ℕ := 8192
def maxTerminalIdLen : ℕ := 128

inductive IpcError where
  | notInitialized
  | frameRejected (detail : String)
  | authFailed
  | rateLimited
  | queueFull
  | tooManyClients
  | peerRejected (detail : String)
  | readTimeout
  | descriptorUnavailable
  | spoolLimitExceeded
  | connectionClosed
  | invalidConfig (detail : String)
  | io (detail : String)
  deriving DecidableEq

/-! ## Messages -/

/-- An event from a hook client. -/
structure IngestPayload where
  source : String
  event : String
  sessionId : Option String
  externalSessionId : Option String
  label : Option String
  workspaceLabel : Option String
  status : Option String
  attention : Option String
  summary : Option String
  toolName : Option String
  pid : Option UInt32
  processStartedAtMs : Option Int64
  occurredAtMs : Option Int64
  terminalSessionId : Option String
  tabId : Option String
  paneId : Option String
  windowHandle : Option UInt64
  deriving DecidableEq

/-- A decision wait of the hook helper. -/
structure DecisionWaitPayload where
  nonce : String
  source : String
  vendorEvent : String
  externalSessionId : String
  sessionId : Option String
  decisionKind : String
  summary : String
  hasActionablePayload : Bool
  respondableHook : Option String
  toolName : Option String
  connectionId : String
  vendorContextJson : Option String
  createdAtMs : Int64
  deriving DecidableEq

/-- The wire envelope. The request identifier of a decision wait is its nonce. -/
inductive WireMessage where
  | auth (v : UInt16) (requestId tokenB64 : String)
  | ingest (v : UInt16) (requestId : String) (payload : IngestPayload)
  | ack (v : UInt16) (requestId : String)
  | error (v : UInt16) (requestId code message : String)
  | decisionWait (v : UInt16) (wait : DecisionWaitPayload)
  | decisionReply (v : UInt16) (requestId stdoutJson deliveryState : String)
  deriving DecidableEq

def WireMessage.version : WireMessage → UInt16
  | auth v .. | ingest v .. | ack v _ | error v .. | decisionWait v _ | decisionReply v .. => v

def WireMessage.requestId : WireMessage → String
  | auth _ requestId _ | ingest _ requestId _ | ack _ requestId | error _ requestId _ _
  | decisionReply _ requestId _ _ => requestId
  | decisionWait _ wait => wait.nonce

/-! ## Validation -/

/-- Reject a message unless the condition holds. -/
def require (ok : Bool) (detail : String) : Except IpcError Unit :=
  if ok then .ok () else .error (.frameRejected detail)

def validateRequestId (requestId : String) : Except IpcError Unit := do
  require (!requestId.isEmpty && size requestId ≤ maxRequestIdLen)
    ("requestId length must be 1..=" ++ maxRequestIdLen.repr)
  require (requestId.toList.all fun c => RustText.isAsciiAlphanumeric c || c = '-' || c = '_')
    "requestId must be ASCII alphanumeric with - or _"

def validateBounded (value : String) (max : ℕ) (field : String) : Except IpcError Unit :=
  require (!value.isEmpty && size value ≤ max) (field ++ " length must be 1..=" ++ max.repr)

/-- The bounds of a field that may be missing. -/
def validateOptional (value : Option String) (max : ℕ) (field : String) : Except IpcError Unit :=
  match value with
  | some value => validateBounded value max field
  | none => .ok ()

def containsUnsafeShellChars (value : String) : Bool :=
  value.toList.any fun c => c = '"' || c = '\'' || c.toNat = 96 || c = '$' || c = ';' || c = '|' ||
    c = '&' || c = '<' || c = '>' || c = '\n' || c = '\r'

def validateTerminalIdField (value field : String) : Except IpcError Unit := do
  validateBounded value maxTerminalIdLen field
  require (!(RustText.contains "..".toList value.toList || value.toList.contains '/' ||
    value.toList.contains '\\')) (field ++ " contains path escape")
  require (!containsUnsafeShellChars value) (field ++ " contains unsafe shell characters")
  require (value.toList.all fun c => RustText.isAsciiAlphanumeric c || c = ' ' || c = '-' ||
    c = '_' || c = '.' || c = '%') (field ++ " contains invalid characters")

def validateTerminalId (value : Option String) (field : String) : Except IpcError Unit :=
  match value with
  | some value => validateTerminalIdField value field
  | none => .ok ()

def validateIngestPayload (payload : IngestPayload) : Except IpcError Unit := do
  validateBounded payload.source 32 "source"
  validateBounded payload.event 32 "event"
  validateOptional payload.sessionId maxSessionIdLen "sessionId"
  validateOptional payload.externalSessionId maxExternalSessionIdLen "externalSessionId"
  validateOptional payload.label maxSessionLabelLen "label"
  validateOptional payload.workspaceLabel maxWorkspaceLabelLen "workspaceLabel"
  validateOptional payload.status 32 "status"
  validateOptional payload.attention 32 "attention"
  validateOptional payload.summary maxEventSummaryLen "summary"
  validateOptional payload.toolName maxToolNameLen "toolName"
  require (payload.pid.isSome = payload.processStartedAtMs.isSome)
    "pid and processStartedAtMs must be provided together"
  require (payload.processStartedAtMs.all fun value => 0 < value)
    "processStartedAtMs must be positive"
  validateTerminalId payload.terminalSessionId "terminalSessionId"
  validateTerminalId payload.tabId "tabId"
  validateTerminalId payload.paneId "paneId"
  require (payload.windowHandle.all fun value => value ≠ 0)
    "windowHandle must be positive when provided"

def validateDecisionWait (wait : DecisionWaitPayload) : Except IpcError Unit := do
  validateBounded wait.source 32 "source"
  validateBounded wait.vendorEvent 64 "vendorEvent"
  validateBounded wait.externalSessionId maxExternalSessionIdLen "externalSessionId"
  validateOptional wait.sessionId maxSessionIdLen "sessionId"
  validateBounded wait.decisionKind 32 "decisionKind"
  validateBounded wait.summary maxDecisionSummaryLen "summary"
  validateOptional wait.respondableHook 64 "respondableHook"
  validateOptional wait.toolName maxToolNameLen "toolName"
  validateBounded wait.connectionId 64 "connectionId"
  require (wait.vendorContextJson.all fun value => size value ≤ maxDecisionContextBytes)
    ("vendorContextJson exceeds " ++ maxDecisionContextBytes.repr ++ " bytes")

def validateWireMessage (message : WireMessage) : Except IpcError Unit := do
  validateRequestId message.requestId
  require (message.version = ipcWireVersion)
    ("unsupported wire version " ++ message.version.toNat.repr)
  match message with
  | .auth _ _ tokenB64 =>
    require (!tokenB64.isEmpty && size tokenB64 ≤ 128) "tokenB64 out of bounds"
  | .ingest _ _ payload => validateIngestPayload payload
  | .ack .. => .ok ()
  | .decisionWait _ wait => validateDecisionWait wait
  | .decisionReply _ _ stdoutJson deliveryState => do
    require (size stdoutJson ≤ maxDecisionContextBytes) "stdoutJson exceeds decision context bounds"
    validateBounded deliveryState 32 "deliveryState"
  | .error _ _ code message => do
    require (!code.isEmpty && size code ≤ maxErrorCodeLen) "error code out of bounds"
    require (size message ≤ maxErrorMessageLen) "error message out of bounds"

/-! ## Frames -/

/-- A field that is left out if it has no value. -/
def optional {α : Type} (key : String) (toJson : α → Json) (value : Option α) :
    List (String × Json) :=
  (value.map fun v => (key, toJson v)).toList

def IngestPayload.toJson (p : IngestPayload) : Json :=
  .obj ([("source", .str p.source), ("event", .str p.event)] ++
    optional "sessionId" .str p.sessionId ++
    optional "externalSessionId" .str p.externalSessionId ++
    optional "label" .str p.label ++
    optional "workspaceLabel" .str p.workspaceLabel ++
    optional "status" .str p.status ++
    optional "attention" .str p.attention ++
    optional "summary" .str p.summary ++
    optional "toolName" .str p.toolName ++
    optional "pid" (fun n => .num (intText n.toNat)) p.pid ++
    optional "processStartedAtMs" (fun n => .num (intText n.toInt)) p.processStartedAtMs ++
    optional "occurredAtMs" (fun n => .num (intText n.toInt)) p.occurredAtMs ++
    optional "terminalSessionId" .str p.terminalSessionId ++
    optional "tabId" .str p.tabId ++
    optional "paneId" .str p.paneId ++
    optional "windowHandle" (fun n => .num (intText n.toNat)) p.windowHandle)

/-- The fields every message starts with. -/
def envelope (type : String) (v : UInt16) (requestId : String) : List (String × Json) :=
  [("type", .str type), ("v", .num (intText v.toNat)), ("requestId", .str requestId)]

def DecisionWaitPayload.fields (w : DecisionWaitPayload) : List (String × Json) :=
  [("source", .str w.source), ("vendorEvent", .str w.vendorEvent),
    ("externalSessionId", .str w.externalSessionId)] ++
  optional "sessionId" .str w.sessionId ++
  [("decisionKind", .str w.decisionKind), ("summary", .str w.summary),
    ("hasActionablePayload", .bool w.hasActionablePayload)] ++
  optional "respondableHook" .str w.respondableHook ++
  optional "toolName" .str w.toolName ++
  [("connectionId", .str w.connectionId)] ++
  optional "vendorContextJson" .str w.vendorContextJson ++
  [("createdAtMs", .num (intText w.createdAtMs.toInt))]

/-- The message as it is serialised, fields in the order of the wire. -/
def WireMessage.toJson : WireMessage → Json
  | auth v requestId tokenB64 => .obj (envelope "auth" v requestId ++ [("tokenB64", .str tokenB64)])
  | ingest v requestId payload =>
    .obj (envelope "ingest" v requestId ++ [("payload", payload.toJson)])
  | ack v requestId => .obj (envelope "ack" v requestId)
  | error v requestId code message =>
    .obj (envelope "error" v requestId ++ [("code", .str code), ("message", .str message)])
  | decisionWait v wait => .obj (envelope "decisionWait" v wait.nonce ++ wait.fields)
  | decisionReply v requestId stdoutJson deliveryState =>
    .obj (envelope "decisionReply" v requestId ++
      [("stdoutJson", .str stdoutJson), ("deliveryState", .str deliveryState)])

/-- A 32-bit length, most significant byte first. -/
def lengthBytes (n : ℕ) : List UInt8 :=
  [n / 2 ^ 24, n / 2 ^ 16, n / 2 ^ 8, n].map UInt8.ofNat

/-- The bytes of the text of a message. -/
def WireMessage.body (message : WireMessage) : List UInt8 :=
  message.toJson.text.toUTF8.data.toList

def encodeMessage (message : WireMessage) : Except IpcError (List UInt8) := do
  validateWireMessage message
  require (size message.toJson.text ≤ maxFrameBytes)
    ("frame exceeds " ++ maxFrameBytes.repr ++ " bytes")
  return lengthBytes message.body.length ++ message.body

/-- The message is accepted by the encoder. -/
def Travels (message : WireMessage) : Prop :=
  ∃ frame, encodeMessage message = .ok frame

/-! ## Valid messages -/

theorem bind_ok_iff {ε : Type} {x y : Except ε Unit} :
    (x >>= fun _ => y) = .ok () ↔ x = .ok () ∧ y = .ok () := by
  cases x with
  | error e => exact ⟨fun h => (by cases h), fun h => (by cases h.1)⟩
  | ok u => exact ⟨fun h => ⟨rfl, h⟩, fun h => h.2⟩

@[simp]
theorem require_ok_iff {ok : Bool} {detail : String} : require ok detail = .ok () ↔ ok = true := by
  unfold require
  split
  · rename_i h
    exact ⟨fun _ => h, fun _ => rfl⟩
  · rename_i h
    exact ⟨fun h' => (by cases h'), fun h' => absurd h' h⟩

theorem not_isEmpty_iff (s : String) : (!s.isEmpty) = true ↔ 0 < size s := by
  rw [String.isEmpty_eq_utf8ByteSize_beq_zero, Bool.not_eq_true', beq_eq_false_iff_ne]
  exact Nat.pos_iff_ne_zero.symm

variable {value : Option String} {max : ℕ} {field requestId : String} {message : WireMessage}
  {v : UInt16} {wait : DecisionWaitPayload} {payload : IngestPayload}

@[simp]
theorem validateBounded_ok_iff {value : String} :
    validateBounded value max field = .ok () ↔ 0 < size value ∧ size value ≤ max := by
  rw [validateBounded, require_ok_iff, Bool.and_eq_true, not_isEmpty_iff, decide_eq_true_iff]

@[simp]
theorem validateOptional_ok_iff :
    validateOptional value max field = .ok () ↔
      ∀ v, value = some v → 0 < size v ∧ size v ≤ max := by
  cases value with
  | none => simp [validateOptional]
  | some v => simp [validateOptional]

theorem validateRequestId_ok_iff :
    validateRequestId requestId = .ok () ↔
      (0 < size requestId ∧ size requestId ≤ maxRequestIdLen) ∧
        requestId.toList.all (fun c => RustText.isAsciiAlphanumeric c || c = '-' || c = '_') =
          true := by
  rw [validateRequestId, bind_ok_iff, require_ok_iff, require_ok_iff, Bool.and_eq_true,
    not_isEmpty_iff, decide_eq_true_iff]

theorem length_body (message : WireMessage) : message.body.length = size message.toJson.text := by
  rw [WireMessage.body, Array.length_toList]
  rfl

/-- A message is encoded exactly if it is valid and its text is within the frame bound. -/
theorem travels_iff :
    Travels message ↔ validateWireMessage message = .ok () ∧
      size message.toJson.text ≤ maxFrameBytes := by
  unfold Travels encodeMessage
  cases hvalid : validateWireMessage message with
  | error e =>
    refine ⟨fun ⟨frame, h⟩ => ?_, fun h => (by cases h.1)⟩
    cases h
  | ok u =>
    by_cases hsize : size message.toJson.text ≤ maxFrameBytes
    · refine ⟨fun _ => ⟨rfl, hsize⟩, fun _ => ⟨lengthBytes message.body.length ++
        message.body, ?_⟩⟩
      simp only [require, hsize, decide_true, if_true]
      rfl
    · refine ⟨fun ⟨frame, h⟩ => ?_, fun h => absurd h.2 hsize⟩
      simp only [require, hsize, decide_false] at h
      cases h

/-! ## The frame bound -/

theorem fieldSize_optional_le (key : String) (h : ∀ v, value = some v → size v ≤ max) :
    ((optional key .str value).map fieldSize).sum ≤ size (quote key) + 6 * max + 4 := by
  cases value with
  | none => simp [optional]
  | some v =>
    have hv := h v rfl
    have hfield := fieldSize_str_le key v
    simp only [optional, Option.map_some, Option.toList_some, List.map_cons, List.map_nil,
      List.sum_cons, List.sum_nil]
    omega

theorem size_u16_le (v : UInt16) : size (intText v.toNat) ≤ 6 := by
  refine size_intText_le (by decide) ?_
  have := v.toNat_lt
  simp only [Int.natAbs_natCast]
  omega

theorem size_i64_le (n : Int64) : size (intText n.toInt) ≤ 20 := by
  refine size_intText_le (by decide) ?_
  have hlow := n.le_toInt
  have hhigh := n.toInt_lt
  omega

theorem size_envelope_le {type : String} (htype : size type ≤ 16)
    (hid : size requestId ≤ maxRequestIdLen) :
    ((envelope type v requestId).map fieldSize).sum ≤ 600 := by
  have htypeField := fieldSize_str_le "type" type
  have hidField := fieldSize_str_le "requestId" requestId
  have hv := size_u16_le v
  have hkeys : size (quote "type") = 6 ∧ size (quote "v") = 3 ∧ size (quote "requestId") = 11 := by
    decide
  have hvField : fieldSize ("v", .num (intText v.toNat)) = size (quote "v") +
      size (intText v.toNat) + 2 := rfl
  simp only [envelope, List.map_cons, List.map_nil, List.sum_cons, List.sum_nil]
  simp only [maxRequestIdLen] at hid
  omega

theorem validateWireMessage_ok_iff :
    validateWireMessage message = .ok () ↔
      validateRequestId message.requestId = .ok () ∧ message.version = ipcWireVersion ∧
      match message with
      | .auth _ _ tokenB64 => 0 < size tokenB64 ∧ size tokenB64 ≤ 128
      | .ingest _ _ payload => validateIngestPayload payload = .ok ()
      | .ack .. => True
      | .decisionWait _ wait => validateDecisionWait wait = .ok ()
      | .decisionReply _ _ stdoutJson deliveryState =>
        size stdoutJson ≤ maxDecisionContextBytes ∧ 0 < size deliveryState ∧ size deliveryState ≤ 32
      | .error _ _ code message =>
        (0 < size code ∧ size code ≤ maxErrorCodeLen) ∧ size message ≤ maxErrorMessageLen := by
  unfold validateWireMessage
  rw [bind_ok_iff, bind_ok_iff, require_ok_iff, decide_eq_true_iff]
  refine and_congr_right fun _ => and_congr_right fun _ => ?_
  cases message with
  | auth v requestId tokenB64 =>
    simp only [require_ok_iff, Bool.and_eq_true, not_isEmpty_iff, decide_eq_true_iff]
  | ingest v requestId payload => exact Iff.rfl
  | ack v requestId => exact ⟨fun _ => trivial, fun _ => rfl⟩
  | decisionWait v wait => exact Iff.rfl
  | decisionReply v requestId stdoutJson deliveryState =>
    simp only [bind_ok_iff, require_ok_iff, validateBounded_ok_iff, decide_eq_true_iff]
  | error v requestId code message =>
    simp only [bind_ok_iff, require_ok_iff, Bool.and_eq_true, not_isEmpty_iff, decide_eq_true_iff]

/-- The bounds of a decision wait. -/
theorem validateDecisionWait_ok_iff :
    validateDecisionWait wait = .ok () ↔
      (0 < size wait.source ∧ size wait.source ≤ 32) ∧
      (0 < size wait.vendorEvent ∧ size wait.vendorEvent ≤ 64) ∧
      (0 < size wait.externalSessionId ∧
        size wait.externalSessionId ≤ maxExternalSessionIdLen) ∧
      (∀ v, wait.sessionId = some v → 0 < size v ∧ size v ≤ maxSessionIdLen) ∧
      (0 < size wait.decisionKind ∧ size wait.decisionKind ≤ 32) ∧
      (0 < size wait.summary ∧ size wait.summary ≤ maxDecisionSummaryLen) ∧
      (∀ v, wait.respondableHook = some v → 0 < size v ∧ size v ≤ 64) ∧
      (∀ v, wait.toolName = some v → 0 < size v ∧ size v ≤ maxToolNameLen) ∧
      (0 < size wait.connectionId ∧ size wait.connectionId ≤ 64) ∧
      ∀ v, wait.vendorContextJson = some v → size v ≤ maxDecisionContextBytes := by
  have hcontext : (wait.vendorContextJson.all fun value => size value ≤ maxDecisionContextBytes) =
      true ↔ ∀ v, wait.vendorContextJson = some v → size v ≤ maxDecisionContextBytes := by
    cases wait.vendorContextJson <;> simp
  simp only [validateDecisionWait, bind_ok_iff, validateBounded_ok_iff, validateOptional_ok_iff,
    require_ok_iff, hcontext]

theorem size_waitFields_le (h : validateDecisionWait wait = .ok ()) :
    (wait.fields.map fieldSize).sum ≤ 60000 := by
  obtain ⟨⟨-, hsource⟩, ⟨-, hevent⟩, ⟨-, hexternal⟩, hsession, ⟨-, hkind⟩, ⟨-, hsummary⟩, hhook,
    htool, ⟨-, hconnection⟩, hcontext⟩ := validateDecisionWait_ok_iff.1 h
  have hsourceField := fieldSize_str_le "source" wait.source
  have heventField := fieldSize_str_le "vendorEvent" wait.vendorEvent
  have hexternalField := fieldSize_str_le "externalSessionId" wait.externalSessionId
  have hsessionField := fieldSize_optional_le "sessionId" fun v hv => (hsession v hv).2
  have hkindField := fieldSize_str_le "decisionKind" wait.decisionKind
  have hsummaryField := fieldSize_str_le "summary" wait.summary
  have hhookField := fieldSize_optional_le "respondableHook" fun v hv => (hhook v hv).2
  have htoolField := fieldSize_optional_le "toolName" fun v hv => (htool v hv).2
  have hconnectionField := fieldSize_str_le "connectionId" wait.connectionId
  have hcontextField := fieldSize_optional_le "vendorContextJson" hcontext
  have hactionable : fieldSize ("hasActionablePayload", .bool wait.hasActionablePayload) ≤ 29 := by
    cases wait.hasActionablePayload <;> decide
  have hcreated := size_i64_le wait.createdAtMs
  have hcreatedField : fieldSize ("createdAtMs", .num (intText wait.createdAtMs.toInt)) =
      size (quote "createdAtMs") + size (intText wait.createdAtMs.toInt) + 2 := rfl
  have hkeys : size (quote "source") = 8 ∧ size (quote "vendorEvent") = 13 ∧
      size (quote "externalSessionId") = 19 ∧ size (quote "sessionId") = 11 ∧
      size (quote "decisionKind") = 14 ∧ size (quote "summary") = 9 ∧
      size (quote "respondableHook") = 17 ∧ size (quote "toolName") = 10 ∧
      size (quote "connectionId") = 14 ∧ size (quote "vendorContextJson") = 19 ∧
      size (quote "createdAtMs") = 13 := by
    decide
  simp only [DecisionWaitPayload.fields, List.map_append, List.sum_append, List.map_cons,
    List.map_nil, List.sum_cons, List.sum_nil]
  simp only [maxExternalSessionIdLen, maxSessionIdLen, maxDecisionSummaryLen, maxToolNameLen,
    maxDecisionContextBytes] at *
  omega

/-- A valid message fits its frame if the fields after its envelope do. -/
theorem travels_of_fields {type : String} {fields : List (String × Json)} (htype : size type ≤ 16)
    (hjson : message.toJson = .obj (envelope type v message.requestId ++ fields))
    (hfields : validateWireMessage message = .ok () → (fields.map fieldSize).sum ≤ 64000) :
    Travels message ↔ validateWireMessage message = .ok () := by
  rw [travels_iff, and_iff_left_of_imp]
  intro h
  have hid := (validateWireMessage_ok_iff.1 h).1
  have henvelope : ((envelope type v message.requestId).map fieldSize).sum ≤ 600 :=
    size_envelope_le htype (validateRequestId_ok_iff.1 hid).1.2
  have hsum := hfields h
  have hobj := size_obj_le (envelope type v message.requestId ++ fields)
  rw [List.map_append, List.sum_append] at hobj
  rw [hjson]
  exact hobj.trans (by simp only [maxFrameBytes]; omega)

/-- A decision wait that is valid has a frame. -/
theorem encode_wait_iff :
    Travels (.decisionWait v wait) ↔ validateWireMessage (.decisionWait v wait) = .ok () := by
  refine travels_of_fields (by decide) rfl fun h => ?_
  obtain ⟨-, -, hwait⟩ := validateWireMessage_ok_iff.1 h
  exact (size_waitFields_le hwait).trans (by decide)

theorem encode_reply_iff {stdoutJson deliveryState : String} :
    Travels (.decisionReply v requestId stdoutJson deliveryState) ↔
      validateWireMessage (.decisionReply v requestId stdoutJson deliveryState) = .ok () := by
  refine travels_of_fields (by decide) rfl fun h => ?_
  obtain ⟨-, -, hstdout, -, hstate⟩ := validateWireMessage_ok_iff.1 h
  have hstdoutField := fieldSize_str_le "stdoutJson" stdoutJson
  have hstateField := fieldSize_str_le "deliveryState" deliveryState
  have hkeys : size (quote "stdoutJson") = 12 ∧ size (quote "deliveryState") = 15 := by
    decide
  simp only [List.map_cons, List.map_nil, List.sum_cons, List.sum_nil]
  simp only [maxDecisionContextBytes] at hstdout
  omega

theorem encode_ack_iff :
    Travels (.ack v requestId) ↔ validateWireMessage (.ack v requestId) = .ok () :=
  @travels_of_fields (.ack v requestId) v "ack" [] (by decide) rfl fun _ => Nat.zero_le _

theorem encode_error_iff {code message : String} :
    Travels (.error v requestId code message) ↔
      validateWireMessage (.error v requestId code message) = .ok () := by
  refine travels_of_fields (by decide) rfl fun h => ?_
  obtain ⟨-, -, ⟨-, hcode⟩, hmessage⟩ := validateWireMessage_ok_iff.1 h
  have hcodeField := fieldSize_str_le "code" code
  have hmessageField := fieldSize_str_le "message" message
  have hkeys : size (quote "code") = 6 ∧ size (quote "message") = 9 := by
    decide
  simp only [List.map_cons, List.map_nil, List.sum_cons, List.sum_nil]
  simp only [maxErrorCodeLen, maxErrorMessageLen] at hcode hmessage
  omega

theorem encode_auth_iff {tokenB64 : String} :
    Travels (.auth v requestId tokenB64) ↔
      validateWireMessage (.auth v requestId tokenB64) = .ok () := by
  refine travels_of_fields (by decide) rfl fun h => ?_
  obtain ⟨-, -, -, htoken⟩ := validateWireMessage_ok_iff.1 h
  have htokenField := fieldSize_str_le "tokenB64" tokenB64
  have hkey : size (quote "tokenB64") = 10 := by
    decide
  simp only [List.map_cons, List.map_nil, List.sum_cons, List.sum_nil]
  omega

/-- A number that may be missing. -/
theorem fieldSize_optional_num_le {α : Type} (key : String) (toText : α → String)
    (h : ∀ v, size (toText v) ≤ max) (value : Option α) :
    ((optional key (fun v => .num (toText v)) value).map fieldSize).sum ≤
      size (quote key) + max + 2 := by
  cases value with
  | none => simp [optional]
  | some v =>
    have hv := h v
    have hfield : fieldSize (key, .num (toText v)) = size (quote key) + size (toText v) + 2 := rfl
    simp only [optional, Option.map_some, Option.toList_some, List.map_cons, List.map_nil,
      List.sum_cons, List.sum_nil]
    omega

theorem size_u32_le (n : UInt32) : size (intText n.toNat) ≤ 11 := by
  refine size_intText_le (by decide) ?_
  have := n.toNat_lt
  simp only [Int.natAbs_natCast]
  omega

theorem size_u64_le (n : UInt64) : size (intText n.toNat) ≤ 21 := by
  refine size_intText_le (by decide) ?_
  have := n.toNat_lt
  simp only [Int.natAbs_natCast]
  omega

theorem size_terminalId_le (h : validateTerminalId value field = .ok ()) :
    ∀ v, value = some v → size v ≤ maxTerminalIdLen := by
  rintro v rfl
  simp only [validateTerminalId, validateTerminalIdField, bind_ok_iff, validateBounded_ok_iff] at h
  exact h.1.2

theorem size_payload_le (h : validateIngestPayload payload = .ok ()) :
    size payload.toJson.text ≤ 30000 := by
  simp only [validateIngestPayload, bind_ok_iff, validateBounded_ok_iff,
    validateOptional_ok_iff] at h
  obtain ⟨⟨-, hsource⟩, ⟨-, hevent⟩, hsession, hexternal, hlabel, hworkspace, hstatus, hattention,
    hsummary, htool, -, -, hterminal, htab, hpane, -⟩ := h
  have hsourceField := fieldSize_str_le "source" payload.source
  have heventField := fieldSize_str_le "event" payload.event
  have hsessionField := fieldSize_optional_le "sessionId" fun v hv => (hsession v hv).2
  have hexternalField := fieldSize_optional_le "externalSessionId" fun v hv => (hexternal v hv).2
  have hlabelField := fieldSize_optional_le "label" fun v hv => (hlabel v hv).2
  have hworkspaceField := fieldSize_optional_le "workspaceLabel" fun v hv => (hworkspace v hv).2
  have hstatusField := fieldSize_optional_le "status" fun v hv => (hstatus v hv).2
  have hattentionField := fieldSize_optional_le "attention" fun v hv => (hattention v hv).2
  have hsummaryField := fieldSize_optional_le "summary" fun v hv => (hsummary v hv).2
  have htoolField := fieldSize_optional_le "toolName" fun v hv => (htool v hv).2
  have hpidField := fieldSize_optional_num_le "pid" (fun n : UInt32 => intText n.toNat)
    size_u32_le payload.pid
  have hstartedField := fieldSize_optional_num_le "processStartedAtMs"
    (fun n : Int64 => intText n.toInt) size_i64_le payload.processStartedAtMs
  have hoccurredField := fieldSize_optional_num_le "occurredAtMs"
    (fun n : Int64 => intText n.toInt) size_i64_le payload.occurredAtMs
  have hterminalField := fieldSize_optional_le "terminalSessionId" (size_terminalId_le hterminal)
  have htabField := fieldSize_optional_le "tabId" (size_terminalId_le htab)
  have hpaneField := fieldSize_optional_le "paneId" (size_terminalId_le hpane)
  have hwindowField := fieldSize_optional_num_le "windowHandle"
    (fun n : UInt64 => intText n.toNat) size_u64_le payload.windowHandle
  have hkeys : size (quote "source") = 8 ∧ size (quote "event") = 7 ∧
      size (quote "sessionId") = 11 ∧ size (quote "externalSessionId") = 19 ∧
      size (quote "label") = 7 ∧ size (quote "workspaceLabel") = 16 ∧
      size (quote "status") = 8 ∧ size (quote "attention") = 11 ∧ size (quote "summary") = 9 ∧
      size (quote "toolName") = 10 ∧ size (quote "pid") = 5 ∧
      size (quote "processStartedAtMs") = 20 ∧ size (quote "occurredAtMs") = 14 ∧
      size (quote "terminalSessionId") = 19 ∧ size (quote "tabId") = 7 ∧
      size (quote "paneId") = 8 ∧ size (quote "windowHandle") = 14 := by
    decide
  refine (size_obj_le _).trans ?_
  simp only [List.map_append, List.sum_append, List.map_cons, List.map_nil, List.sum_cons,
    List.sum_nil]
  simp only [maxSessionIdLen, maxExternalSessionIdLen, maxSessionLabelLen, maxWorkspaceLabelLen,
    maxEventSummaryLen, maxToolNameLen, maxTerminalIdLen] at *
  omega

theorem encode_ingest_iff :
    Travels (.ingest v requestId payload) ↔
      validateWireMessage (.ingest v requestId payload) = .ok () := by
  refine travels_of_fields (by decide) rfl fun h => ?_
  obtain ⟨-, -, hpayload⟩ := validateWireMessage_ok_iff.1 h
  have hsize := size_payload_le hpayload
  have hkey : size (quote "payload") = 9 := by
    decide
  have hfield : fieldSize ("payload", payload.toJson) = size (quote "payload") +
      size payload.toJson.text + 2 := rfl
  simp only [List.map_cons, List.map_nil, List.sum_cons, List.sum_nil]
  omega

/-- The bounds of the fields keep every valid message within the frame bound. -/
theorem travels_iff_valid : Travels message ↔ validateWireMessage message = .ok () := by
  cases message with
  | auth v requestId tokenB64 => exact encode_auth_iff
  | ingest v requestId payload => exact encode_ingest_iff
  | ack v requestId => exact encode_ack_iff
  | error v requestId code message => exact encode_error_iff
  | decisionWait v wait => exact encode_wait_iff
  | decisionReply v requestId stdoutJson deliveryState => exact encode_reply_iff

end Ipc

end LlmNotch
