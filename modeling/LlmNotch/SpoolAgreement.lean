import LlmNotch.FrameReader
import LlmNotch.JsonRead
import LlmNotch.RelayHooks

/-!
# The spool format of the hook and of the relay

The hook writes a payload as a frame (`spoolRelayPayloadIn`) and the relay reads it
(`decodeFrame`), each with a schema of its own. `read` is the reader of JSON texts, of which it is
used only that it gives back the value whose text the hook has written.

The frame is always written and its body is always read, but the relay then checks more than the
hook : it knows five attentions, and wants a session for an event that it forwards.
`spool_agrees_iff` : those are all the differences.
-/

namespace LlmNotch

/-! ## The reader -/

namespace Relay

open Json

def RelayHookPayload.names : List String :=
  ["source", "event", "sessionId", "externalSessionId", "summary", "occurredAtMs", "toolName",
    "attention"]

/-- Unknown fields are denied. -/
def RelayHookPayload.ofJson (json : Json) : Option RelayHookPayload := do
  let fields ← json.structFields names
  guard (noneUnknown names fields && namedOnce names fields)
  let source ← (fieldOf "source" fields).bind asStr
  let event ← (fieldOf "event" fields).bind asStr
  let sessionId ← optionalOf asStr "sessionId" fields
  let externalSessionId ← optionalOf asStr "externalSessionId" fields
  let summary ← optionalOf asStr "summary" fields
  let occurredAtMs ← optionalOf asInt64 "occurredAtMs" fields
  let toolName ← optionalOf asStr "toolName" fields
  let attention ← optionalOf asStr "attention" fields
  return ⟨source, event, sessionId, externalSessionId, summary, occurredAtMs, toolName, attention⟩

def WireIngestFrame.names : List String :=
  ["type", "payload"]

def WireIngestFrame.ofJson (json : Json) : Option WireIngestFrame := do
  let fields ← json.structFields names
  guard (namedOnce names fields)
  let frameType ← (fieldOf "type" fields).bind asStr
  let payload ← (fieldOf "payload" fields).bind RelayHookPayload.ofJson
  return ⟨frameType, payload⟩

/-- `serde_json::from_str` at the frame type. -/
def parseFrame (read : String → Option Json) (text : String) : Option WireIngestFrame :=
  (read text).bind WireIngestFrame.ofJson

end Relay

/-! ## The writer -/

namespace Ipc

open Json

def relayCompatiblePayload (payload : IngestPayload) : IngestPayload where
  source := payload.source
  event := payload.event
  sessionId := payload.sessionId
  externalSessionId := payload.externalSessionId
  summary := payload.summary
  occurredAtMs := payload.occurredAtMs
  label := none
  workspaceLabel := none
  status := none
  attention := payload.attention
  toolName := payload.toolName
  pid := none
  processStartedAtMs := none
  terminalSessionId := none
  tabId := none
  paneId := none
  windowHandle := none

/-- The message that is spooled for the relay. -/
def relayMessage (requestId : String) (payload : IngestPayload) : WireMessage :=
  .ingest ipcWireVersion requestId (relayCompatiblePayload payload)

/-- What is written to the spool. -/
def spoolRelayPayloadIn (requestId : String) (payload : IngestPayload) :
    Except IpcError (List UInt8) :=
  encodeMessage (relayMessage requestId payload)

variable {requestId : String} {payload : IngestPayload}

/-- The bounds the hook has checked. -/
structure Checked (payload : IngestPayload) : Prop where
  source : 0 < size payload.source ∧ size payload.source ≤ 32
  event : 0 < size payload.event ∧ size payload.event ≤ 32
  sessionId : ∀ v, payload.sessionId = some v → 0 < size v ∧ size v ≤ 64
  externalSessionId : ∀ v, payload.externalSessionId = some v → 0 < size v ∧ size v ≤ 256
  attention : ∀ v, payload.attention = some v → 0 < size v ∧ size v ≤ 32
  summary : ∀ v, payload.summary = some v → 0 < size v ∧ size v ≤ 512
  toolName : ∀ v, payload.toolName = some v → 0 < size v ∧ size v ≤ 128

theorem checked_of_validate (h : validateIngestPayload payload = .ok ()) : Checked payload := by
  simp only [validateIngestPayload, bind_ok_iff, validateBounded_ok_iff,
    validateOptional_ok_iff] at h
  obtain ⟨hsource, hevent, hsession, hexternal, -, -, -, hattention, hsummary, htool, -⟩ := h
  exact ⟨hsource, hevent, hsession, hexternal, hattention, hsummary, htool⟩

/-- What is left of a valid payload is valid. -/
theorem validate_relayCompatible (h : Checked payload) :
    validateIngestPayload (relayCompatiblePayload payload) = .ok () := by
  simp only [validateIngestPayload, bind_ok_iff, validateBounded_ok_iff, validateOptional_ok_iff,
    require_ok_iff]
  refine ⟨h.source, h.event, h.sessionId, h.externalSessionId, ?_, ?_, ?_, h.attention, h.summary,
    h.toolName, rfl, rfl, rfl, rfl, rfl, rfl⟩
  all_goals
    intro v hv
    cases hv

/-- The fields that are left. -/
def relayFields (payload : IngestPayload) : List (String × Json) :=
  [("source", .str payload.source), ("event", .str payload.event)] ++
    optional "sessionId" .str payload.sessionId ++
    optional "externalSessionId" .str payload.externalSessionId ++
    optional "attention" .str payload.attention ++
    optional "summary" .str payload.summary ++
    optional "toolName" .str payload.toolName ++
    optional "occurredAtMs" (fun n => .num (intText n.toInt)) payload.occurredAtMs

theorem toJson_relayCompatible (payload : IngestPayload) :
    (relayCompatiblePayload payload).toJson = .obj (relayFields payload) := by
  have hnone : ∀ {α : Type} (key : String) (toJson : α → Json), optional key toJson none = [] :=
    fun _ _ => rfl
  simp only [IngestPayload.toJson, relayCompatiblePayload, relayFields, hnone, List.append_nil]

/-- The frame is always written. -/
theorem relayMessage_travels (hid : validateRequestId requestId = .ok ()) (h : Checked payload) :
    Travels (relayMessage requestId payload) :=
  travels_iff_valid.2 (validateWireMessage_ok_iff.2 ⟨hid, rfl, validate_relayCompatible h⟩)

/-! ## What the relay reads -/

/-- The payload as the relay knows it. -/
def relayView (payload : IngestPayload) : Relay.RelayHookPayload :=
  ⟨payload.source, payload.event, payload.sessionId, payload.externalSessionId, payload.summary,
    payload.occurredAtMs, payload.toolName, payload.attention⟩

theorem names_relayFields (payload : IngestPayload) :
    ((relayFields payload).map Prod.fst).Sublist
      ["source", "event", "sessionId", "externalSessionId", "attention", "summary", "toolName",
        "occurredAtMs"] := by
  simp only [relayFields, List.map_append]
  have hstart := List.Sublist.refl ["source", "event"]
  exact (((((hstart.append names_toList_sublist).append names_toList_sublist).append
    names_toList_sublist).append names_toList_sublist).append names_toList_sublist).append
    names_toList_sublist

/-- The payload is read back, with all its fields. -/
theorem ofJson_relayCompatible (payload : IngestPayload) :
    Relay.RelayHookPayload.ofJson (relayCompatiblePayload payload).toJson =
      some (relayView payload) := by
  have hknown : noneUnknown Relay.RelayHookPayload.names (relayFields payload) = true :=
    noneUnknown_of_sublist (names_relayFields payload) (by decide)
  have honce : namedOnce Relay.RelayHookPayload.names (relayFields payload) = true :=
    namedOnce_of_sublist (names_relayFields payload) (by decide)
  have hsource : fieldOf "source" (relayFields payload) = some (.str payload.source) := by
    simp [relayFields, fieldOf]
  have hevent : fieldOf "event" (relayFields payload) = some (.str payload.event) := by
    simp [relayFields, fieldOf]
  have hstr : ∀ (key : String) (value : Option String),
      fieldOf key (relayFields payload) = value.map .str →
      optionalOf asStr key (relayFields payload) = some value := fun key value hfield =>
    optionalOf_eq hfield (fun _ => rfl) (fun _ h => by cases h)
  have hsession := hstr "sessionId" payload.sessionId
    (by simp [relayFields, fieldOf_append, optional, fieldOf_toList, fieldOf])
  have hexternal := hstr "externalSessionId" payload.externalSessionId
    (by simp [relayFields, fieldOf_append, optional, fieldOf_toList, fieldOf])
  have hsummary := hstr "summary" payload.summary
    (by simp [relayFields, fieldOf_append, optional, fieldOf_toList, fieldOf])
  have htool := hstr "toolName" payload.toolName
    (by simp [relayFields, fieldOf_append, optional, fieldOf_toList, fieldOf])
  have hattention := hstr "attention" payload.attention
    (by simp [relayFields, fieldOf_append, optional, fieldOf_toList, fieldOf])
  have hoccurred : optionalOf asInt64 "occurredAtMs" (relayFields payload) =
      some payload.occurredAtMs :=
    optionalOf_eq (by simp [relayFields, fieldOf_append, optional, fieldOf_toList, fieldOf])
      asInt64_intText (fun _ h => by cases h)
  rw [toJson_relayCompatible]
  simp [Relay.RelayHookPayload.ofJson, structFields, hknown, honce, hsource, hevent, hsession,
    hexternal, hsummary, hoccurred, htool, hattention, asStr, relayView]

/-- The relay reads the body of the frame. -/
theorem parse_relayMessage {read : String → Option Json}
    (hread : read (relayMessage requestId payload).toJson.text =
      some (relayMessage requestId payload).toJson) :
    Relay.parseFrame read (relayMessage requestId payload).toJson.text =
      some ⟨"ingest", relayView payload⟩ := by
  have hpayload := ofJson_relayCompatible payload
  rw [Relay.parseFrame, hread, Option.bind_some]
  simp [Relay.WireIngestFrame.ofJson, relayMessage, WireMessage.toJson, envelope, structFields,
    namedOnce, Relay.WireIngestFrame.names, fieldOf, asStr, hpayload]

/-- The relay takes the payload from the frame, and checks it. -/
theorem decode_relayMessage {read : String → Option Json}
    (hread : read (relayMessage requestId payload).toJson.text =
      some (relayMessage requestId payload).toJson)
    (h : Travels (relayMessage requestId payload)) :
    Relay.decodeIngestPayload (Relay.parseFrame read) (frameOf (relayMessage requestId payload)) = do
      Relay.validateHookPayload (relayView payload)
      return some (relayView payload) := by
  obtain ⟨hlength, hmax⟩ := lengthOf_frameOf h
  set message := relayMessage requestId payload with hmessage
  obtain ⟨a, b, c, d, hprefix⟩ : ∃ a b c d, lengthBytes message.body.length = [a, b, c, d] :=
    ⟨_, _, _, _, rfl⟩
  have hbe : Relay.beLength a b c d = message.body.length := by
    rw [take_frameOf, hprefix] at hlength
    simpa [Relay.beLength, lengthOf, Nat.mul_comm] using hlength
  have hbody : Utf8.decode message.body = some message.toJson.text :=
    Utf8.decode_encode message.toJson.text
  have hframe : frameOf message = a :: b :: c :: d :: message.body := by
    rw [frameOf, hprefix]
    rfl
  have hbounds : ¬ (Relay.maxFrameBytes < Relay.beLength a b c d ∨
      (a :: b :: c :: d :: message.body).length ≠ 4 + Relay.beLength a b c d) := by
    rw [hbe, not_or]
    refine ⟨?_, ?_⟩
    · simp only [maxFrameBytes] at hmax
      simp only [Relay.maxFrameBytes]
      omega
    · simp only [List.length_cons]
      omega
  rw [hframe]
  simp only [Relay.decodeIngestPayload]
  rw [if_neg hbounds, hbody, Option.bind_some, parse_relayMessage hread]
  simp

/-! ## What the relay accepts -/

/-- The attention, if there is one, is one the relay knows, and an event that is forwarded names a
session. -/
def Agrees (payload : IngestPayload) : Prop :=
  (∀ v ∈ payload.attention,
    RustText.asciiLowercase v ∈ ["none", "approval", "question", "permission", "error"]) ∧
  (Relay.isForwardableEvent (RustText.asciiLowercase payload.event) = true →
    payload.externalSessionId.isSome = true ∨ payload.sessionId.isSome = true)

theorem parseAttention_isSome_iff (payload : IngestPayload) (v : String) :
    (Relay.parseAttention { relayView payload with attention := some v }).isSome = true ↔
      RustText.asciiLowercase v ∈ ["none", "approval", "question", "permission", "error"] := by
  simp only [Relay.parseAttention, Option.bind_some]
  split <;> simp_all

theorem outOfBounds_eq_false {max : ℕ} {v : String} (h : 0 < size v ∧ size v ≤ max) :
    Relay.outOfBounds max v = false := by
  rw [Relay.outOfBounds, Bool.or_eq_false_iff]
  refine ⟨?_, decide_eq_false (Nat.not_lt.2 h.2)⟩
  exact Bool.not_eq_true' _ ▸ (not_isEmpty_iff v).2 h.1

theorem any_outOfBounds {max bound : ℕ} {value : Option String} (hle : bound ≤ max)
    (h : ∀ v, value = some v → 0 < size v ∧ size v ≤ bound) :
    value.any (Relay.outOfBounds max) = false := by
  cases value with
  | none => rfl
  | some v => exact outOfBounds_eq_false ⟨(h v rfl).1, (h v rfl).2.trans hle⟩

/-- Of what the relay checks, the hook has not checked the name of the attention. -/
theorem validate_relayView_iff (h : Checked payload) :
    Relay.validateHookPayload (relayView payload) = .ok () ↔ ∀ v ∈ payload.attention,
      RustText.asciiLowercase v ∈ ["none", "approval", "question", "permission", "error"] := by
  have hsource : Relay.outOfBounds Relay.maxSourceLen (relayView payload).source = false :=
    outOfBounds_eq_false h.source
  have hevent : Relay.outOfBounds Relay.maxEventLen (relayView payload).event = false :=
    outOfBounds_eq_false h.event
  have hsession := any_outOfBounds (show 64 ≤ Relay.maxSessionIdLen by decide) h.sessionId
  have hexternal := any_outOfBounds (show 256 ≤ Relay.maxSessionIdLen by decide) h.externalSessionId
  have htool := any_outOfBounds (show 128 ≤ maxToolNameLen by decide) h.toolName
  have hattention := any_outOfBounds (show 32 ≤ Relay.maxAttentionLen by decide) h.attention
  have hsummary : (payload.summary.any fun value => maxEventSummaryLen < size value) = false := by
    cases hsome : payload.summary with
    | none => rfl
    | some v => exact decide_eq_false (Nat.not_lt.2 (h.summary v hsome).2)
  have hlast : ((relayView payload).attention.isSome &&
      (Relay.parseAttention (relayView payload)).isNone) = false ↔ ∀ v ∈ payload.attention,
        RustText.asciiLowercase v ∈ ["none", "approval", "question", "permission", "error"] := by
    cases hsome : payload.attention with
    | none => simp [relayView, hsome]
    | some v =>
      have hview : relayView payload = { relayView payload with attention := some v } := by
        rw [← hsome]
        rfl
      have hv := parseAttention_isSome_iff payload v
      rw [hview, ← Option.not_isSome, Option.isSome_some, Bool.true_and, Bool.not_eq_false', hv]
      simp
  rw [← hlast]
  simp only [Relay.validateHookPayload, bind_eq_ok, Relay.checkField_eq_ok]
  constructor
  · rintro ⟨-, -, -, -, -, -, -, -, -, -, -, -, -, -, hknown⟩
    exact hknown
  · exact fun hknown => ⟨(), hsource, (), hevent, (), hsession, (), hexternal, (), hsummary, (),
      htool, (), hattention, hknown⟩

/-- The session of an event. -/
theorem any_session_iff (h : Checked payload) :
    ((relayView payload).externalSessionId.or (relayView payload).sessionId).any
      (fun value => !value.isEmpty) = true ↔
      payload.externalSessionId.isSome = true ∨ payload.sessionId.isSome = true := by
  cases hexternal : payload.externalSessionId with
  | some v =>
    have hpos := (not_isEmpty_iff v).2 (h.externalSessionId v hexternal).1
    simp [relayView, hexternal, hpos]
  | none =>
    cases hsession : payload.sessionId with
    | some v =>
      have hpos := (not_isEmpty_iff v).2 (h.sessionId v hsession).1
      simp [relayView, hexternal, hsession, hpos]
    | none => simp [relayView, hexternal, hsession]

/-- The disposition of a payload that passes the relay's check. -/
theorem classify_relayView (h : Checked payload)
    (hvalid : Relay.validateHookPayload (relayView payload) = .ok ()) :
    (∃ error, Relay.classifyHookPayload (relayView payload) = .reject error) ↔
      ¬ (Relay.isForwardableEvent (RustText.asciiLowercase payload.event) = true →
        payload.externalSessionId.isSome = true ∨ payload.sessionId.isSome = true) := by
  rw [← any_session_iff h]
  unfold Relay.classifyHookPayload
  rw [hvalid]
  dsimp only [relayView]
  split_ifs with hremove hforward hsession
  · have hnot : Relay.isForwardableEvent (RustText.asciiLowercase payload.event) = false := by
      simp only [List.mem_cons, List.not_mem_nil, or_false] at hremove
      rcases hremove with hevent | hevent | hevent | hevent <;> rw [hevent] <;> rfl
    simp [hnot]
  · simp [hsession]
  · simp [hforward, hsession]
  · simp [hforward]

/-- For every payload the hook accepts the frame is written, and it is decoded without error and
with all its fields exactly if the payload also meets the relay's own conditions. -/
theorem spool_agrees_iff (read : String → Option Json) (requestId : String)
    (payload : IngestPayload) (hid : validateRequestId requestId = .ok ())
    (hvalid : validateIngestPayload payload = .ok ())
    (hread : read (relayMessage requestId payload).toJson.text =
      some (relayMessage requestId payload).toJson) :
    ∃ frame, spoolRelayPayloadIn requestId payload = .ok frame ∧
      ((∃ event, Relay.decodeFrame (Relay.parseFrame read) frame = .ok event ∧
        ∀ relayed, event = some (.forwardable relayed) → relayed = relayView payload) ↔
      Agrees payload) := by
  have hchecked := checked_of_validate hvalid
  have htravels := relayMessage_travels hid hchecked
  have hdecode := decode_relayMessage hread htravels
  refine ⟨frameOf (relayMessage requestId payload), encode_of_travels htravels, ?_⟩
  rw [Agrees, ← validate_relayView_iff hchecked]
  unfold Relay.decodeFrame
  rw [hdecode]
  cases hview : Relay.validateHookPayload (relayView payload) with
  | error error =>
    refine iff_of_false ?_ fun h => (by cases h.1)
    rintro ⟨event, hevent, -⟩
    cases hevent
  | ok _ =>
    have hreject := classify_relayView hchecked hview
    rw [and_iff_right rfl, ← not_iff_not, ← hreject]
    simp only [Bind.bind, Except.bind, pure, Except.pure]
    cases hclass : Relay.classifyHookPayload (relayView payload) with
    | forward =>
      refine iff_of_false (fun h => h ⟨_, rfl, ?_⟩) (by simp)
      rintro relayed ⟨⟩
      rfl
    | ignore =>
      refine iff_of_false (fun h => h ⟨_, rfl, ?_⟩) (by simp)
      rintro relayed ⟨⟩
    | reject error => simp

/-! ## Payloads that agree and payloads that do not -/

/-- Reads the text of one message. -/
def readOnly (message : WireMessage) (text : String) : Option Json :=
  if text = message.toJson.text then some message.toJson else none

def emptyPayload (source event : String) : IngestPayload :=
  ⟨source, event, none, none, none, none, none, none, none, none, none, none, none, none, none,
    none, none⟩

def approvalPayload : IngestPayload :=
  { emptyPayload "codex" "attention" with
    externalSessionId := some "s"
    attention := some "Approval"
    summary := some "Run \"make\"?"
    occurredAtMs := some (-5) }

theorem spool_agrees_approval :
    ∃ frame, spoolRelayPayloadIn "r1" approvalPayload = .ok frame ∧
      ∃ event, Relay.decodeFrame (Relay.parseFrame (readOnly (relayMessage "r1" approvalPayload)))
        frame = .ok event ∧
        ∀ relayed, event = some (.forwardable relayed) → relayed = relayView approvalPayload := by
  obtain ⟨frame, hframe, hiff⟩ := spool_agrees_iff (readOnly (relayMessage "r1" approvalPayload))
    "r1" approvalPayload (by decide) (by decide) (if_pos rfl)
  refine ⟨frame, hframe, hiff.2 ⟨?_, fun _ => Or.inl rfl⟩⟩
  rintro v ⟨⟩
  decide

/-- An attention the relay does not know. -/
def urgentPayload : IngestPayload :=
  { emptyPayload "codex" "status" with
    externalSessionId := some "s"
    attention := some "urgent" }

/-- The start of a session that is not named. -/
def namelessPayload : IngestPayload :=
  emptyPayload "codex" "sessionStart"

theorem disagrees_on {field : String}
    (h : (payload, field) ∈ [(urgentPayload, "attention"), (namelessPayload, "externalSessionId")]) :
    validateIngestPayload payload = .ok () ∧
      ∃ frame, spoolRelayPayloadIn "r1" payload = .ok frame ∧
        Relay.decodeFrame (Relay.parseFrame (readOnly (relayMessage "r1" payload))) frame =
          .error ("hook payload field `" ++ field ++ "` is invalid") := by
  have hdecode : ∀ e ∈ [(urgentPayload, "attention"), (namelessPayload, "externalSessionId")],
      validateIngestPayload e.1 = .ok () ∧
      (spoolRelayPayloadIn "r1" e.1).toOption.map (Relay.decodeFrame
        (Relay.parseFrame (readOnly (relayMessage "r1" e.1)))) =
          some (.error ("hook payload field `" ++ e.2 ++ "` is invalid")) := by
    decide +kernel
  obtain ⟨hvalid, hmap⟩ := hdecode _ h
  obtain ⟨frame, hframe, herror⟩ := Option.map_eq_some_iff.1 hmap
  refine ⟨hvalid, frame, ?_, herror⟩
  cases hspool : spoolRelayPayloadIn "r1" payload with
  | error error =>
    rw [hspool] at hframe
    cases hframe
  | ok other =>
    rw [hspool] at hframe
    cases hframe
    rfl

/-- Both are accepted and spooled by the hook, and the relay fails to decode them. -/
theorem spool_disagrees :
    (validateIngestPayload urgentPayload = .ok () ∧
      ∃ frame, spoolRelayPayloadIn "r1" urgentPayload = .ok frame ∧
        Relay.decodeFrame (Relay.parseFrame (readOnly (relayMessage "r1" urgentPayload))) frame =
          .error ("hook payload field `" ++ "attention" ++ "` is invalid")) ∧
    validateIngestPayload namelessPayload = .ok () ∧
      ∃ frame, spoolRelayPayloadIn "r1" namelessPayload = .ok frame ∧
        Relay.decodeFrame (Relay.parseFrame (readOnly (relayMessage "r1" namelessPayload))) frame =
          .error ("hook payload field `" ++ "externalSessionId" ++ "` is invalid") :=
  ⟨disagrees_on List.mem_cons_self, disagrees_on (List.mem_cons_of_mem _ List.mem_cons_self)⟩

end Ipc

end LlmNotch
