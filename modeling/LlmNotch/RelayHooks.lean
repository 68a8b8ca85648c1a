import LlmNotch.Normalize
import LlmNotch.StateExcept
import LlmNotch.Utf8

/-!
# What the relay forwards

The relay of a remote machine reads hook frames from the spool directory and hook payloads from
its control messages, and writes session events to its output. A spool frame is decoded and
classified (`decodeFrame`); every payload is then normalized (`normalizeHookPayload`) and put
into a frame with a sequence number, which is checked again (`RelayFrame.validateAfter`).

The events that are forwarded, ignored or rejected are decided in these places separately.
`forward_event` : a payload that is classified to be forwarded is normalized, whatever its bytes
are, and its frame passes the check. `normalize_ok_iff` : of the other valid payloads only the
removals are.
-/

namespace LlmNotch

namespace Relay

open Json (size)

/-! ## Hook payloads -/

def maxSourceLen : ℕ := 32
def maxEventLen : ℕ := 32
def maxSessionIdLen : ℕ := 256
def maxAttentionLen : ℕ := 32

/-- `MAX_FRAME_BYTES` and `MAX_REMOTE_FRAME_BYTES`. -/
def maxFrameBytes : ℕ := 256 * 1024

/-- A hook payload as the relay reads it. -/
structure RelayHookPayload where
  source : String
  event : String
  sessionId : Option String
  externalSessionId : Option String
  summary : Option String
  occurredAtMs : Option Int64
  toolName : Option String
  attention : Option String
  deriving DecidableEq

/-- Why a hook is not forwarded. -/
inductive HookIngestError where
  | invalidField (field : String)
  | unsupportedEvent (event : String)
  | notForwardable
  deriving DecidableEq

def HookIngestError.message : HookIngestError → String
  | invalidField field => "hook payload field `" ++ field ++ "` is invalid"
  | unsupportedEvent event => "hook event `" ++ event ++ "` is not forwardable"
  | notForwardable => "hook payload could not be normalized"

def parseAttention (payload : RelayHookPayload) : Option AttentionKind :=
  payload.attention.bind fun value => match RustText.asciiLowercase value with
    | "none" => some .none
    | "approval" => some .approval
    | "question" => some .question
    | "permission" => some .permission
    | "error" => some .error
    | _ => none

/-- Empty or longer than `max` bytes. -/
def outOfBounds (max : ℕ) (value : String) : Bool :=
  value.isEmpty || max < size value

/-- A field that must not be bad. -/
def checkField (bad : Bool) (field : String) : Except HookIngestError Unit :=
  if bad then .error (.invalidField field) else .ok ()

/-- The bounds of the fields, in the order of the checks. -/
def validateHookPayload (payload : RelayHookPayload) : Except HookIngestError Unit := do
  checkField (outOfBounds maxSourceLen payload.source) "source"
  checkField (outOfBounds maxEventLen payload.event) "event"
  checkField (payload.sessionId.any (outOfBounds maxSessionIdLen)) "sessionId"
  checkField (payload.externalSessionId.any (outOfBounds maxSessionIdLen)) "externalSessionId"
  checkField (payload.summary.any fun value => maxEventSummaryLen < size value) "summary"
  checkField (payload.toolName.any (outOfBounds maxToolNameLen)) "toolName"
  checkField (payload.attention.any (outOfBounds maxAttentionLen)) "attention"
  checkField (payload.attention.isSome && (parseAttention payload).isNone) "attention"

/-- The event names that become a session event. -/
def isForwardableEvent (event : String) : Bool :=
  event ∈ ["sessionevent", "event", "tool", "attention", "status", "statuschange",
    "status_change", "lifecycle", "sessionstart", "session_start", "start", "sessionend",
    "session_end", "end", "complete", "fail"]

/-- The external id comes before the own one. -/
def resolveSessionId (payload : RelayHookPayload) : Except HookIngestError String :=
  match (payload.externalSessionId.or payload.sessionId).filter fun value => !value.isEmpty with
  | some id => .ok id
  | none => .error (.invalidField "externalSessionId")

/-- The kind of event a name stands for. -/
def parseEventKind (event : String) : Except HookIngestError SessionEventKind :=
  if event = "tool" then .ok .tool
  else if event = "attention" then .ok .attention
  else if event ∈ ["status", "statuschange", "status_change"] then .ok .status
  else if event ∈ ["lifecycle", "sessionevent", "event", "sessionstart", "session_start", "start",
    "sessionend", "session_end", "end", "complete", "fail"] then .ok .lifecycle
  else .error (.unsupportedEvent event)

/-- The name of a source on the wire. -/
def normalizeSource (value : String) : String :=
  match RustText.asciiLowercase value with
  | "cursor" => "cursor"
  | "claudecode" | "claude_code" | "claude-code" => "claudeCode"
  | "codex" => "codex"
  | "gemini" | "geminicli" | "gemini-cli" => "gemini"
  | "antigravitycli" | "antigravity-cli" | "antigravity" | "agy" => "antigravityCli"
  | "copilotcli" | "copilot-cli" | "copilot" => "copilotCli"
  | "qwen" | "qwen-cli" | "qwencode" => "qwen"
  | _ => "generic"

/-- The summary of an event without one. -/
def defaultSummary : SessionEventKind → String
  | .lifecycle => "Session lifecycle update"
  | .tool => "Tool activity"
  | .attention => "Attention required"
  | .status => "Status update"

/-! ## Relay frames -/

/-- What a frame carries. -/
inductive RelayPayload where
  | sessionEvent (sessionId source summary : String) (occurredAtMs : Int64)
    (kind : Option SessionEventKind) (toolName : Option String) (attention : Option AttentionKind)
  | checkpoint
  | heartbeat
  | error (code : String)
  deriving DecidableEq

/-- A payload under the sequence number of its relay. -/
structure RelayFrame where
  sequence : ℕ
  payload : RelayPayload
  deriving DecidableEq

/-- What is wrong with a frame. -/
inductive ProtocolError where
  | incompatibleVersion | frameTooLarge | invalidField | sequenceRegression
  deriving DecidableEq

def ProtocolError.message : ProtocolError → String
  | incompatibleVersion => "remote protocol version is incompatible"
  | frameTooLarge => "remote frame exceeds the size limit"
  | invalidField => "remote frame contains an invalid field"
  | sequenceRegression => "remote sequence did not advance"

def kindName : SessionEventKind → String
  | .lifecycle => "lifecycle"
  | .tool => "tool"
  | .attention => "attention"
  | .status => "status"

def attentionName : AttentionKind → String
  | .none => "none"
  | .approval => "approval"
  | .question => "question"
  | .permission => "permission"
  | .error => "error"

/-- A field that is left out if there is no value. -/
def optionalField (key : String) (value : Option String) : List (String × Json) :=
  (value.map fun text => (key, Json.str text)).toList

def RelayPayload.toJson : RelayPayload → Json
  | sessionEvent sessionId source summary occurredAtMs kind toolName attention =>
    .obj ([("type", .str "sessionEvent"), ("session_id", .str sessionId), ("source", .str source),
      ("summary", .str summary), ("occurred_at_ms", .num (Json.intText occurredAtMs.toInt))] ++
      optionalField "kind" (kind.map kindName) ++ optionalField "tool_name" toolName ++
      optionalField "attention" (attention.map attentionName))
  | checkpoint => .obj [("type", .str "checkpoint")]
  | heartbeat => .obj [("type", .str "heartbeat")]
  | error code => .obj [("type", .str "error"), ("code", .str code)]

def RelayFrame.toJson (frame : RelayFrame) : Json :=
  .obj [("sequence", .num frame.sequence.repr), ("payload", frame.payload.toJson)]

/-- The number of bytes of `serde_json::to_vec`. -/
def RelayFrame.encodedLen (frame : RelayFrame) : ℕ :=
  size frame.toJson.text

/-- The bounds of a session event. -/
def validatePayload : RelayPayload → Except ProtocolError Unit
  | .sessionEvent sessionId source summary _ _ toolName _ =>
    if outOfBounds maxSessionIdLen sessionId || outOfBounds 64 source ||
        maxEventSummaryLen < size summary || toolName.any (outOfBounds maxToolNameLen) then
      .error .invalidField
    else .ok ()
  | .error code => if outOfBounds 64 code then .error .invalidField else .ok ()
  | .checkpoint | .heartbeat => .ok ()

/-- `validate_after` with the last sequence number of the cursor. -/
def RelayFrame.validateAfter (frame : RelayFrame) (lastSequence : ℕ) :
    Except ProtocolError Unit := do
  if frame.sequence ≤ lastSequence then
    .error .sequenceRegression
  validatePayload frame.payload
  if maxFrameBytes < frame.encodedLen then
    .error .frameTooLarge

/-- `None` if the event is ignored. -/
def normalizeHookPayload (payload : RelayHookPayload) (now : Int64) :
    Except HookIngestError (Option RelayPayload) := do
  validateHookPayload payload
  let event := RustText.asciiLowercase payload.event
  if event ∈ ["sessionremove", "session_remove", "remove"] then
    return none
  if isForwardableEvent event = false then
    .error (.unsupportedEvent event)
  let sessionId ← resolveSessionId payload
  let kind ← parseEventKind event
  let relayPayload := .sessionEvent sessionId (normalizeSource payload.source)
    ((payload.summary.filter fun value => !value.isEmpty).getD (defaultSummary kind))
    (payload.occurredAtMs.getD now) (some kind)
    (payload.toolName.filter fun value => !value.isEmpty) (parseAttention payload)
  if maxFrameBytes < (RelayFrame.mk 1 relayPayload).encodedLen then
    .error (.invalidField "summary")
  return some relayPayload

/-! ## Spool frames -/

/-- What the relay does with a hook. -/
inductive HookDisposition where
  | forward
  | ignore
  | reject (error : String)
  deriving DecidableEq

/-- Removals and events that cannot be forwarded are ignored. -/
def classifyHookPayload (payload : RelayHookPayload) : HookDisposition :=
  match validateHookPayload payload with
  | .error error => .reject error.message
  | .ok _ =>
    let event := RustText.asciiLowercase payload.event
    if event ∈ ["sessionremove", "session_remove", "remove", "decisionwait"] then .ignore
    else if isForwardableEvent event then
      if (payload.externalSessionId.or payload.sessionId).any fun value => !value.isEmpty then
        .forward
      else .reject (HookIngestError.invalidField "externalSessionId").message
    else .ignore

/-- The frame a hook process leaves in the spool. -/
structure WireIngestFrame where
  frameType : String
  payload : RelayHookPayload

/-- `u32::from_be_bytes`. -/
def beLength (a b c d : UInt8) : ℕ :=
  ((a.toNat * 256 + b.toNat) * 256 + c.toNat) * 256 + d.toNat

/-- `parse` is `serde_json::from_str` at the frame type. -/
def decodeIngestPayload (parse : String → Option WireIngestFrame) (bytes : List UInt8) :
    Except HookIngestError (Option RelayHookPayload) :=
  match bytes with
  | a :: b :: c :: d :: body =>
    if maxFrameBytes < beLength a b c d ∨ bytes.length ≠ 4 + beLength a b c d then
      .error (.invalidField "frame")
    else match (Utf8.decode body).bind parse with
      | none => .error (.invalidField "frame")
      | some frame =>
        if frame.frameType ≠ "ingest" then .ok none
        else do
          validateHookPayload frame.payload
          return some frame.payload
  | _ => .error (.invalidField "frame")

/-- What a frame of the spool holds. -/
inductive SpoolEvent where
  | forwardable (payload : RelayHookPayload)
  | ignored
  deriving DecidableEq

/-- `decode_frame` of a file that was read. -/
def decodeFrame (parse : String → Option WireIngestFrame) (bytes : List UInt8) :
    Except String (Option SpoolEvent) :=
  match decodeIngestPayload parse bytes with
  | .error error => .error error.message
  | .ok none => .ok none
  | .ok (some payload) => match classifyHookPayload payload with
    | .forward => .ok (some (.forwardable payload))
    | .ignore => .ok (some .ignored)
    | .reject error => .error error

/-! ## Control messages -/

/-- What the host may tell a relay. -/
inductive RelayControl where
  | acknowledge (lastSequence : ℕ)
  | injectHook (payload : RelayHookPayload)
  | shutdown
  deriving DecidableEq

def RelayControl.validate : RelayControl → Except ProtocolError Unit
  | acknowledge _ | shutdown => .ok ()
  | injectHook payload => (validateHookPayload payload).mapError fun _ => .invalidField

/-! ## What is forwarded -/

theorem checkField_eq_ok {bad : Bool} {field : String} {u : Unit} :
    checkField bad field = .ok u ↔ bad = false := by
  cases bad <;> simp [checkField]

/-- The bounds of a payload that passes its check. -/
structure Bounded (payload : RelayHookPayload) : Prop where
  sessionId : ∀ v ∈ payload.sessionId, size v ≤ maxSessionIdLen
  externalSessionId : ∀ v ∈ payload.externalSessionId, size v ≤ maxSessionIdLen
  summary : ∀ v ∈ payload.summary, size v ≤ maxEventSummaryLen
  toolName : ∀ v ∈ payload.toolName, size v ≤ maxToolNameLen

variable {value toolName : Option String} {payload : RelayHookPayload}
  {source summary sessionId : String}

theorem size_le_of_any {max : ℕ} (h : value.any (outOfBounds max) = false) :
    ∀ v ∈ value, size v ≤ max := by
  rintro v rfl
  have hbounds : outOfBounds max v = false := h
  unfold outOfBounds at hbounds
  have hlong := (Bool.or_eq_false_iff.1 hbounds).2
  exact Nat.not_lt.1 (of_decide_eq_false hlong)

theorem bounded_of_validate (h : validateHookPayload payload = .ok ()) : Bounded payload := by
  simp only [validateHookPayload, bind_eq_ok, checkField_eq_ok] at h
  obtain ⟨-, -, -, -, -, hsession, -, hexternal, -, hsummary, -, htool, -⟩ := h
  refine ⟨size_le_of_any hsession, size_le_of_any hexternal, ?_, size_le_of_any htool⟩
  intro v hv
  rw [Option.mem_def.1 hv] at hsummary
  exact Nat.not_lt.1 (of_decide_eq_false hsummary)

theorem sum_optionalField_le (key : String) {max : ℕ} (h : ∀ v ∈ value, size v ≤ max) :
    ((optionalField key value).map Json.fieldSize).sum ≤ size (Json.quote key) + 6 * max + 4 := by
  cases value with
  | none => simp [optionalField]
  | some v =>
    have hsize : size v ≤ max := h v rfl
    have hfield := Json.fieldSize_str_le key v
    simp only [optionalField, Option.map_some, Option.toList_some, List.map_cons, List.map_nil,
      List.sum_cons, List.sum_nil]
    omega

theorem size_int64_le (n : Int64) : size (Json.intText n.toInt) ≤ 20 := by
  refine Json.size_intText_le (by decide) ?_
  have hlow := n.le_toInt
  have hhigh := n.toInt_lt
  omega

/-- The bounds of an event that passes the check of a frame. -/
structure BoundedEvent (sessionId source summary : String) (toolName : Option String) :
    Prop where
  sessionId : outOfBounds maxSessionIdLen sessionId = false
  source : outOfBounds 64 source = false
  summary : size summary ≤ maxEventSummaryLen
  toolName : toolName.any (outOfBounds maxToolNameLen) = false

theorem le_of_outOfBounds {max : ℕ} {value : String} (h : outOfBounds max value = false) :
    size value ≤ max :=
  size_le_of_any (show (some value).any (outOfBounds max) = false from h) value rfl

theorem size_kindName_le (kind : Option SessionEventKind) :
    ∀ v ∈ kind.map kindName, size v ≤ 16 := by
  intro v hv
  obtain ⟨k, -, rfl⟩ := Option.map_eq_some_iff.1 hv
  cases k <;> decide

theorem size_attentionName_le (attention : Option AttentionKind) :
    ∀ v ∈ attention.map attentionName, size v ≤ 16 := by
  intro v hv
  obtain ⟨k, -, rfl⟩ := Option.map_eq_some_iff.1 hv
  cases k <;> decide

section

variable (h : BoundedEvent sessionId source summary toolName) (occurredAtMs : Int64)
  (kind : Option SessionEventKind) (attention : Option AttentionKind)

include h

theorem BoundedEvent.size_le :
    size (RelayPayload.toJson (.sessionEvent sessionId source summary occurredAtMs kind toolName
      attention)).text ≤ 10000 := by
  have hsession := le_of_outOfBounds h.sessionId
  have hsource := le_of_outOfBounds h.source
  have hsummary := h.summary
  have hlimits : maxSessionIdLen = 256 ∧ maxEventSummaryLen = 512 ∧ maxToolNameLen = 128 :=
    ⟨rfl, rfl, rfl⟩
  have hkeys : size (Json.quote "type") = 6 ∧ size (Json.quote "session_id") = 12 ∧
      size (Json.quote "source") = 8 ∧ size (Json.quote "summary") = 9 ∧
      size (Json.quote "occurred_at_ms") = 16 ∧ size (Json.quote "kind") = 6 ∧
      size (Json.quote "tool_name") = 11 ∧ size (Json.quote "attention") = 11 ∧
      size "sessionEvent" = 12 := by
    decide
  have htime := size_int64_le occurredAtMs
  have htype := Json.fieldSize_str_le "type" "sessionEvent"
  have hid := Json.fieldSize_str_le "session_id" sessionId
  have hsrc := Json.fieldSize_str_le "source" source
  have hsum := Json.fieldSize_str_le "summary" summary
  have hkind := sum_optionalField_le "kind" (size_kindName_le kind)
  have htool := sum_optionalField_le "tool_name" (size_le_of_any h.toolName)
  have hattention := sum_optionalField_le "attention" (size_attentionName_le attention)
  refine (Json.size_obj_le _).trans ?_
  simp only [List.map_append, List.sum_append, List.map_cons, List.map_nil, List.sum_cons,
    List.sum_nil]
  have hat : Json.fieldSize ("occurred_at_ms", .num (Json.intText occurredAtMs.toInt)) =
      size (Json.quote "occurred_at_ms") + size (Json.intText occurredAtMs.toInt) + 2 := by
    rw [Json.fieldSize, Json.text]
  omega

/-- A frame with a bounded event is far below the size limit, also with a line break. -/
theorem BoundedEvent.line_le {sequence : ℕ} (hsequence : sequence < 2 ^ 64) :
    (RelayFrame.mk sequence (.sessionEvent sessionId source summary occurredAtMs kind toolName
      attention)).encodedLen + 1 ≤ maxFrameBytes := by
  have hevent := h.size_le occurredAtMs kind attention
  have hseq : size sequence.repr ≤ 20 := Json.size_repr_le (by decide) (by omega)
  have hkeys : size (Json.quote "sequence") = 10 ∧ size (Json.quote "payload") = 9 := by decide
  have hlimit : maxFrameBytes = 262144 := rfl
  refine (Nat.succ_le_succ (Json.size_obj_le _)).trans ?_
  simp only [List.map_cons, List.map_nil, List.sum_cons, List.sum_nil, Json.fieldSize, Json.text]
  omega

theorem BoundedEvent.encodedLen_le {sequence : ℕ} (hsequence : sequence < 2 ^ 64) :
    (RelayFrame.mk sequence (.sessionEvent sessionId source summary occurredAtMs kind toolName
      attention)).encodedLen ≤ maxFrameBytes :=
  Nat.le_of_succ_le (h.line_le occurredAtMs kind attention hsequence)

theorem BoundedEvent.validatePayload :
    validatePayload (.sessionEvent sessionId source summary occurredAtMs kind toolName attention) =
      .ok () := by
  rw [Relay.validatePayload, h.sessionId, h.source, h.toolName,
    decide_eq_false (Nat.not_lt.2 h.summary)]
  rfl

end

theorem validateAfter_ok_iff {frame : RelayFrame} {last : ℕ} :
    frame.validateAfter last = .ok () ↔ last < frame.sequence ∧
      validatePayload frame.payload = .ok () ∧ frame.encodedLen ≤ maxFrameBytes := by
  unfold RelayFrame.validateAfter
  by_cases hlast : frame.sequence ≤ last
  · rw [if_pos hlast]
    refine iff_of_false (fun h => ?_) fun h => absurd h.1 (Nat.not_lt.2 hlast)
    cases h
  · rw [if_neg hlast]
    cases validatePayload frame.payload with
    | error error =>
      refine iff_of_false (fun h => ?_) fun h => ?_
      · cases h
      · cases h.2.1
    | ok _ =>
      by_cases hsize : maxFrameBytes < frame.encodedLen
      · rw [if_pos hsize]
        refine iff_of_false (fun h => ?_) fun h => absurd h.2.2 (Nat.not_le.2 hsize)
        cases h
      · rw [if_neg hsize]
        exact iff_of_true rfl ⟨Nat.not_le.1 hlast, rfl, Nat.not_lt.1 hsize⟩

/-- The payload names an event that is forwarded, and a session. -/
def Forwards (payload : RelayHookPayload) : Prop :=
  isForwardableEvent (RustText.asciiLowercase payload.event) = true ∧
    ((payload.externalSessionId.or payload.sessionId).any fun value => !value.isEmpty) = true

instance (payload : RelayHookPayload) : Decidable (Forwards payload) :=
  inferInstanceAs (Decidable (_ ∧ _))

/-- The payload names the end of a session, which the host is not told of. -/
def Removes (payload : RelayHookPayload) : Prop :=
  RustText.asciiLowercase payload.event ∈ ["sessionremove", "session_remove", "remove"]

instance (payload : RelayHookPayload) : Decidable (Removes payload) :=
  inferInstanceAs (Decidable (_ ∈ _))

theorem not_removes (h : Forwards payload) : ¬ Removes payload := by
  have hapart : ∀ event ∈ ["sessionremove", "session_remove", "remove"],
      isForwardableEvent event = false := by
    decide
  intro hremoves
  cases (hapart _ hremoves).symm.trans h.1

theorem classify_forward :
    classifyHookPayload payload = .forward ↔
      validateHookPayload payload = .ok () ∧ Forwards payload := by
  have hapart : ∀ event ∈ ["sessionremove", "session_remove", "remove", "decisionwait"],
      isForwardableEvent event = false := by
    decide
  unfold classifyHookPayload Forwards
  cases validateHookPayload payload with
  | error e => simp
  | ok u =>
    dsimp only
    split_ifs with hignored hforward hid
    · simp [hapart _ hignored]
    · simp [hforward, hid]
    · simp [hid]
    · simp [hforward]

theorem parseEventKind_ok {event : String} (h : isForwardableEvent event = true) :
    ∃ kind, parseEventKind event = .ok kind := by
  have hkinds : ∀ event ∈ ["sessionevent", "event", "tool", "attention", "status",
      "statuschange", "status_change", "lifecycle", "sessionstart", "session_start", "start",
      "sessionend", "session_end", "end", "complete", "fail"],
      (parseEventKind event).isOk = true := by
    decide
  have hok := hkinds event (of_decide_eq_true h)
  cases hkind : parseEventKind event with
  | ok kind => exact ⟨kind, rfl⟩
  | error e =>
    rw [hkind] at hok
    cases hok

theorem size_defaultSummary_le (kind : SessionEventKind) :
    size (defaultSummary kind) ≤ maxEventSummaryLen := by
  cases kind <;> decide

theorem outOfBounds_normalizeSource (value : String) :
    outOfBounds 64 (normalizeSource value) = false := by
  unfold normalizeSource
  split <;> decide

/-- The session a payload names is one of its ids, and not empty. -/
theorem Forwards.resolveSessionId (h : Forwards payload) (hbounds : Bounded payload) :
    ∃ id, Relay.resolveSessionId payload = .ok id ∧ outOfBounds maxSessionIdLen id = false := by
  have hnamed : ((payload.externalSessionId.or payload.sessionId).filter fun value =>
      !value.isEmpty).isSome = true := by
    rw [Option.isSome_filter]
    exact h.2
  obtain ⟨id, hid⟩ := Option.isSome_iff_exists.1 hnamed
  obtain ⟨hfrom, hnonempty⟩ := Option.filter_eq_some_iff.1 hid
  refine ⟨id, by rw [Relay.resolveSessionId, hid], ?_⟩
  have hsize : size id ≤ maxSessionIdLen := by
    rcases Option.or_eq_some_iff.1 hfrom with hexternal | ⟨-, hown⟩
    · exact hbounds.externalSessionId id hexternal
    · exact hbounds.sessionId id hown
  unfold outOfBounds
  rw [decide_eq_false (Nat.not_lt.2 hsize), Bool.or_false]
  simpa using hnonempty

theorem size_summary_le (hbounds : Bounded payload) (kind : SessionEventKind) :
    size ((payload.summary.filter fun value => !value.isEmpty).getD (defaultSummary kind)) ≤
      maxEventSummaryLen := by
  cases hsummary : payload.summary.filter fun value => !value.isEmpty with
  | none => exact size_defaultSummary_le kind
  | some value => exact hbounds.summary value (Option.filter_eq_some_iff.1 hsummary).1

theorem toolName_bounds (hbounds : Bounded payload) :
    (payload.toolName.filter fun value => !value.isEmpty).any (outOfBounds maxToolNameLen) =
      false := by
  cases htool : payload.toolName.filter fun value => !value.isEmpty with
  | none => rfl
  | some value =>
    obtain ⟨hfrom, hnonempty⟩ := Option.filter_eq_some_iff.1 htool
    have hsize := hbounds.toolName value hfrom
    rw [Option.any_some, outOfBounds, decide_eq_false (Nat.not_lt.2 hsize), Bool.or_false]
    simpa using hnonempty

/-- The event of a valid payload that is forwarded passes the check of its frame. -/
theorem forward_normalizes (hvalid : validateHookPayload payload = .ok ()) (h : Forwards payload)
    (now : Int64) :
    ∃ sessionId source summary occurredAtMs kind toolName attention,
      normalizeHookPayload payload now = .ok (some (.sessionEvent sessionId source summary
        occurredAtMs kind toolName attention)) ∧
      BoundedEvent sessionId source summary toolName := by
  have hbounds := bounded_of_validate hvalid
  obtain ⟨kind, hkind⟩ := parseEventKind_ok h.1
  obtain ⟨id, hid, hidBounds⟩ := h.resolveSessionId hbounds
  have hevent : BoundedEvent id (normalizeSource payload.source)
      ((payload.summary.filter fun value => !value.isEmpty).getD (defaultSummary kind))
      (payload.toolName.filter fun value => !value.isEmpty) :=
    ⟨hidBounds, outOfBounds_normalizeSource _, size_summary_le hbounds kind,
      toolName_bounds hbounds⟩
  refine ⟨_, _, _, payload.occurredAtMs.getD now, some kind, _, parseAttention payload, ?_, hevent⟩
  have hlen := hevent.encodedLen_le (payload.occurredAtMs.getD now) (some kind)
    (parseAttention payload) (show 1 < 2 ^ 64 by decide)
  have hkept : ¬ RustText.asciiLowercase payload.event ∈
      ["sessionremove", "session_remove", "remove"] :=
    not_removes h
  have hforwardable : ¬ isForwardableEvent (RustText.asciiLowercase payload.event) = false := by
    rw [h.1]
    decide
  unfold normalizeHookPayload
  rw [hvalid]
  refine (if_neg hkept).trans ((if_neg hforwardable).trans ?_)
  rw [hid, hkind]
  exact if_neg (Nat.not_lt.2 hlen)

def RelayPayload.isSessionEvent : RelayPayload → Bool
  | sessionEvent .. => true
  | _ => false

/-- The event of a valid payload that is forwarded passes every check it meets. -/
theorem forward_event (hvalid : validateHookPayload payload = .ok ()) (h : Forwards payload)
    (now : Int64) :
    ∃ event, normalizeHookPayload payload now = .ok (some event) ∧
      event.isSessionEvent = true ∧
      ∀ sequence last, last < sequence → sequence < 2 ^ 64 →
        (RelayFrame.mk sequence event).validateAfter last = .ok () := by
  obtain ⟨_, _, _, occurredAtMs, kind, _, attention, hnormal, hevent⟩ :=
    forward_normalizes hvalid h now
  refine ⟨_, hnormal, rfl, fun sequence last hlast hsequence => ?_⟩
  exact validateAfter_ok_iff.2 ⟨hlast, hevent.validatePayload occurredAtMs kind attention,
    hevent.encodedLen_le occurredAtMs kind attention hsequence⟩

theorem remove_normalizes (hvalid : validateHookPayload payload = .ok ()) (h : Removes payload)
    (now : Int64) : normalizeHookPayload payload now = .ok none := by
  unfold normalizeHookPayload
  rw [hvalid]
  exact if_pos h

end Relay

end LlmNotch
