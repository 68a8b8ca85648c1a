import LlmNotch.HookPlan
import LlmNotch.JsonRead
import LlmNotch.RelayHooks

/-!
# Vendor hooks

The hooks of an agent call the helper with the name of an event and a JSON document
(`runVendorHook`). The helper reports the event in words of its own, for the session that the
document names; an event of Claude Code that can be answered is planned as a decision, by an
adapter with a table of its own.

`momentOf` is what an event says of its session. `report_carries` : every report is valid and is in
the words of this moment, whichever table it was made with.
-/

namespace LlmNotch

namespace Json

/-- `Number::as_u64`. -/
def asUInt64 (v : Json) : Option UInt64 :=
  v.asInt.bind fun n => if 0 ≤ n ∧ n < 2 ^ 64 then some (UInt64.ofNat n.toNat) else none

end Json

namespace Ipc

open Json

/-! ## The command line -/

inductive HookMode where
  | normalizedVendor
  | vendor (source vendorEvent : String)
  | emit (failOnError : Bool)
  deriving DecidableEq

/-- The flags that were given, each with its last value. -/
structure HookFlags where
  source : Option String := none
  vendorEvent : Option String := none

def parseHookFlags : List String → HookFlags → Except IpcError HookFlags
  | [], flags => .ok flags
  | [flag], flags =>
    if flag = "--source" ∨ flag = "--vendor-event" then .error (.frameRejected "missing flag value")
    else if flag = "--hook-mode" then .ok flags
    else .error (.frameRejected ("unknown hook flag `" ++ flag ++ "`"))
  | flag :: value :: rest, flags =>
    if flag = "--source" then parseHookFlags rest { flags with source := some value }
    else if flag = "--vendor-event" then
      parseHookFlags rest { flags with vendorEvent := some value }
    else if flag = "--hook-mode" then parseHookFlags (value :: rest) flags
    else .error (.frameRejected ("unknown hook flag `" ++ flag ++ "`"))

def normalizeVendorHookSource (source : String) : Option String :=
  match RustText.asciiLowercase source with
  | "cursor" => some "cursor"
  | "claudecode" | "claude_code" | "claude-code" => some "claudeCode"
  | "codex" => some "codex"
  | "gemini" | "geminicli" | "gemini-cli" => some "gemini"
  | "qwen" | "qwen-cli" | "qwencode" => some "qwen"
  | "antigravitycli" | "antigravity-cli" | "antigravity" | "agy" => some "antigravityCli"
  | "copilotcli" | "copilot-cli" | "copilot" => some "copilotCli"
  | "generic" => some "generic"
  | _ => none

def parseHookMode (args : List String) : Except IpcError HookMode := do
  let flags ← parseHookFlags args {}
  match flags.source with
  | none => .error (.frameRejected "--source required")
  | some raw => match normalizeVendorHookSource raw with
    | none => .error (.frameRejected "unsupported hook source")
    | some source => match flags.vendorEvent with
      | none => .error (.frameRejected "--vendor-event required")
      | some vendorEvent => .ok (.vendor source vendorEvent)

/-! ## The document -/

/-- The first of these fields that is a string. -/
def firstStr (value : Json) (keys : List String) : Option String :=
  keys.findSome? value.getStr

def trimText (text : String) : String :=
  String.ofList (RustText.trim text.toList)

def sessionKeys : List String :=
  ["session_id", "sessionId", "thread_id", "threadId", "conversation_id", "conversationId"]

def occurredKeys : List String :=
  ["occurred_at_ms", "occurredAtMs", "timestamp_ms", "timestampMs", "timestamp"]

def readTerminalFieldFromVendor (value : Json) (keys : List String) : Option String :=
  ((firstStr value keys).map trimText).filter fun text => !text.isEmpty

def readWindowHandleFromVendor (value : Json) : Option UInt64 :=
  ((["window_handle", "windowHandle"].findSome? value.get).bind fun handle =>
    match handle with
    | .num digits => (num digits).asUInt64
    | .str text => (RustText.parseU64 (RustText.trim text.toList)).map UInt64.ofNat
    | _ => none).filter fun handle => 0 < handle

/-- The first item of an array, if it is a string. -/
def firstRoot (value : Json) (key : String) : Option String :=
  ((value.getArray key).bind List.head?).bind asStr

/-- What an event is reported as. -/
structure VendorMapping where
  event : String
  status : Option String
  attention : Option String
  summary : Option String

def mapGeminiNotification (value : Json) : VendorMapping where
  event := "attention"
  status := none
  attention := some (match value.getStr "notification_type" with
    | some "ToolPermission" => "approval"
    | _ => "question")
  summary := some (match value.getStr "message" with
    | some message => "Notification: " ++ message
    | none => "Notification observed")

/-- The table of the helper, for a normalized event name. -/
def mapVendorEvent (source name : String) (value : Json) : VendorMapping :=
  if name = "sessionstart" then
    ⟨"sessionStart", some "running", none, some "Session started"⟩
  else if name = "sessionend" then
    ⟨"sessionEnd", some "completed", none, some "Session ended"⟩
  else if name ∈ ["stop", "agentstop"] then
    ⟨"update", some "waiting", none, some "Agent turn completed"⟩
  else if source = "gemini" ∧ name = "notification" then mapGeminiNotification value
  else if name ∈ ["permissionrequest", "permission", "notification"] then
    ⟨"attention", none, some "permission", some "Permission request observed"⟩
  else if name ∈ ["pretooluse", "posttooluse", "beforetool", "aftertool"] then
    ⟨"tool", none, none, some "Tool activity observed"⟩
  else if name = "posttoolusefailure" then ⟨"tool", none, none, some "Tool activity failed"⟩
  else if name ∈ ["userpromptsubmit", "userpromptsubmitted"] then
    ⟨"update", some "running", none, some "Agent turn started"⟩
  else ⟨"lifecycle", none, none, some "Agent lifecycle event observed"⟩

def vendorHookPayload (fileName : String → Option String) (source vendorEvent : String)
    (value : Json) : Except IpcError IngestPayload :=
  match value.asObject with
  | none => .error (.frameRejected "vendor payload must be an object")
  | some _ =>
    match firstStr value sessionKeys with
    | none => .error (.frameRejected "vendor session identifier missing")
    | some externalSessionId =>
      let mapping := mapVendorEvent source (normalizeVendorEventName vendorEvent) value
      .ok
        { source := source
          event := mapping.event
          sessionId := none
          externalSessionId := some externalSessionId
          label := if mapping.event = "sessionStart" then some (source ++ " session") else none
          workspaceLabel := (((value.getStr "cwd").or (firstRoot value "workspace_roots")).or
            (firstRoot value "workspacePaths")).bind fileName
          status := mapping.status
          attention := mapping.attention
          summary := mapping.summary
          toolName := (firstStr value ["tool_name", "toolName"]).or
            ((value.get "toolCall").bind fun call => call.getStr "name")
          pid := none
          processStartedAtMs := none
          occurredAtMs := occurredKeys.findSome? fun key => (value.get key).bind asInt64
          terminalSessionId :=
            readTerminalFieldFromVendor value ["terminal_session_id", "terminalSessionId"]
          tabId := readTerminalFieldFromVendor value ["tab_id", "tabId"]
          paneId := readTerminalFieldFromVendor value ["pane_id", "paneId"]
          windowHandle := readWindowHandleFromVendor value }

/-! ## The environment of the helper -/

/-- The variables, whether a handle is one of a window, and the window that is found by way of the
processes. -/
structure CollectorEnv where
  var : String → Option String
  isWindow : UInt64 → Bool
  discovered : Option UInt64

def CollectorEnv.readString (env : CollectorEnv) (name : String) : Option String :=
  ((env.var name).map trimText).filter fun text => !text.isEmpty

def CollectorEnv.validateWindowHandle (env : CollectorEnv) (handle : UInt64) : Bool :=
  handle ≠ 0 && handle.toNat < 2 ^ 63 && env.isWindow handle

def CollectorEnv.parseWindowHandle (env : CollectorEnv) (value : Option String) : Option UInt64 :=
  ((value.bind fun text => RustText.parseU64 (RustText.trim text.toList)).map UInt64.ofNat).filter
    env.validateWindowHandle

def enrichIngestWithCollectorEnv (env : CollectorEnv) (payload : IngestPayload) : IngestPayload :=
  { payload with
    terminalSessionId := payload.terminalSessionId.or
      ((env.readString "LLM_NOTCH_TERMINAL_SESSION_ID").or (env.readString "WT_SESSION"))
    tabId := payload.tabId.or (env.readString "LLM_NOTCH_TAB_ID")
    paneId := payload.paneId.or (env.readString "LLM_NOTCH_PANE_ID")
    windowHandle := payload.windowHandle.or
      ((env.parseWindowHandle (env.var "LLM_NOTCH_WINDOW_HANDLE")).or env.discovered) }

def prepareHookPayload (env : CollectorEnv) (payload : IngestPayload) :
    Except IpcError IngestPayload := do
  validateIngestPayload (enrichIngestWithCollectorEnv env payload)
  return enrichIngestWithCollectorEnv env payload

/-! ## The report -/

/-- What the helper sends to the host : an event that waits for an answer, or an event. Only the
latter is spooled. -/
inductive VendorReport where
  | decision (plan : InteractiveDecisionPlan)
  | observed (payload : IngestPayload)

def VendorReport.payload : VendorReport → IngestPayload
  | decision plan => plan.ingest
  | observed payload => payload

def runVendorHook (fileName : String → Option String) (nonce : Uuid) (now : Int64)
    (env : CollectorEnv) (source vendorEvent : String) (value : Json) :
    Except IpcError VendorReport := do
  match ← planInteractiveDecision fileName nonce now source vendorEvent value with
  | some plan => return .decision plan
  | none =>
    let payload ← vendorHookPayload fileName source vendorEvent value
    let payload ← prepareHookPayload env payload
    return .observed payload

/-! ## What an event says -/

/-- What an event says of its session. -/
inductive Moment where
  | started | ended | turnStarted | turnCompleted | asks (attention : AttentionKind) | usesTool
  | other

/-- What the event of an agent says. -/
def momentOf (source vendorEvent : String) (value : Json) : Moment :=
  let name := normalizeVendorEventName vendorEvent
  if name = "sessionstart" then .started
  else if name = "sessionend" then .ended
  else if name ∈ ["stop", "agentstop"] then .turnCompleted
  else if source = "gemini" ∧ name = "notification" then
    .asks (if value.getStr "notification_type" = some "ToolPermission" then .approval
      else .question)
  else if name ∈ ["permissionrequest", "permission", "notification"] then .asks .permission
  else if source = "claudeCode" ∧ name = "pretooluse" ∧ toolNameOf value = some "ExitPlanMode" then
    .asks .approval
  else if name ∈ ["pretooluse", "posttooluse", "beforetool", "aftertool", "posttoolusefailure"] then
    .usesTool
  else if name ∈ ["userpromptsubmit", "userpromptsubmitted"] then .turnStarted
  else .other

namespace Moment

def event : Moment → String
  | started => "sessionStart"
  | ended => "sessionEnd"
  | turnStarted | turnCompleted => "update"
  | asks _ => "attention"
  | usesTool => "tool"
  | other => "lifecycle"

def status : Moment → Option String
  | started | turnStarted => some "running"
  | ended => some "completed"
  | turnCompleted => some "waiting"
  | asks _ | usesTool | other => none

def attention : Moment → Option String
  | asks kind => some (Relay.attentionName kind)
  | _ => none

/-- A turn is not forwarded by a relay. -/
def isTurn : Moment → Bool
  | turnStarted | turnCompleted => true
  | _ => false

end Moment

/-- The payload reports a moment of a session, and no process. -/
structure Carries (source externalSessionId : String) (moment : Moment) (payload : IngestPayload) :
    Prop where
  source : payload.source = source
  event : payload.event = moment.event
  status : payload.status = moment.status
  attention : payload.attention = moment.attention
  sessionId : payload.sessionId = none
  externalSessionId : payload.externalSessionId = some externalSessionId
  pid : payload.pid = none
  summary : payload.summary.isSome = true

variable {fileName : String → Option String} {nonce : Uuid} {now : Int64} {env : CollectorEnv}
  {source vendorEvent externalSessionId : String} {value : Json} {moment : Moment}
  {payload : IngestPayload} {report : VendorReport}

theorem Carries.enrich (h : Carries source externalSessionId moment payload) :
    Carries source externalSessionId moment (enrichIngestWithCollectorEnv env payload) :=
  ⟨h.source, h.event, h.status, h.attention, h.sessionId, h.externalSessionId, h.pid, h.summary⟩

/-- The mapping is in the words of the moment. -/
structure VendorMapping.Fits (mapping : VendorMapping) (moment : Moment) : Prop where
  event : mapping.event = moment.event
  status : mapping.status = moment.status
  attention : mapping.attention = moment.attention
  summary : mapping.summary.isSome = true

theorem mapGeminiNotification_fits (value : Json) :
    (mapGeminiNotification value).Fits (.asks
      (if value.getStr "notification_type" = some "ToolPermission" then .approval
      else .question)) := by
  refine ⟨rfl, rfl, ?_, rfl⟩
  unfold mapGeminiNotification
  split_ifs with htype
  · rw [htype]
    rfl
  · dsimp only
    split
    · next hpermission => exact (htype hpermission).elim
    · rfl

/-- The table of the helper, unless Claude Code asks for the approval of a plan. -/
theorem mapVendorEvent_fits (hplan : ¬ (source = "claudeCode" ∧
      normalizeVendorEventName vendorEvent = "pretooluse" ∧
      toolNameOf value = some "ExitPlanMode")) :
    (mapVendorEvent source (normalizeVendorEventName vendorEvent) value).Fits
      (momentOf source vendorEvent value) := by
  unfold mapVendorEvent momentOf
  generalize normalizeVendorEventName vendorEvent = name at hplan ⊢
  have htools : name ∈ ["pretooluse", "posttooluse", "beforetool", "aftertool",
      "posttoolusefailure"] ↔ name ∈ ["pretooluse", "posttooluse", "beforetool", "aftertool"] ∨
        name = "posttoolusefailure" := by
    simp only [List.mem_cons, List.not_mem_nil, or_false, or_assoc]
  dsimp only
  rw [if_neg hplan]
  simp only [htools, ite_or]
  by_cases hgemini : source = "gemini" ∧ name = "notification"
  · obtain ⟨rfl, rfl⟩ := hgemini
    exact mapGeminiNotification_fits value
  · rw [if_neg hgemini, if_neg hgemini]
    split_ifs
    all_goals exact ⟨rfl, rfl, rfl, rfl⟩

/-- The events of Claude Code that can be answered. -/
theorem eventShape_decision {name : String} {toolName : Option String} {shape : EventShape}
    (h : eventShape name toolName = some shape) (hkind : shape.decisionKind.isSome = true) :
    shape.protocolEvent = "attention" ∧ shape.status = none ∧
      (name = "permissionrequest" ∧ shape.attention = some "permission" ∨
        name = "pretooluse" ∧ toolName = some "ExitPlanMode" ∧
          shape.attention = some "approval") := by
  unfold eventShape at h
  split_ifs at h with hstart hend hstop hrequest happroval htool hpost hfailed
  · cases h
    cases hkind
  · cases h
    cases hkind
  · cases h
    cases hkind
  · cases h
    exact ⟨rfl, rfl, Or.inl ⟨hrequest, rfl⟩⟩
  · cases h
    exact ⟨rfl, rfl, Or.inr ⟨happroval.1, happroval.2, rfl⟩⟩
  all_goals
    cases h
    cases hkind

/-- Where the event of a plan comes from. -/
theorem plan_ingest {plan : InteractiveDecisionPlan}
    (h : planInteractiveDecision fileName nonce now source vendorEvent value = .ok (some plan)) :
    ∃ normalized, source = "claudeCode" ∧
      normalizeEvent fileName vendorEvent value = .ok normalized ∧
      normalized.decisionKind.isSome = true ∧ plan.ingest = ingestOf source normalized ∧
      validateIngestPayload plan.ingest = .ok () := by
  unfold planInteractiveDecision at h
  split at h
  · cases h
  next hsource =>
    split at h
    · cases h
    next normalized hnormalized =>
      split at h
      · next kind hook hkind hhook =>
        obtain ⟨u, hvalid, h⟩ := bind_eq_ok.1 h
        obtain rfl := Option.some.inj (Except.ok.inj h)
        exact ⟨normalized, not_not.1 hsource, hnormalized, by rw [hkind]; rfl, rfl, hvalid⟩
      · cases h

theorem normalizeEvent_shape {normalized : NormalizedClaudeEvent}
    (h : normalizeEvent fileName vendorEvent value = .ok normalized) :
    ∃ shape, eventShape (normalizeVendorEventName vendorEvent) (toolNameOf value) = some shape ∧
      externalSessionIdOf value = some normalized.externalSessionId ∧
      normalized.protocolEvent = shape.protocolEvent ∧ normalized.status = shape.status ∧
      normalized.attention = shape.attention ∧ normalized.decisionKind = shape.decisionKind ∧
      normalized.respondableHook = shape.respondableHook := by
  unfold normalizeEvent at h
  split at h
  · cases h
  split at h
  · cases h
  next externalSessionId hsession =>
    dsimp only at h
    split at h
    · cases h
    next shape hshape =>
      cases h
      exact ⟨shape, hshape, hsession, rfl, rfl, rfl, rfl, rfl⟩

/-- The adapter of Claude Code looks for the session under the first of the names. -/
theorem firstStr_sessionKeys (h : externalSessionIdOf value = some externalSessionId) :
    firstStr value sessionKeys = some externalSessionId := by
  unfold externalSessionIdOf at h
  unfold firstStr sessionKeys
  rw [List.findSome?_cons]
  cases hsnake : value.getStr "session_id" with
  | some id =>
    rw [hsnake] at h
    exact h
  | none =>
    rw [hsnake, Option.none_or] at h
    rw [List.findSome?_cons, h]

theorem momentOf_decision {shape : EventShape} (hsource : source = "claudeCode")
    (hshape : eventShape (normalizeVendorEventName vendorEvent) (toolNameOf value) = some shape)
    (hkind : shape.decisionKind.isSome = true) :
    shape.protocolEvent = (momentOf source vendorEvent value).event ∧
      shape.status = (momentOf source vendorEvent value).status ∧
      shape.attention = (momentOf source vendorEvent value).attention := by
  obtain ⟨hevent, hstatus, hasks⟩ := eventShape_decision hshape hkind
  subst hsource
  have hname : ∃ kind, momentOf "claudeCode" vendorEvent value = .asks kind ∧
      shape.attention = some (Relay.attentionName kind) := by
    rcases hasks with ⟨hname, hattention⟩ | ⟨hname, htool, hattention⟩
    · refine ⟨.permission, ?_, hattention⟩
      simp [momentOf, hname]
    · refine ⟨.approval, ?_, hattention⟩
      simp [momentOf, hname, htool]
  obtain ⟨kind, hmoment, hattention⟩ := hname
  rw [hmoment]
  exact ⟨hevent, hstatus, hattention⟩

theorem carries_decision {plan : InteractiveDecisionPlan}
    (h : planInteractiveDecision fileName nonce now source vendorEvent value = .ok (some plan)) :
    ∃ externalSessionId, firstStr value sessionKeys = some externalSessionId ∧
      Carries source externalSessionId (momentOf source vendorEvent value) plan.ingest ∧
      validateIngestPayload plan.ingest = .ok () := by
  obtain ⟨normalized, hsource, hnormalized, hkind, hingest, hvalid⟩ := plan_ingest h
  obtain ⟨shape, hshape, hsession, hevent, hstatus, hattention, hdecision, -⟩ :=
    normalizeEvent_shape hnormalized
  rw [hdecision] at hkind
  obtain ⟨hevent', hstatus', hattention'⟩ := momentOf_decision hsource hshape hkind
  refine ⟨normalized.externalSessionId, firstStr_sessionKeys hsession, ?_, hvalid⟩
  rw [hingest]
  exact ⟨rfl, hevent.trans hevent', hstatus.trans hstatus', hattention.trans hattention', rfl, rfl,
    rfl, rfl⟩

/-- An event that is not planned does not ask for the approval of a plan. -/
theorem not_approval_of_plan
    (h : planInteractiveDecision fileName nonce now source vendorEvent value = .ok none) :
    ¬ (source = "claudeCode" ∧ normalizeVendorEventName vendorEvent = "pretooluse" ∧
      toolNameOf value = some "ExitPlanMode") := by
  rintro ⟨rfl, hname, htool⟩
  unfold planInteractiveDecision at h
  rw [if_neg (not_not.2 rfl)] at h
  split at h
  · cases h
  next normalized hnormalized =>
    obtain ⟨shape, hshape, -, -, -, -, hkind, hhook⟩ := normalizeEvent_shape hnormalized
    rw [hname, htool] at hshape
    cases hshape
    rw [hkind, hhook] at h
    obtain ⟨u, -, h⟩ := bind_eq_ok.1 h
    cases h

theorem carries_observed (hplan : ¬ (source = "claudeCode" ∧
      normalizeVendorEventName vendorEvent = "pretooluse" ∧
      toolNameOf value = some "ExitPlanMode"))
    (h : vendorHookPayload fileName source vendorEvent value = .ok payload) :
    ∃ externalSessionId, firstStr value sessionKeys = some externalSessionId ∧
      Carries source externalSessionId (momentOf source vendorEvent value) payload := by
  have hfits := mapVendorEvent_fits hplan
  unfold vendorHookPayload at h
  split at h
  · cases h
  split at h
  · cases h
  next externalSessionId hsession =>
    cases h
    exact ⟨externalSessionId, hsession, rfl, hfits.event, hfits.status, hfits.attention, rfl, rfl,
      rfl, hfits.summary⟩

/-- Every report is valid, and in the words of its moment. -/
theorem report_carries
    (h : runVendorHook fileName nonce now env source vendorEvent value = .ok report) :
    ∃ externalSessionId, firstStr value sessionKeys = some externalSessionId ∧
      Carries source externalSessionId (momentOf source vendorEvent value) report.payload ∧
      validateIngestPayload report.payload = .ok () := by
  obtain ⟨result, hresult, h⟩ := bind_eq_ok.1 h
  cases result with
  | some plan =>
    cases h
    exact carries_decision hresult
  | none =>
    obtain ⟨payload, hpayload, h⟩ := bind_eq_ok.1 h
    obtain ⟨prepared, hprepared, h⟩ := bind_eq_ok.1 h
    cases h
    obtain ⟨u, hvalid, hprepared⟩ := bind_eq_ok.1 hprepared
    cases hprepared
    obtain ⟨externalSessionId, hsession, hcarries⟩ :=
      carries_observed (not_approval_of_plan hresult) hpayload
    exact ⟨externalSessionId, hsession, hcarries.enrich, hvalid⟩

end Ipc

end LlmNotch
