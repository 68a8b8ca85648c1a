import LlmNotch.Dict
import Mathlib.Algebra.Group.Int.Defs
import Mathlib.Algebra.Group.Nat.Defs

/-!
# Protocol records

The record and enumeration types of `notch-protocol` that the modelled crates exchange,
with their bounds. Text is bounded in UTF-8 bytes, so the length of a string is
`utf8ByteSize`. A binary64 value is kept as its bit pattern (`F64`); the only operation
the code performs on one is a comparison.
-/

namespace LlmNotch

/-! ## Bounds -/

def protocolVersion : ℕ := 1
def maxSessionIdLen : ℕ := 64
def maxExternalSessionIdLen : ℕ := 256
def maxSessionLabelLen : ℕ := 256
def maxWorkspaceLabelLen : ℕ := 256
def maxEventSummaryLen : ℕ := 512
def maxToolNameLen : ℕ := 128
def maxDecisionSummaryLen : ℕ := 512
def maxSnapshotSessions : ℕ := 128

/-- Maximum hook wait before the fail-open neutral response, in milliseconds. -/
def decisionFailOpenTimeoutMs : ℕ := 120000

/-- Neutral standard output of a fail-open vendor hook : the empty JSON object. -/
def decisionHookNeutralOutput : String := "\x7b\x7d"

/-- A 64-bit two's complement value of an integer. -/
def wrapI64 (n : ℤ) : ℤ := Int.bmod n (2 ^ 64)

/-! ## Enumerations -/

/-- The agent runtime that produced a session. -/
inductive AgentSource where
  | cursor | claudeCode | codex | gemini | antigravityCli | copilotCli | qwen | generic | unknown
  deriving DecidableEq

/-- The `Debug` text of a source. -/
def AgentSource.debug : AgentSource → String
  | cursor => "Cursor"
  | claudeCode => "ClaudeCode"
  | codex => "Codex"
  | gemini => "Gemini"
  | antigravityCli => "AntigravityCli"
  | copilotCli => "CopilotCli"
  | qwen => "Qwen"
  | generic => "Generic"
  | unknown => "Unknown"

/-- The status of a session. -/
inductive SessionStatus where
  | starting | running | waiting | paused | completed | failed | stale
  deriving DecidableEq

/-- What a session wants of the user. -/
inductive AttentionKind where
  | none | approval | question | permission | error
  deriving DecidableEq

/-- How a process was attributed to a session. -/
inductive AttributionQuality where
  | exact | shared | heuristic | unknown
  deriving DecidableEq

inductive MetricAvailability where
  | available | warmingUp | unavailable
  deriving DecidableEq

inductive IoQuality where
  | disk | allIo | partially | unavailable
  deriving DecidableEq

/-- The kinds of events. -/
inductive SessionEventKind where
  | lifecycle | tool | attention | status
  deriving DecidableEq

inductive EventLevel where
  | debug | info | warning | error
  deriving DecidableEq

/-- Which attention an integration reports. -/
inductive AttentionCapability where
  | full | partially | none
  deriving DecidableEq

/-- How closely a session can be opened. -/
inductive ContextOpenTier where
  | none | appActivate | windowFocus | exactPane
  deriving DecidableEq

/-! ## Records -/

/-- A binary64 value by its bits. -/
structure F64 where
  bits : UInt64
  deriving DecidableEq

/-- A process id with the start time that tells reuses apart. -/
structure ProcessIdentity where
  pid : ℕ
  startedAtMs : ℤ
  deriving DecidableEq

/-- Where a terminal was seen to be. -/
structure VerifiedTerminalContext where
  terminalSessionId : Option String
  tabId : Option String
  paneId : Option String
  windowHandle : Option ℕ
  deriving DecidableEq

/-- How far a sample can be trusted. -/
structure MetricQuality where
  attribution : AttributionQuality
  cpu : MetricAvailability
  ioQuality : IoQuality
  reason : Option String
  deriving DecidableEq

/-- The metrics of one session. -/
structure MetricSample where
  atMs : ℤ
  cpuCorePercent : F64
  cpuHostPercent : F64
  rssBytes : ℕ
  runtimeMs : ℕ
  processCount : ℕ
  readBytesPerSec : ℕ
  writeBytesPerSec : ℕ
  quality : MetricQuality
  deriving DecidableEq

/-- The metrics of the host. -/
structure HostMetricSample where
  atMs : ℤ
  cpuHostPercent : F64
  usedMemoryBytes : ℕ
  totalMemoryBytes : ℕ
  visibleProcessCount : ℕ
  diskReadBytesPerSec : ℕ
  diskWriteBytesPerSec : ℕ
  deriving DecidableEq

/-- The metrics of all sessions together. -/
structure AgentAggregate where
  atMs : ℤ
  cpuCorePercent : F64
  cpuHostPercent : F64
  rssBytes : ℕ
  runtimeMs : ℕ
  processCount : ℕ
  readBytesPerSec : ℕ
  writeBytesPerSec : ℕ
  quality : MetricQuality
  activeSessions : ℕ
  attentionSessions : ℕ
  deriving DecidableEq

/-- The session record exchanged between host and renderer. -/
structure AgentSession where
  id : String
  source : AgentSource
  externalSessionId : String
  label : String
  workspaceLabel : Option String
  status : SessionStatus
  attention : AttentionKind
  startedAtMs : ℤ
  lastEventAtMs : ℤ
  endedAtMs : Option ℤ
  processRoot : Option ProcessIdentity
  verifiedTerminal : Option VerifiedTerminalContext
  latestMetric : Option MetricSample
  deriving DecidableEq

/-- A timeline event of a session. Its identifier is a 128-bit UUID. -/
structure SessionEvent where
  id : ℕ
  sessionId : String
  sequence : ℕ
  occurredAtMs : ℤ
  kind : SessionEventKind
  level : EventLevel
  summary : String
  toolName : Option String
  deriving DecidableEq

/-- Capability flags advertised by an adapter. -/
structure AdapterCapabilities where
  source : AgentSource
  events : Bool
  attention : AttentionCapability
  decisionResponse : Bool
  contextOpen : Bool
  processAttribution : AttributionQuality
  contextOpenTier : ContextOpenTier
  observeLifecycle : Bool
  observeTools : Bool
  respondDecisions : Bool
  respondQuestions : Bool
  failOpenHooks : Bool
  requiresExternalTrust : Bool
  deriving DecidableEq

/-- Attention fidelity and trust requirement of the shipped template of a source. -/
def AdapterCapabilities.templateAttention : AgentSource → AttentionCapability × Bool
  | .claudeCode | .qwen => (.partially, false)
  | .codex => (.none, true)
  | .generic => (.full, false)
  | .gemini | .copilotCli => (.partially, false)
  | .antigravityCli => (.none, false)
  | .cursor | .unknown => (.none, false)

/-- Shipped template defaults of a source. -/
def AdapterCapabilities.template (source : AgentSource) : AdapterCapabilities where
  source := source
  events := source ≠ .unknown
  attention := (templateAttention source).1
  decisionResponse := false
  contextOpen := false
  processAttribution := .unknown
  contextOpenTier := .none
  observeLifecycle := source ≠ .unknown
  observeTools := source ≠ .unknown
  respondDecisions := false
  respondQuestions := false
  failOpenHooks := true
  requiresExternalTrust := (templateAttention source).2

/-- Sound routing of the settings. Volumes are binary32 bit patterns. -/
structure SoundRouting where
  enabled : Bool
  volume : UInt32
  quietHours : Option (ℕ × ℕ)
  eventVolume : List (String × UInt32)
  agentVolume : List (String × UInt32)
  deriving DecidableEq

/-- The settings a window may see. -/
structure PublicSettings where
  overlayEnabled : Bool
  autostartEnabled : Bool
  reducedMotion : Bool
  samplingIntervalMs : ℕ
  selectedDisplay : Option String
  showOverFullscreen : Bool
  historyRetentionHours : ℕ
  alertSoundEnabled : Bool
  selectedSoundThemeId : Option String
  soundRouting : SoundRouting
  deriving DecidableEq

/-- One live metrics update. -/
structure MetricsFrame where
  host : HostMetricSample
  aggregate : AgentAggregate
  agents : Dict String MetricSample

/-! ## Decisions -/

/-- What is asked of the user. -/
inductive DecisionKind where
  | approval | permission | question
  deriving DecidableEq

inductive DecisionResponseAction where
  | allow | deny
  deriving DecidableEq

/-- The answer of the user. -/
inductive DecisionResponse where
  | action (action : DecisionResponseAction)
  | answer (text : String)
  deriving DecidableEq

/-- How far an answer has got. -/
inductive DecisionDeliveryState where
  | pending | delivered | effectObserved | expired | failed
  deriving DecidableEq

/-- A decision prompt surfaced to the renderer. -/
structure DecisionRequest where
  id : String
  sessionId : String
  source : AgentSource
  kind : DecisionKind
  summary : String
  hasActionablePayload : Bool
  createdAtMs : ℤ
  expiresAtMs : Option ℤ
  deriving DecidableEq

end LlmNotch
