import LlmNotch.Protocol
import LlmNotch.StateExcept

/-!
# The domain of the core

The errors of the core, its ingest commands, the session state machine and the checks of
the bounded text fields. The hash behind internal session identifiers is a parameter
(`CoreConfig.sessionIdFor`) : its algorithm is not specified by the language. So is what
reading a stored metric text back gives (`CoreConfig.reloadMetric`).
-/

namespace LlmNotch

/-! ## Limits -/

def maxSessions : ℕ := maxSnapshotSessions
def maxEventsPerSession : ℕ := 10000
def bootstrapMaxEvents : ℕ := 256
def bootstrapEventsPerActiveSession : ℕ := 1
def maxEventPageSize : ℕ := 100
def metricBucketSecs : ℤ := 5
def hostMetricSessionKey : String := "__host__"
def eventRetentionMs : ℤ := 7 * 24 * 60 * 60 * 1000
def staleSessionMs : ℤ := 30 * 60 * 1000
def pruneTargetBytes : ℕ := 128 * 1024 * 1024

/-- The largest value of a signed 64-bit integer. -/
def maxI64 : ℤ := 2 ^ 63 - 1

/-- `i64::saturating_sub`. -/
def saturatingSubI64 (a b : ℤ) : ℤ := max (-2 ^ 63) (min maxI64 (a - b))

/-- `i64::saturating_mul`. -/
def saturatingMulI64 (a b : ℤ) : ℤ := max (-2 ^ 63) (min maxI64 (a * b))

/-! ## Errors -/

/-- The `Debug` text of a status. -/
def SessionStatus.debug : SessionStatus → String
  | starting => "Starting"
  | running => "Running"
  | waiting => "Waiting"
  | paused => "Paused"
  | completed => "Completed"
  | failed => "Failed"
  | stale => "Stale"

/-- The `Debug` text of an attention kind. -/
def AttentionKind.debug : AttentionKind → String
  | none => "None"
  | approval => "Approval"
  | question => "Question"
  | permission => "Permission"
  | error => "Error"

/-- The errors of the core itself. -/
inductive CoreError where
  | sessionNotFound (detail : String)
  | ingestRejected (detail : String)
  | unsupportedCapability (detail : String)
  | invalidTransition (source target : SessionStatus)
  | sessionCapacity (limit : ℕ)
  | validation (detail : String)
  deriving DecidableEq

/-- How a call of the core ends early : with an error of its own, with the error of a
repository (`CoreError::Other`), which nothing else reports, or with a panic. -/
inductive Fault where
  | err (e : CoreError)
  | other (detail : String)
  | panic (message : String)
  deriving DecidableEq

section Calls

variable {σ α : Type}

/-- The `?` operator. -/
def check : Except CoreError α → EStateM Fault σ α
  | .ok a => pure a
  | .error e => throw (.err e)

/-- Fail unless the condition holds. -/
def ensure (c : Bool) (e : CoreError) : EStateM Fault σ Unit :=
  if c then pure () else throw (.err e)

/-- `ok_or`. -/
def okOr (e : CoreError) : Option α → EStateM Fault σ α
  | some a => pure a
  | none => throw (.err e)

/-- `expect`. -/
def expect (message : String) : Option α → EStateM Fault σ α
  | some a => pure a
  | none => throw (.panic message)

variable {s : σ} {Q : α → σ → Prop} {E : Fault → σ → Prop}

@[simp] theorem wp_check (x : Except CoreError α) :
    wp (check x) s Q E ↔ (∀ a, x = .ok a → Q a s) ∧ ∀ e, x = .error e → E (.err e) s := by
  cases x <;> simp [check]

@[simp] theorem wp_ensure {Q : Unit → σ → Prop} (c : Bool) (e : CoreError) :
    wp (ensure c e) s Q E ↔ (c = true → Q () s) ∧ (c = false → E (.err e) s) := by
  cases c <;> simp [ensure]

@[simp] theorem wp_okOr (e : CoreError) (x : Option α) :
    wp (okOr e x) s Q E ↔ (∀ a, x = some a → Q a s) ∧ (x = none → E (.err e) s) := by
  cases x <;> simp [okOr]

@[simp] theorem wp_expect (message : String) (x : Option α) :
    wp (expect message x) s Q E ↔
      (∀ a, x = some a → Q a s) ∧ (x = none → E (.panic message) s) := by
  cases x <;> simp [expect]

variable {I : σ → Prop}

theorem keeps_check (x : Except CoreError α) : Keeps I (check x : EStateM Fault σ α) := by
  cases x with
  | ok a => exact keeps_pure a
  | error e => exact keeps_throw _

theorem keeps_ensure (c : Bool) (e : CoreError) : Keeps I (ensure c e : EStateM Fault σ Unit) := by
  cases c with
  | true => exact keeps_pure _
  | false => exact keeps_throw _

theorem keeps_okOr (e : CoreError) (x : Option α) : Keeps I (okOr e x : EStateM Fault σ α) := by
  cases x with
  | some a => exact keeps_pure a
  | none => exact keeps_throw _

theorem keeps_expect (message : String) (x : Option α) :
    Keeps I (expect message x : EStateM Fault σ α) := by
  cases x with
  | some a => exact keeps_pure a
  | none => exact keeps_throw _

end Calls

/-! ## Text fields -/

/-- A field must be there and within its bound in bytes. -/
def validateBounded (value : String) (max : ℕ) (field : String) : Except CoreError Unit :=
  if value.isEmpty then .error (.validation (field ++ " must not be empty"))
  else if max < value.utf8ByteSize then
    .error (.validation (field ++ " exceeds " ++ toString max ++ " bytes"))
  else .ok ()

def validateExternalSessionId (id : String) : Except CoreError Unit :=
  validateBounded id maxExternalSessionIdLen "external_session_id"

def validateSessionLabel (label : String) : Except CoreError Unit :=
  validateBounded label maxSessionLabelLen "label"

def validateWorkspaceLabel (label : String) : Except CoreError Unit :=
  validateBounded label maxWorkspaceLabelLen "workspace_label"

def validateEventSummary (summary : String) : Except CoreError Unit :=
  validateBounded summary maxEventSummaryLen "summary"

def validateToolName (name : String) : Except CoreError Unit :=
  validateBounded name maxToolNameLen "tool_name"

def validateSessionId (id : String) : Except CoreError Unit :=
  validateBounded id maxSessionIdLen "session_id"

/-! ## Session lifecycle -/

/-- Whether a status may follow another. -/
def isValidTransition (source target : SessionStatus) : Bool :=
  source = target || match source, target with
  | .starting, .running | .starting, .failed | .starting, .stale => true
  | .running, .waiting | .running, .paused | .running, .completed | .running, .failed
  | .running, .stale => true
  | .waiting, .running | .waiting, .paused | .waiting, .completed | .waiting, .failed
  | .waiting, .stale => true
  | .paused, .running | .paused, .waiting | .paused, .completed | .paused, .failed
  | .paused, .stale => true
  | .completed, .stale | .failed, .stale => true
  | _, _ => false

def validateTransition (source target : SessionStatus) : Except CoreError Unit :=
  if isValidTransition source target then .ok () else .error (.invalidTransition source target)

def isTerminal : SessionStatus → Bool
  | .completed | .failed | .stale => true
  | _ => false

/-! ## Ingest commands -/

structure SessionStartCommand where
  idempotencyKey : Option String
  source : AgentSource
  externalSessionId : String
  label : String
  workspaceLabel : Option String
  status : SessionStatus
  occurredAtMs : ℤ
  deriving DecidableEq

structure SessionUpdateCommand where
  source : AgentSource
  externalSessionId : String
  status : Option SessionStatus
  label : Option String
  workspaceLabel : Option String
  occurredAtMs : ℤ
  deriving DecidableEq

structure SessionEndCommand where
  source : AgentSource
  externalSessionId : String
  status : SessionStatus
  occurredAtMs : ℤ
  summary : Option String
  deriving DecidableEq

structure LifecycleEventCommand where
  source : AgentSource
  externalSessionId : String
  level : EventLevel
  summary : String
  occurredAtMs : ℤ
  deriving DecidableEq

structure ToolEventCommand where
  source : AgentSource
  externalSessionId : String
  level : EventLevel
  summary : String
  toolName : Option String
  occurredAtMs : ℤ
  deriving DecidableEq

structure AttentionCommand where
  source : AgentSource
  externalSessionId : String
  attention : AttentionKind
  level : EventLevel
  summary : String
  occurredAtMs : ℤ
  deriving DecidableEq

structure ProcessRootCommand where
  source : AgentSource
  externalSessionId : String
  processRoot : ProcessIdentity
  occurredAtMs : ℤ
  deriving DecidableEq

structure IntegrationHealthCommand where
  capabilities : AdapterCapabilities
  healthy : Bool
  message : Option String
  occurredAtMs : ℤ
  deriving DecidableEq

structure AcknowledgeAttentionCommand where
  sessionId : String
  occurredAtMs : ℤ
  deriving DecidableEq

/-- The normalized commands the core accepts. -/
inductive IngestCommand where
  | sessionStart (cmd : SessionStartCommand)
  | sessionUpdate (cmd : SessionUpdateCommand)
  | sessionEnd (cmd : SessionEndCommand)
  | lifecycleEvent (cmd : LifecycleEventCommand)
  | toolEvent (cmd : ToolEventCommand)
  | attention (cmd : AttentionCommand)
  | registerProcessRoot (cmd : ProcessRootCommand)
  | integrationHealth (cmd : IntegrationHealthCommand)
  | acknowledgeAttention (cmd : AcknowledgeAttentionCommand)
  deriving DecidableEq

structure IngestResult where
  sessionId : Option String
  eventId : Option ℕ
  idempotentReplay : Bool
  deriving DecidableEq

def IngestResult.empty : IngestResult := ⟨none, none, false⟩

/-- The answer to a start of a session that exists. -/
def IngestResult.replay (session : AgentSession) : IngestResult := ⟨some session.id, none, true⟩

/-- What the code relies on and the language does not specify. -/
structure CoreConfig where
  sessionIdFor : AgentSource → String → String
  reloadMetric : MetricSample → Option MetricSample

end LlmNotch
