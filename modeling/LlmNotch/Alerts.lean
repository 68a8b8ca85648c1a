import LlmNotch.CoreDomain

/-!
# Alerts

The alert evaluator raises an alert when a session asks for attention and when the host
stays above a threshold for long enough. Thresholds of processor load are compared as
binary64 values; the memory threshold is computed in binary64 from the host's memory.
-/

namespace LlmNotch

/-! ## Binary64 -/

/-- The place of a value in the order of binary64; a NaN has none. -/
def F64.key (x : F64) : Option ℤ :=
  let magnitude : ℤ := (x.bits.toNat % 2 ^ 63 : ℕ)
  if 0x7FF0000000000000 < magnitude then none
  else if x.bits.toNat < 2 ^ 63 then some magnitude else some (-magnitude)

/-- `>=` of binary64. -/
def F64.ge (x y : F64) : Bool :=
  match x.key, y.key with
  | some a, some b => decide (b ≤ a)
  | _, _ => false

/-- A 64-bit integer rounded to 53 significant bits, ties to even. -/
def roundToF64 (n : ℕ) : ℕ :=
  let unit := 2 ^ (n.log2 - 52)
  let quotient := n / unit
  let rest := n % unit
  if 2 * rest < unit ∨ 2 * rest = unit ∧ quotient % 2 = 0 then quotient * unit
  else (quotient + 1) * unit

/-! ## The evaluator -/

def cpuWarnThreshold : F64 := ⟨0x4051800000000000⟩
def cpuCriticalThreshold : F64 := ⟨0x4056800000000000⟩
def cpuWarnDurationMs : ℤ := 60 * 1000
def cpuCriticalDurationMs : ℤ := 30 * 1000
def rssAlertBytes : ℕ := 4 * 1024 * 1024 * 1024
def rssAlertDurationMs : ℤ := 60 * 1000

inductive AlertKind where
  | newAttention | cpuWarn | cpuCritical | memoryHigh
  deriving DecidableEq

structure ActiveAlert where
  kind : AlertKind
  sessionId : Option String
  attention : Option AttentionKind
  message : String
  raisedAtMs : ℤ
  deriving DecidableEq

/-- Since when a value is above its threshold. -/
structure ThresholdTracker where
  aboveSinceMs : Option ℤ := none
  deriving DecidableEq

/-- Whether the value has been above its threshold for long enough. -/
def ThresholdTracker.observe (t : ThresholdTracker) (nowMs : ℤ) (above : Bool)
    (requiredMs : ℤ) : ThresholdTracker × Bool :=
  if above then
    let since := t.aboveSinceMs.getD nowMs
    (⟨some since⟩, decide (requiredMs ≤ saturatingSubI64 nowMs since))
  else (⟨none⟩, false)

/-- The active alerts, the trackers of the limits, and the sessions with attention. -/
structure AlertEvaluator where
  cpuWarn : ThresholdTracker := {}
  cpuCritical : ThresholdTracker := {}
  rss : ThresholdTracker := {}
  knownAttention : List String := []
  active : List ActiveAlert := []
  deriving DecidableEq

namespace AlertEvaluator

def clearLocalAcknowledgement (a : AlertEvaluator) (sessionId : String) : AlertEvaluator :=
  { a with
    knownAttention := a.knownAttention.filter (· ≠ sessionId)
    active := a.active.filter fun alert => alert.sessionId ≠ some sessionId }

/-- Raise the alert of an attention, once until the attention is none. -/
def evaluateAttention (a : AlertEvaluator) (sessionId : String) (attention : AttentionKind)
    (nowMs : ℤ) : AlertEvaluator :=
  if attention = .none then
    { a with knownAttention := a.knownAttention.filter (· ≠ sessionId) }
  else if a.knownAttention.contains sessionId then a
  else
    let alert : ActiveAlert :=
      ⟨.newAttention, some sessionId, some attention,
        "Session requires attention: " ++ attention.debug, nowMs⟩
    { a with
      knownAttention := sessionId :: a.knownAttention
      active := a.active ++ [alert] }

/-- Replace the first alert of the same kind and session, or add the alert. -/
def upsertGlobalAlert (a : AlertEvaluator) (alert : ActiveAlert) : AlertEvaluator :=
  match a.active.findIdx? fun x => x.kind = alert.kind ∧ x.sessionId = alert.sessionId with
  | some i => { a with active := a.active.set i alert }
  | none => { a with active := a.active ++ [alert] }

/-- The smaller of 4 GiB and a quarter of the host's memory. -/
def rssThreshold (host : HostMetricSample) : ℕ :=
  min rssAlertBytes (roundToF64 host.totalMemoryBytes / 4)

/-- The alert is stored, and is one of those returned. -/
def raise (a : AlertEvaluator) (alert : ActiveAlert) : AlertEvaluator × List ActiveAlert :=
  (a.upsertGlobalAlert alert, [alert])

/-- The warning threshold is observed only while the critical one is not sustained. -/
def evaluateCpu (a : AlertEvaluator) (host : HostMetricSample) (nowMs : ℤ) :
    AlertEvaluator × List ActiveAlert :=
  let critical := a.cpuCritical.observe nowMs (host.cpuHostPercent.ge cpuCriticalThreshold)
    cpuCriticalDurationMs
  let a := { a with cpuCritical := critical.1 }
  if critical.2 then
    a.raise ⟨.cpuCritical, none, none, "Host CPU sustained above 90%", nowMs⟩
  else
    let warn := a.cpuWarn.observe nowMs (host.cpuHostPercent.ge cpuWarnThreshold)
      cpuWarnDurationMs
    let a := { a with cpuWarn := warn.1 }
    if warn.2 then
      a.raise ⟨.cpuWarn, none, none, "Host CPU sustained above 70%", nowMs⟩
    else (a, [])

/-- Raise an alert if the memory has stayed above its limit. -/
def evaluateRss (a : AlertEvaluator) (host : HostMetricSample) (aggregate : MetricSample)
    (nowMs : ℤ) : AlertEvaluator × List ActiveAlert :=
  let rss := a.rss.observe nowMs (decide (rssThreshold host ≤ aggregate.rssBytes))
    rssAlertDurationMs
  let a := { a with rss := rss.1 }
  if rss.2 then
    a.raise ⟨.memoryHigh, none, none,
      "Aggregate RSS sustained above " ++ toString (rssThreshold host) ++ " bytes", nowMs⟩
  else (a, [])

/-- The evaluator after one sample, and the alerts that are returned. -/
def evaluateHostMetrics (a : AlertEvaluator) (host : HostMetricSample)
    (aggregate : MetricSample) (nowMs : ℤ) : AlertEvaluator × List ActiveAlert :=
  let cpu := a.evaluateCpu host nowMs
  let rss := cpu.1.evaluateRss host aggregate nowMs
  (rss.1, cpu.2 ++ rss.2)

end AlertEvaluator

/-! ## Resource alerts on the wire -/

inductive ResourceAlertKind where
  | cpuWarn | cpuCritical | memoryHigh
  deriving DecidableEq

structure ResourceAlert where
  kind : ResourceAlertKind
  message : String
  sessionId : Option String
  raisedAtMs : ℤ
  deriving DecidableEq

/-- Attention alerts are not resource alerts. -/
def AlertKind.resource : AlertKind → Option ResourceAlertKind
  | .newAttention => none
  | .cpuWarn => some .cpuWarn
  | .cpuCritical => some .cpuCritical
  | .memoryHigh => some .memoryHigh

def resourceAlertsFromActive (alerts : List ActiveAlert) : List ResourceAlert :=
  alerts.filterMap fun a => a.kind.resource.map fun kind =>
    ⟨kind, a.message, a.sessionId, a.raisedAtMs⟩

end LlmNotch
