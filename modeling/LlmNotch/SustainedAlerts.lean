import LlmNotch.Alerts
import Mathlib.Data.List.DropRight

/-!
# Sustained thresholds

A threshold is sustained at the end of a list of samples if the longest run of samples at its
end that are at or above the threshold spans the required time (`Sustained`). A tracker holds
the start of that run (`ThresholdTracker.Since`).

The tracker of the warning is not asked while the critical threshold is sustained. It keeps
the start of its run all the same : a run that has lasted for some time has a sample before
its last one, and whatever is critical is also worth a warning (`Tracking.read`). So for every
list of samples the evaluator raises what is sustained (`raises_sustained`).
-/

namespace LlmNotch

/-! ## Runs at the end of a list -/

section EndRun

variable {α : Type*} {at_ : α → ℤ} {p q : α → Bool} {d : ℤ} {l : List α} {x : α}

/-- The longest run of members that meet `p` at the end of `l` spans at least `d`. -/
def SpansAtEnd (at_ : α → ℤ) (p : α → Bool) (d : ℤ) (l : List α) : Prop :=
  ∃ first last, (l.rtakeWhile p).head? = some first ∧ (l.rtakeWhile p).getLast? = some last ∧
    d ≤ at_ last - at_ first

instance : Decidable (SpansAtEnd at_ p d l) :=
  match hh : (l.rtakeWhile p).head?, hl : (l.rtakeWhile p).getLast? with
  | some first, some last =>
    decidable_of_iff (d ≤ at_ last - at_ first) (by simp [SpansAtEnd, hh, hl])
  | none, _ => isFalse (by simp [SpansAtEnd, hh])
  | some _, none => isFalse (by simp [SpansAtEnd, hl])

/-- When the run at the end started, after one more member. -/
theorem head?_rtakeWhile_concat :
    ((l ++ [x]).rtakeWhile p).head? =
      if p x then some ((l.rtakeWhile p).head?.getD x) else none := by
  rw [List.rtakeWhile_concat]
  split
  · cases l.rtakeWhile p <;> rfl
  · rfl

theorem spansAtEnd_concat : SpansAtEnd at_ p d (l ++ [x]) ↔
    p x = true ∧ d ≤ at_ x - at_ ((l.rtakeWhile p).head?.getD x) := by
  unfold SpansAtEnd
  rw [head?_rtakeWhile_concat, List.rtakeWhile_concat]
  by_cases hx : p x = true
  · rw [if_pos hx, if_pos hx]
    simp [hx]
  · rw [if_neg hx]
    simp [hx]

/-- A run that spans some time has a member before its last one. -/
theorem SpansAtEnd.rtakeWhile_ne_nil (h : SpansAtEnd at_ p d (l ++ [x])) (hd : 0 < d) :
    l.rtakeWhile p ≠ [] := by
  intro hnil
  have hspan := (spansAtEnd_concat.1 h).2
  rw [hnil] at hspan
  simp only [List.head?_nil, Option.getD_none, sub_self] at hspan
  omega

/-- The run of a weaker condition is not shorter. -/
theorem rtakeWhile_ne_nil_of_imp (hpq : ∀ x, p x = true → q x = true)
    (h : l.rtakeWhile p ≠ []) : l.rtakeWhile q ≠ [] := by
  rw [Ne, List.rtakeWhile_eq_nil_iff] at h ⊢
  intro hq
  exact h fun hl hp => hq hl (hpq _ hp)

end EndRun

/-! ## Trackers -/

/-- The tracker holds when the run at the end started. -/
def ThresholdTracker.Since {α : Type*} (t : ThresholdTracker) (at_ : α → ℤ) (p : α → Bool)
    (l : List α) : Prop :=
  t.aboveSinceMs = (l.rtakeWhile p).head?.map at_

namespace ThresholdTracker.Since

variable {α : Type*} {at_ : α → ℤ} {p : α → Bool} {d : ℤ} {l : List α}
  {t : ThresholdTracker}

theorem getD (h : t.Since at_ p l) (x : α) :
    t.aboveSinceMs.getD (at_ x) = at_ ((l.rtakeWhile p).head?.getD x) := by
  rw [show t.aboveSinceMs = _ from h]
  cases (l.rtakeWhile p).head? <;> rfl

theorem observe (h : t.Since at_ p l) (x : α) :
    (t.observe (at_ x) (p x) d).1.Since at_ p (l ++ [x]) := by
  unfold ThresholdTracker.Since ThresholdTracker.observe
  rw [head?_rtakeWhile_concat]
  split
  · rw [h.getD x]
    rfl
  · rfl

/-- The subtraction saturates beyond every required time. -/
theorem observe_iff (h : t.Since at_ p l) (x : α) (hpos : 0 < d) (hmax : d ≤ maxI64) :
    (t.observe (at_ x) (p x) d).2 = true ↔ SpansAtEnd at_ p d (l ++ [x]) := by
  rw [spansAtEnd_concat]
  unfold ThresholdTracker.observe
  split
  · rename_i hx
    rw [h.getD x, decide_eq_true_eq]
    unfold saturatingSubI64
    constructor
    · exact fun hspan => ⟨hx, by omega⟩
    · rintro ⟨-, hspan⟩
      omega
  · rename_i hx
    exact ⟨fun hfalse => (by cases hfalse), fun hspan => absurd hspan.1 hx⟩

/-- A run that is already there starts where it did. -/
theorem skip (h : t.Since at_ p l) {x : α} (hx : p x = true) (hne : l.rtakeWhile p ≠ []) :
    t.Since at_ p (l ++ [x]) := by
  unfold ThresholdTracker.Since
  rw [h, head?_rtakeWhile_concat, if_pos hx]
  cases hrun : l.rtakeWhile p with
  | nil => exact absurd hrun hne
  | cons first rest => rfl

end ThresholdTracker.Since

/-! ## The evaluator -/

/-- A sample of the host and of all agents, and when it is evaluated. -/
structure MetricsReading where
  host : HostMetricSample
  aggregate : MetricSample
  nowMs : ℤ

namespace MetricsReading

def critical (r : MetricsReading) : Bool := r.host.cpuHostPercent.ge cpuCriticalThreshold

def warns (r : MetricsReading) : Bool := r.host.cpuHostPercent.ge cpuWarnThreshold

def full (r : MetricsReading) : Bool :=
  decide (AlertEvaluator.rssThreshold r.host ≤ r.aggregate.rssBytes)

theorem warns_of_critical (r : MetricsReading) (h : r.critical = true) : r.warns = true := by
  have hc : cpuCriticalThreshold.key = some 0x4056800000000000 := by decide
  have hw : cpuWarnThreshold.key = some 0x4051800000000000 := by decide
  unfold critical F64.ge at h
  unfold warns F64.ge
  rw [hc] at h
  rw [hw]
  cases hkey : r.host.cpuHostPercent.key with
  | none =>
    rw [hkey] at h
    cases h
  | some a =>
    rw [hkey] at h
    have hle : (0x4056800000000000 : ℤ) ≤ a := of_decide_eq_true h
    exact decide_eq_true (by omega)

end MetricsReading

/-- The kind is to be raised after these samples. -/
def Sustained (readings : List MetricsReading) : ResourceAlertKind → Prop
  | .cpuCritical => SpansAtEnd (·.nowMs) MetricsReading.critical cpuCriticalDurationMs readings
  | .cpuWarn =>
    ¬ SpansAtEnd (·.nowMs) MetricsReading.critical cpuCriticalDurationMs readings ∧
      SpansAtEnd (·.nowMs) MetricsReading.warns cpuWarnDurationMs readings
  | .memoryHigh => SpansAtEnd (·.nowMs) MetricsReading.full rssAlertDurationMs readings

namespace AlertEvaluator

/-- What is returned is what becomes active. -/
theorem evaluateHostMetrics_active (a : AlertEvaluator) (host : HostMetricSample)
    (aggregate : MetricSample) (nowMs : ℤ) :
    (a.evaluateHostMetrics host aggregate nowMs).1.active =
      ((a.evaluateHostMetrics host aggregate nowMs).2.foldl upsertGlobalAlert a).active := by
  have hupsert : ∀ (a b : AlertEvaluator) (alert : ActiveAlert), a.active = b.active →
      (a.upsertGlobalAlert alert).active = (b.upsertGlobalAlert alert).active := by
    intro a b alert h
    unfold upsertGlobalAlert
    rw [h]
    cases b.active.findIdx? _ <;> rfl
  have hcpu : (a.evaluateCpu host nowMs).1.active =
      ((a.evaluateCpu host nowMs).2.foldl upsertGlobalAlert a).active := by
    unfold evaluateCpu
    dsimp only
    split
    · exact hupsert _ _ _ rfl
    · split
      · exact hupsert _ _ _ rfl
      · rfl
  unfold evaluateHostMetrics
  dsimp only
  rw [List.foldl_append]
  generalize a.evaluateCpu host nowMs = cpu at hcpu ⊢
  unfold evaluateRss
  dsimp only
  split
  · exact hupsert _ _ _ hcpu
  · exact hcpu

/-- Evaluate one sample. -/
def read (a : AlertEvaluator) (r : MetricsReading) : AlertEvaluator :=
  (a.evaluateHostMetrics r.host r.aggregate r.nowMs).1

/-- The alerts returned for a sample. -/
def returned (a : AlertEvaluator) (r : MetricsReading) : List ActiveAlert :=
  (a.evaluateHostMetrics r.host r.aggregate r.nowMs).2

/-- An alert of this kind is returned for the sample. -/
def Raises (a : AlertEvaluator) (r : MetricsReading) (kind : AlertKind) : Prop :=
  ∃ alert ∈ a.returned r, alert.kind = kind

variable {a : AlertEvaluator} {r : MetricsReading} {readings : List MetricsReading}

theorem evaluateCpu_rss (a : AlertEvaluator) (host : HostMetricSample) (nowMs : ℤ) :
    (a.evaluateCpu host nowMs).1.rss = a.rss := by
  unfold evaluateCpu raise upsertGlobalAlert
  dsimp only
  repeat' split
  all_goals rfl

theorem evaluateRss_snd (a : AlertEvaluator) (r : MetricsReading) :
    (a.evaluateRss r.host r.aggregate r.nowMs).2 =
      if (a.rss.observe r.nowMs r.full rssAlertDurationMs).2 then
        [⟨.memoryHigh, none, none, "Aggregate RSS sustained above " ++
          toString (rssThreshold r.host) ++ " bytes", r.nowMs⟩]
      else [] :=
  apply_ite Prod.snd _ _ _

theorem evaluateCpu_snd (a : AlertEvaluator) (r : MetricsReading) :
    (a.evaluateCpu r.host r.nowMs).2 =
      if (a.cpuCritical.observe r.nowMs r.critical cpuCriticalDurationMs).2 then
        [⟨.cpuCritical, none, none, "Host CPU sustained above 90%", r.nowMs⟩]
      else if (a.cpuWarn.observe r.nowMs r.warns cpuWarnDurationMs).2 then
        [⟨.cpuWarn, none, none, "Host CPU sustained above 70%", r.nowMs⟩]
      else [] :=
  (apply_ite Prod.snd _ _ _).trans (congrArg _ (apply_ite Prod.snd _ _ _))

theorem returned_eq (a : AlertEvaluator) (r : MetricsReading) :
    a.returned r =
      (a.evaluateCpu r.host r.nowMs).2 ++ (a.evaluateRss r.host r.aggregate r.nowMs).2 := by
  unfold returned evaluateHostMetrics
  dsimp only
  rw [evaluateRss_snd, evaluateRss_snd, evaluateCpu_rss]

theorem read_cpuCritical (a : AlertEvaluator) (r : MetricsReading) :
    (a.read r).cpuCritical =
      (a.cpuCritical.observe r.nowMs r.critical cpuCriticalDurationMs).1 := by
  unfold read evaluateHostMetrics evaluateRss evaluateCpu raise upsertGlobalAlert
  dsimp only
  repeat' split
  all_goals rfl

/-- The warning is not asked while the critical threshold is sustained. -/
theorem read_cpuWarn (a : AlertEvaluator) (r : MetricsReading) :
    (a.read r).cpuWarn =
      if (a.cpuCritical.observe r.nowMs r.critical cpuCriticalDurationMs).2 then a.cpuWarn
      else (a.cpuWarn.observe r.nowMs r.warns cpuWarnDurationMs).1 := by
  unfold read evaluateHostMetrics evaluateRss evaluateCpu raise upsertGlobalAlert
  dsimp only
  cases hc : (a.cpuCritical.observe r.nowMs r.critical cpuCriticalDurationMs).2 with
  | true =>
    unfold MetricsReading.critical at hc
    simp only [hc, if_true]
    repeat' split
    all_goals rfl
  | false =>
    unfold MetricsReading.critical at hc
    simp only [hc]
    repeat' split
    all_goals rfl

theorem read_rss (a : AlertEvaluator) (r : MetricsReading) :
    (a.read r).rss = (a.rss.observe r.nowMs r.full rssAlertDurationMs).1 := by
  unfold read evaluateHostMetrics
  dsimp only
  rw [← evaluateCpu_rss a r.host r.nowMs]
  unfold evaluateRss raise upsertGlobalAlert
  dsimp only
  repeat' split
  all_goals rfl

/-- Every tracker holds when the run of its threshold started. -/
structure Tracking (a : AlertEvaluator) (readings : List MetricsReading) : Prop where
  critical : a.cpuCritical.Since (·.nowMs) MetricsReading.critical readings
  warns : a.cpuWarn.Since (·.nowMs) MetricsReading.warns readings
  full : a.rss.Since (·.nowMs) MetricsReading.full readings

theorem Tracking.new : Tracking {} [] :=
  ⟨rfl, rfl, rfl⟩

theorem Tracking.critical_iff (h : Tracking a readings) (r : MetricsReading) :
    (a.cpuCritical.observe r.nowMs r.critical cpuCriticalDurationMs).2 = true ↔
      SpansAtEnd (·.nowMs) MetricsReading.critical cpuCriticalDurationMs (readings ++ [r]) :=
  h.critical.observe_iff r (by decide) (by decide)

theorem Tracking.read (h : Tracking a readings) (r : MetricsReading) :
    Tracking (a.read r) (readings ++ [r]) := by
  refine ⟨?_, ?_, ?_⟩
  · rw [read_cpuCritical]
    exact h.critical.observe r
  · rw [read_cpuWarn]
    split
    · rename_i hfires
      -- the run of critical samples has one before this, so the warning's run goes on
      have hspan := (h.critical_iff r).1 hfires
      have hbefore := rtakeWhile_ne_nil_of_imp MetricsReading.warns_of_critical
        (hspan.rtakeWhile_ne_nil (by decide))
      exact h.warns.skip (r.warns_of_critical (spansAtEnd_concat.1 hspan).1) hbefore
    · exact h.warns.observe r
  · rw [read_rss]
    exact h.full.observe r

/-- A new evaluator that is fed samples. -/
theorem Tracking.of_readings (readings : List MetricsReading) :
    Tracking (readings.foldl AlertEvaluator.read {}) readings := by
  induction readings using List.reverseRecOn with
  | nil => exact Tracking.new
  | append_singleton readings r ih =>
    rw [List.foldl_append]
    exact ih.read r

/-- What is raised is what is sustained. -/
theorem Tracking.raises_iff (h : Tracking a readings) (r : MetricsReading)
    (kind : ResourceAlertKind) :
    (∃ alert ∈ a.returned r, alert.kind.resource = some kind) ↔
      Sustained (readings ++ [r]) kind := by
  have hcritical := h.critical_iff r
  have hwarns := h.warns.observe_iff (d := cpuWarnDurationMs) r (by decide) (by decide)
  have hfull := h.full.observe_iff (d := rssAlertDurationMs) r (by decide) (by decide)
  rw [returned_eq, evaluateCpu_snd, evaluateRss_snd]
  unfold Sustained
  cases kind with
  | cpuCritical =>
    rw [← hcritical]
    split <;> split <;> simp_all [AlertKind.resource]
  | cpuWarn =>
    rw [← hcritical, ← hwarns]
    split <;> split <;> simp_all [AlertKind.resource]
  | memoryHigh =>
    rw [← hfull]
    split <;> split <;> simp_all [AlertKind.resource]

theorem raises_resource_iff (kind : AlertKind) {resource : ResourceAlertKind}
    (hkind : kind.resource = some resource) :
    a.Raises r kind ↔ ∃ alert ∈ a.returned r, alert.kind.resource = some resource := by
  refine exists_congr fun alert => and_congr_right fun _ => ⟨fun h => h ▸ hkind, fun h => ?_⟩
  revert hkind h
  generalize alert.kind = raised
  cases resource <;> cases kind <;> cases raised <;> decide

/-- For every list of samples, an alert is returned for the last one exactly if the run at the
end that meets its threshold spans the required time; the warning gives way to the critical
alert. -/
theorem raises_sustained (readings : List MetricsReading) (r : MetricsReading) :
    let a := readings.foldl AlertEvaluator.read {}
    (a.Raises r .cpuCritical ↔
      SpansAtEnd (·.nowMs) MetricsReading.critical cpuCriticalDurationMs (readings ++ [r])) ∧
    (a.Raises r .cpuWarn ↔ ¬ a.Raises r .cpuCritical ∧
      SpansAtEnd (·.nowMs) MetricsReading.warns cpuWarnDurationMs (readings ++ [r])) ∧
    (a.Raises r .memoryHigh ↔
      SpansAtEnd (·.nowMs) MetricsReading.full rssAlertDurationMs (readings ++ [r])) := by
  intro a
  have h := (Tracking.of_readings readings).raises_iff r
  have hcritical := (raises_resource_iff .cpuCritical rfl).trans (h .cpuCritical)
  refine ⟨hcritical, ?_, (raises_resource_iff .memoryHigh rfl).trans (h .memoryHigh)⟩
  rw [hcritical]
  exact (raises_resource_iff .cpuWarn rfl).trans (h .cpuWarn)

end AlertEvaluator

end LlmNotch
