import LlmNotch.SustainedAlerts
import LlmNotch.UniformState

/-!
# The resource alerts of a snapshot

A snapshot lists the active alerts of the evaluator that are not about attention. The evaluator
replaces an alert of the same kind and adds the others, and nothing takes an alert of the host
away again : an acknowledgement only removes the alerts of its session. So the listed kinds are
those that have been sustained at some sample since the core was started (`Showing`), each once.

They are the kinds raised for the latest sample in exactly the runs in which whatever has been
sustained is sustained at every later sample (`resource_alerts_iff`). `critical_alert_stays` is
a run in which the load falls again.
-/

namespace LlmNotch

open AppCore

/-! ## What leaves the evaluator alone -/

/-- Attention does not break the invariant. -/
structure AttentionProof (I : AlertEvaluator → Prop) : Prop where
  clear : ∀ {a} id, I a → I (a.clearLocalAcknowledgement id)
  attention : ∀ {a} id kind now, I a → I (a.evaluateAttention id kind now)

section Operations

variable {I : AlertEvaluator → Prop} {cfg : CoreConfig} {env : Env}

theorem steady_alerts (I : AlertEvaluator → Prop) : Steady fun w => I w.inner.alerts :=
  ⟨fun _ h => h, fun _ h => h, fun _ h => h⟩

theorem AttentionProof.section (hI : AttentionProof I) :
    SectionProof fun w => I w.inner.alerts where
  toSteady := steady_alerts I
  flush _ h := by rwa [World.alerts_flush]
  attention _ _ _ h := hI.attention _ _ _ h
  acknowledged _ h := hI.clear _ h
  settings _ h := h
  integrations _ h := h
  latestMetrics _ h := h

/-- Nothing is asked of the sessions. -/
theorem uniform_alerts {w : World} (h : I w.inner.alerts) :
    Uniform (fun _ => True) (fun w => I w.inner.alerts) w :=
  ⟨fun _ => trivial, fun _ => trivial, h⟩

/-- Every section but the one that evaluates a sample. -/
theorem evaluated_exec (hI : AttentionProof I) {sec : CoreSection}
    (hsec : ∀ frame now, sec ≠ .applyMetrics frame now) :
    Keeps (fun w => I w.inner.alerts) (sec.exec cfg env) := by
  have hkeep : Keeps (Uniform (fun _ => True) fun w => I w.inner.alerts) (sec.exec cfg env) :=
    uniform_exec (fun _ _ h _ => h) hI.section (fun _ => trivial)
      fun frame now h => absurd h (hsec frame now)
  exact fun w hw => wp_mono (hkeep w (uniform_alerts hw)) (fun _ _ h => h.aside)
    fun _ _ h => h.aside

/-- A sample is evaluated at the end, if all rows can be written. -/
theorem wp_applyMetrics_alerts {frame : MetricsFrame} {now : ℤ} {w : World} :
    wp (applyMetrics env frame now) w
      (fun _ w' => w'.inner.alerts =
        w.inner.alerts.read ⟨frame.host, aggregateSample frame, now⟩)
      (fun _ w' => w'.inner.alerts = w.inner.alerts) := by
  unfold applyMetrics
  rw [wp_bind, wp_get, wp_bind]
  have hrefresh : ∀ id, Keeps (Uniform (fun _ => True) fun w' => w'.inner.alerts = w.inner.alerts)
      (refreshMetric frame id) :=
    uniform_refreshMetric (fun _ _ h _ => h) (steady_alerts (· = w.inner.alerts)) frame
  refine wp_mono (keeps_forM (fun id _ => hrefresh id) w
    (uniform_alerts (I := (· = w.inner.alerts)) rfl)) (fun _ w₁ h => ?_) fun _ _ h => h.aside
  simp only [wp_bind, wp_modify, queuePayload, flushPending]
  rw [World.alerts_flush]
  have hsame : w₁.inner.alerts = w.inner.alerts := h.aside
  show (w₁.inner.alerts.evaluateHostMetrics frame.host (aggregateSample frame) now).1 = _
  rw [hsame]
  rfl

end Operations

/-! ## The kinds of a list -/

namespace AlertEvaluator

/-- The kinds of the resource alerts in the list. -/
def resources (a : AlertEvaluator) : List ResourceAlertKind :=
  a.active.filterMap (·.kind.resource)

theorem kind_resourceAlertsFromActive (alerts : List ActiveAlert) :
    (resourceAlertsFromActive alerts).map (·.kind) = alerts.filterMap (·.kind.resource) := by
  unfold resourceAlertsFromActive
  rw [List.map_filterMap]
  refine congrArg (List.filterMap · alerts) (funext fun alert => ?_)
  cases alert.kind.resource <;> rfl

/-- An alert of the host. -/
def OfHost (alert : ActiveAlert) : Prop :=
  alert.sessionId = none ∧ ∃ kind, alert.kind.resource = some kind

/-- The resource alerts belong to no session, and there is one of a kind. -/
structure Listed (a : AlertEvaluator) : Prop where
  global : ∀ alert ∈ a.active, alert.kind.resource ≠ none → alert.sessionId = none
  nodup : a.resources.Nodup

variable {a : AlertEvaluator} {r : MetricsReading} {readings : List MetricsReading}

variable {kind : ResourceAlertKind}

theorem kind_eq_of_resource {x y : AlertKind} (hx : x.resource = some kind)
    (hy : y.resource = some kind) : x = y := by
  revert hx hy
  cases x <;> cases y <;> cases kind <;> decide

theorem mem_resources : kind ∈ a.resources ↔ ∃ alert ∈ a.active, alert.kind.resource = some kind :=
  List.mem_filterMap

theorem filterMap_set_of_eq {α β : Type*} {f : α → Option β} {l : List α} {i : ℕ} {x : α}
    (hi : i < l.length) (hx : f x = f l[i]) : (l.set i x).filterMap f = l.filterMap f := by
  have hmap : (l.set i x).map f = l.map f := by
    rw [List.map_set, hx]
    refine List.ext_getElem (by simp) fun n _ _ => ?_
    rw [List.getElem_set]
    split
    · rename_i hn
      simp [hn]
    · rfl
  have hid : ∀ l : List α, l.filterMap f = (l.map f).filterMap id := fun l => by
    rw [List.filterMap_map]
    rfl
  rw [hid, hmap, ← hid]

/-- An alert of the host replaces the one of its kind. -/
theorem Listed.upsert (h : a.Listed) {alert : ActiveAlert} (hs : alert.sessionId = none)
    (hk : alert.kind.resource = some kind) :
    (a.upsertGlobalAlert alert).Listed ∧
      ∀ k, k ∈ (a.upsertGlobalAlert alert).resources ↔ k ∈ a.resources ∨ k = kind := by
  unfold upsertGlobalAlert
  cases hfind : a.active.findIdx? fun x => x.kind = alert.kind ∧ x.sessionId = alert.sessionId with
  | some i =>
    obtain ⟨hi, hsame, -⟩ := List.findIdx?_eq_some_iff_getElem.1 hfind
    obtain ⟨hkind, -⟩ := of_decide_eq_true hsame
    have hkeep : (a.active.set i alert).filterMap (·.kind.resource) = a.resources :=
      filterMap_set_of_eq hi (by rw [hkind])
    have hmem : kind ∈ a.resources :=
      mem_resources.2 ⟨a.active[i], List.getElem_mem hi, by rw [hkind, hk]⟩
    refine ⟨⟨fun x hx hne => ?_, ?_⟩, fun k => ?_⟩
    · rcases List.mem_or_eq_of_mem_set hx with hx | rfl
      · exact h.global x hx hne
      · exact hs
    · show ((a.active.set i alert).filterMap (·.kind.resource)).Nodup
      rw [hkeep]
      exact h.nodup
    · show k ∈ (a.active.set i alert).filterMap (·.kind.resource) ↔ _
      rw [hkeep]
      exact ⟨Or.inl, fun hk => hk.elim id fun heq => heq ▸ hmem⟩
  | none =>
    have hnew : kind ∉ a.resources := by
      intro hmem
      obtain ⟨x, hx, hxk⟩ := mem_resources.1 hmem
      have hne := of_decide_eq_false (List.findIdx?_eq_none_iff.1 hfind x hx)
      refine hne ⟨kind_eq_of_resource hxk hk, ?_⟩
      rw [hs]
      exact h.global x hx (by rw [hxk]; exact Option.some_ne_none _)
    have hadd : (a.active ++ [alert]).filterMap (·.kind.resource) = a.resources ++ [kind] := by
      rw [List.filterMap_append]
      simp [hk, resources]
    refine ⟨⟨fun x hx hne => ?_, ?_⟩, fun k => ?_⟩
    · rcases List.mem_append.1 hx with hx | hx
      · exact h.global x hx hne
      · rw [List.mem_singleton.1 hx]
        exact hs
    · show ((a.active ++ [alert]).filterMap (·.kind.resource)).Nodup
      rw [hadd, List.nodup_append]
      refine ⟨h.nodup, List.nodup_singleton _, fun x hx y hy => ?_⟩
      rintro rfl
      exact hnew (List.mem_singleton.1 hy ▸ hx)
    · show k ∈ (a.active ++ [alert]).filterMap (·.kind.resource) ↔ _
      rw [hadd, List.mem_append, List.mem_singleton]

theorem Listed.foldl_upsert (h : a.Listed) {alerts : List ActiveAlert}
    (hhost : ∀ alert ∈ alerts, OfHost alert) :
    (alerts.foldl upsertGlobalAlert a).Listed ∧
      ∀ k, k ∈ (alerts.foldl upsertGlobalAlert a).resources ↔
        k ∈ a.resources ∨ ∃ alert ∈ alerts, alert.kind.resource = some k := by
  induction alerts generalizing a with
  | nil => exact ⟨h, fun k => by simp⟩
  | cons alert alerts ih =>
    obtain ⟨hs, kind, hk⟩ := hhost alert (by simp)
    obtain ⟨hlisted, hmem⟩ := h.upsert hs hk
    obtain ⟨hrest, hmore⟩ := ih hlisted fun x hx => hhost x (by simp [hx])
    refine ⟨hrest, fun k => ?_⟩
    have hhead : k = kind ↔ alert.kind.resource = some k := by
      rw [hk, Option.some.injEq, eq_comm]
    rw [List.foldl_cons, hmore, hmem, or_assoc, hhead]
    simp only [List.mem_cons, exists_eq_or_imp]

theorem ofHost_of_returned (a : AlertEvaluator) (r : MetricsReading) :
    ∀ alert ∈ a.returned r, OfHost alert := by
  intro alert h
  rw [returned_eq, List.mem_append, evaluateCpu_snd, evaluateRss_snd] at h
  rcases h with h | h
  · split at h
    · rw [List.mem_singleton.1 h]
      exact ⟨rfl, _, rfl⟩
    · split at h
      · rw [List.mem_singleton.1 h]
        exact ⟨rfl, _, rfl⟩
      · cases h
  · split at h
    · rw [List.mem_singleton.1 h]
      exact ⟨rfl, _, rfl⟩
    · cases h

/-- The kinds in the list are those that were sustained at some sample. -/
structure Showing (a : AlertEvaluator) (readings : List MetricsReading) : Prop where
  tracking : a.Tracking readings
  listed : a.Listed
  shown : ∀ kind, kind ∈ a.resources ↔ ∃ l, l <+: readings ∧ Sustained l kind

theorem not_sustained_nil (kind : ResourceAlertKind) : ¬ Sustained [] kind := by
  have hnone : ∀ p d, ¬ SpansAtEnd MetricsReading.nowMs p d [] := by
    rintro p d ⟨first, last, h, -, -⟩
    cases h
  cases kind with
  | cpuCritical => exact hnone _ _
  | cpuWarn => exact fun h => hnone _ _ h.2
  | memoryHigh => exact hnone _ _

theorem Showing.new : Showing {} [] := by
  refine ⟨.new, ⟨fun alert h => (by cases h), .nil⟩, fun kind => ⟨fun h => (by cases h), ?_⟩⟩
  rintro ⟨l, hl, hkind⟩
  rw [List.prefix_nil.1 hl] at hkind
  exact absurd hkind (not_sustained_nil kind)

theorem Showing.read (h : a.Showing readings) (r : MetricsReading) :
    (a.read r).Showing (readings ++ [r]) := by
  have hactive : (a.read r).active = ((a.returned r).foldl upsertGlobalAlert a).active :=
    evaluateHostMetrics_active a r.host r.aggregate r.nowMs
  have hresources : (a.read r).resources = ((a.returned r).foldl upsertGlobalAlert a).resources :=
    congrArg (List.filterMap fun alert : ActiveAlert => alert.kind.resource) hactive
  obtain ⟨hlisted, hmem⟩ := h.listed.foldl_upsert (ofHost_of_returned a r)
  refine ⟨h.tracking.read r, ⟨?_, ?_⟩, fun kind => ?_⟩
  · rw [hactive]
    exact hlisted.global
  · rw [hresources]
    exact hlisted.nodup
  · rw [hresources, hmem, h.shown, h.tracking.raises_iff]
    simp only [List.prefix_concat_iff, or_and_right, exists_or, exists_eq_left]
    exact or_comm

/-- Attention changes no alert of the host. -/
theorem Showing.attentionProof : AttentionProof (Showing · readings) := by
  refine ⟨fun {a} id h => ?_, fun {a} id kind now h => ?_⟩
  · have hkeep : (a.clearLocalAcknowledgement id).resources = a.resources := by
      unfold resources clearLocalAcknowledgement
      rw [List.filterMap_filter]
      refine List.filterMap_congr fun alert halert => ?_
      by_cases hnone : alert.kind.resource = none
      · simp [hnone]
      · simp [h.listed.global alert halert hnone]
    refine ⟨⟨h.tracking.critical, h.tracking.warns, h.tracking.full⟩, ⟨fun alert halert => ?_, ?_⟩,
      fun k => ?_⟩
    · exact h.listed.global alert (List.mem_of_mem_filter halert)
    · rw [hkeep]
      exact h.listed.nodup
    · rw [hkeep]
      exact h.shown k
  · unfold evaluateAttention
    split
    · exact ⟨⟨h.tracking.critical, h.tracking.warns, h.tracking.full⟩,
        ⟨h.listed.global, h.listed.nodup⟩, h.shown⟩
    · split
      · exact h
      · set alert : ActiveAlert := ⟨.newAttention, some id, some kind,
          "Session requires attention: " ++ kind.debug, now⟩
        have hkeep : (a.active ++ [alert]).filterMap (·.kind.resource) = a.resources := by
          rw [List.filterMap_append]
          exact List.append_nil _
        refine ⟨⟨h.tracking.critical, h.tracking.warns, h.tracking.full⟩, ⟨fun x hx hne => ?_, ?_⟩,
          fun k => ?_⟩
        · rcases List.mem_append.1 hx with hx | hx
          · exact h.listed.global x hx hne
          · rw [List.mem_singleton.1 hx] at hne
            exact absurd rfl hne
        · show ((a.active ++ [alert]).filterMap (·.kind.resource)).Nodup
          rw [hkeep]
          exact h.listed.nodup
        · show k ∈ (a.active ++ [alert]).filterMap (·.kind.resource) ↔ _
          rw [hkeep]
          exact h.shown k

end AlertEvaluator

/-! ## Runs -/

/-- The sample that a step evaluates. -/
def readingOf (cfg : CoreConfig) (s : CoreState) : CoreAct → Option MetricsReading
  | .advance tid env =>
    match s.calls.lookup tid with
    | some (.applyMetrics frame now :: _) =>
      match (CoreSection.applyMetrics frame now).exec cfg env (s.world.entered env) with
      | .ok _ _ => some ⟨frame.host, aggregateSample frame, now⟩
      | .error _ _ => none
    | _ => none
  | _ => none

/-- The core, the samples it has evaluated since it was started, and what the evaluator
returned for the last one. -/
structure Recording where
  state : CoreState
  readings : List MetricsReading
  raised : List ActiveAlert

def readingStep (cfg : CoreConfig) (t : Recording) (a : CoreAct) : Option Recording :=
  (coreStep cfg t.state a).map fun s =>
    match a, readingOf cfg t.state a with
    | .restart _ _, _ => ⟨s, [], []⟩
    | _, some r => ⟨s, t.readings ++ [r], t.state.world.inner.alerts.returned r⟩
    | _, none => ⟨s, t.readings, t.raised⟩

namespace Recording

/-- The resource alerts of every snapshot are of the kinds raised for the latest sample, one of
a kind. -/
def Clears (t : Recording) : Prop :=
  ∀ env, let alerts := (snapshotWithSequence env t.state.world).snapshot.resourceAlerts
    (alerts.map (·.kind)).Nodup ∧ ∀ kind,
      (∃ alert ∈ alerts, alert.kind = kind) ↔
        ∃ alert ∈ t.raised, alert.kind.resource = some kind

/-- What has been sustained at some sample is sustained at the latest one. -/
def Lasts (t : Recording) : Prop :=
  ∀ l kind, l <+: t.readings → Sustained l kind → Sustained t.readings kind

/-- What the evaluator holds and what it has returned. -/
structure Faithful (t : Recording) : Prop where
  showing : t.state.world.inner.alerts.Showing t.readings
  raised : ∀ kind, (∃ alert ∈ t.raised, alert.kind.resource = some kind) ↔
    Sustained t.readings kind

variable {cfg : CoreConfig} {env : Env} {settings : PublicSettings} {db : Database}
  {s : CoreState} {t t' : Recording}

theorem Faithful.started (h : s.world.inner = restartedCore cfg settings db) :
    Faithful ⟨s, [], []⟩ := by
  refine ⟨?_, fun kind => ⟨?_, fun hkind => absurd hkind (AlertEvaluator.not_sustained_nil kind)⟩⟩
  · show s.world.inner.alerts.Showing []
    rw [h]
    exact .new
  · rintro ⟨alert, halert, -⟩
    cases halert

theorem Faithful.clears_iff (h : t.Faithful) : t.Clears ↔ t.Lasts := by
  have hshown : ∀ env kind,
      (∃ alert ∈ (snapshotWithSequence env t.state.world).snapshot.resourceAlerts,
        alert.kind = kind) ↔ ∃ l, l <+: t.readings ∧ Sustained l kind := by
    intro env kind
    rw [← List.mem_map, ← h.showing.shown kind]
    exact Iff.of_eq (congrArg (kind ∈ ·) (AlertEvaluator.kind_resourceAlertsFromActive _))
  constructor
  · intro hclears l kind hl hkind
    have hmem := (hshown {} kind).2 ⟨l, hl, hkind⟩
    exact (h.raised kind).1 (((hclears {}).2 kind).1 hmem)
  · intro hlasts env
    refine ⟨?_, fun kind => ?_⟩
    · show ((resourceAlertsFromActive t.state.world.inner.alerts.active).map (·.kind)).Nodup
      rw [AlertEvaluator.kind_resourceAlertsFromActive]
      exact h.showing.listed.nodup
    · rw [hshown, h.raised]
      constructor
      · rintro ⟨l, hl, hkind⟩
        exact hlasts l kind hl hkind
      · exact fun hkind => ⟨t.readings, List.prefix_rfl, hkind⟩

theorem Faithful.congr (h : t.Faithful) (hs : s.world.inner.alerts = t.state.world.inner.alerts) :
    Faithful ⟨s, t.readings, t.raised⟩ := by
  refine ⟨?_, h.raised⟩
  show s.world.inner.alerts.Showing t.readings
  rw [hs]
  exact h.showing

/-- A section that ends, with the sample it evaluates. -/
theorem Faithful.section (h : t.Faithful) {tid : ℕ} {sec : CoreSection} {rest : List CoreSection}
    (hlookup : t.state.calls.lookup tid = some (sec :: rest))
    (ht : readingStep cfg t (.advance tid env) = some t') : t'.Faithful := by
  set w := t.state.world.entered env with hw
  have hstep : coreStep cfg t.state (.advance tid env) =
      some (t.state.finish tid rest (sec.exec cfg env w)) := by
    rw [coreStep, hlookup]
  rw [readingStep, hstep, Option.map_some] at ht
  cases ht
  by_cases hsec : ∃ frame now, sec = .applyMetrics frame now
  · obtain ⟨frame, now, rfl⟩ := hsec
    have hwp : wp ((CoreSection.applyMetrics frame now).exec cfg env) w
        (fun _ w' => w'.inner.alerts =
          w.inner.alerts.read ⟨frame.host, aggregateSample frame, now⟩)
        (fun _ w' => w'.inner.alerts = w.inner.alerts) := by
      show wp (applyMetrics env frame now >>= fun _ => pure []) w _ _
      rw [wp_bind]
      exact wp_applyMetrics_alerts
    cases hexec : (CoreSection.applyMetrics frame now).exec cfg env w with
    | ok more w' =>
      have halerts := wp_ok hwp hexec
      have hreading : readingOf cfg t.state (.advance tid env) =
          some ⟨frame.host, aggregateSample frame, now⟩ := by
        simp only [readingOf, hlookup, ← hw, hexec]
      simp only [hreading]
      refine ⟨?_, fun kind => h.showing.tracking.raises_iff _ kind⟩
      show w'.inner.alerts.Showing _
      rw [halerts]
      exact h.showing.read _
    | error f w' =>
      have halerts := wp_error hwp hexec
      have hreading : readingOf cfg t.state (.advance tid env) = none := by
        simp only [readingOf, hlookup, ← hw, hexec]
      simp only [hreading]
      exact h.congr halerts
  · have hreading : readingOf cfg t.state (.advance tid env) = none := by
      simp only [readingOf, hlookup]
      cases sec with
      | applyMetrics frame now => exact absurd ⟨frame, now, rfl⟩ hsec
      | _ => rfl
    have hkeep : wp (sec.exec cfg env) w (fun _ w' => w'.inner.alerts.Showing t.readings)
        (fun _ w' => w'.inner.alerts.Showing t.readings) :=
      evaluated_exec AlertEvaluator.Showing.attentionProof
        (fun frame now h => hsec ⟨frame, now, h⟩) w h.showing
    simp only [hreading]
    refine ⟨?_, h.raised⟩
    cases hexec : sec.exec cfg env w with
    | ok more w' =>
      have hshowing := wp_ok hkeep hexec
      exact hshowing
    | error f w' =>
      have hshowing := wp_error hkeep hexec
      exact hshowing

theorem Faithful.step (h : t.Faithful) {a : CoreAct} (ht : readingStep cfg t a = some t') :
    t'.Faithful := by
  cases a with
  | call tid call =>
    obtain ⟨s, hs, rfl⟩ := Option.map_eq_some_iff.1 ht
    simp only [coreStep] at hs
    split at hs
    · cases hs
      exact h.congr rfl
    · cases hs
  | restart env settings =>
    obtain ⟨s, hs, rfl⟩ := Option.map_eq_some_iff.1 ht
    exact .started (restart_spec hs).1
  | advance tid env =>
    cases hlookup : t.state.calls.lookup tid with
    | none =>
      rw [readingStep, coreStep, hlookup] at ht
      cases ht
    | some secs =>
      cases secs with
      | nil =>
        have hreading : readingOf cfg t.state (.advance tid env) = none := by
          rw [readingOf, hlookup]
        rw [readingStep, coreStep, hlookup, hreading] at ht
        cases ht
        exact h.congr rfl
      | cons sec rest => exact h.section hlookup ht

/-- In every run of the core, the snapshots list the kinds raised for the latest sample exactly
if whatever has been sustained stays so. -/
theorem resource_alerts_iff (h : startCore cfg env settings db = some s) (acts : List CoreAct) :
    (∀ t ∈ visited (readingStep cfg) ⟨s, [], []⟩ acts, t.Clears) ↔
      ∀ t ∈ visited (readingStep cfg) ⟨s, [], []⟩ acts, t.Lasts := by
  have hfaithful := (Guarded.trivial (readingStep cfg) ⟨s, [], []⟩ acts).forall_visited
    (fun _ _ _ _ ht hstep => Faithful.step ht hstep) (Faithful.started (startCore_spec h).1)
  exact forall₂_congr fun t ht => (hfaithful t ht).clears_iff

/-! ## Runs from an empty repository -/

def loadFrame (cpuHostPercent : F64) : MetricsFrame where
  host := ⟨0, cpuHostPercent, 0, 1024, 0, 0, 0⟩
  aggregate := ⟨0, ⟨0⟩, ⟨0⟩, 0, 0, 0, 0, 0, ⟨.unknown, .available, .disk, none⟩, 0, 0⟩
  agents := ∅

/-- Record a load in percent at a time. -/
def recordLoad (tid : ℕ) (cpuHostPercent : F64) (now : ℤ) : List CoreAct :=
  [.call tid (.recordMetrics (loadFrame cpuHostPercent)), .advance tid { now := now },
    .advance tid {}]

/-- The load is at 95% for thirty seconds. -/
def busyRun : List CoreAct :=
  recordLoad 0 ⟨0x4057C00000000000⟩ 0 ++ recordLoad 1 ⟨0x4057C00000000000⟩ 30000

/-- It then falls to 10%. -/
def coolingRun : List CoreAct :=
  busyRun ++ recordLoad 2 ⟨0x4024000000000000⟩ 31000

/-- The times of the samples, the kinds listed and the kinds raised last. -/
def loadSummary (acts : List CoreAct) :
    Option (List ℤ × List ResourceAlertKind × List AlertKind) :=
  (startCore sampleCoreConfig {} sampleSettings {}).bind fun s =>
    (run (readingStep sampleCoreConfig) ⟨s, [], []⟩ acts).map fun t =>
      (t.readings.map (·.nowMs),
        (snapshotWithSequence {} t.state.world).snapshot.resourceAlerts.map (·.kind),
        t.raised.map (·.kind))

theorem resource_alerts_iff_busyRun :
    ∃ s, startCore sampleCoreConfig {} sampleSettings {} = some s ∧
      ((∀ t ∈ visited (readingStep sampleCoreConfig) ⟨s, [], []⟩ busyRun, t.Clears) ↔
        ∀ t ∈ visited (readingStep sampleCoreConfig) ⟨s, [], []⟩ busyRun, t.Lasts) ∧
      loadSummary busyRun = some ([0, 30000], [.cpuCritical], [.cpuCritical]) := by
  have hstart : (startCore sampleCoreConfig {} sampleSettings {}).isSome = true := by
    decide
  obtain ⟨s, hs⟩ := Option.isSome_iff_exists.1 hstart
  exact ⟨s, hs, resource_alerts_iff hs busyRun, by decide +kernel⟩

/-- The load has fallen and no alert is raised, but the snapshot lists one. -/
theorem critical_alert_stays :
    loadSummary coolingRun = some ([0, 30000, 31000], [.cpuCritical], []) ∧
      ∃ s t, startCore sampleCoreConfig {} sampleSettings {} = some s ∧
        run (readingStep sampleCoreConfig) ⟨s, [], []⟩ coolingRun = some t ∧ ¬ t.Clears := by
  have hsummary : loadSummary coolingRun =
      some ([0, 30000, 31000], [.cpuCritical], []) := by
    decide +kernel
  refine ⟨hsummary, ?_⟩
  obtain ⟨s, hs, hrun⟩ := Option.bind_eq_some_iff.1 hsummary
  obtain ⟨t, ht, hlast⟩ := Option.map_eq_some_iff.1 hrun
  simp only [Prod.mk.injEq, List.map_eq_nil_iff] at hlast
  obtain ⟨-, hlisted, hraised⟩ := hlast
  refine ⟨s, t, hs, ht, fun hclears => ?_⟩
  have hmem : ResourceAlertKind.cpuCritical ∈
      (snapshotWithSequence {} t.state.world).snapshot.resourceAlerts.map (·.kind) := by
    rw [hlisted]
    exact List.mem_singleton_self _
  obtain ⟨alert, halert, -⟩ := ((hclears {}).2 .cpuCritical).1 (List.mem_map.1 hmem)
  rw [hraised] at halert
  cases halert

end Recording

end LlmNotch
