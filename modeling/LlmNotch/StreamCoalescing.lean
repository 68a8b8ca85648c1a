import LlmNotch.LastWrite
import LlmNotch.StreamEffects

/-!
# What coalescing changes

A client keeps the sessions by their identifier, the settings, the adapter of every source
and the last metrics (`ClientView`). Each of these is a cell, and a payload writes to some of
them. The coalescer puts off upserts and metrics until everything else is drained, so
`coalescing_iff` follows from the rule for deferred writes : a client notices exactly if a
session is removed or shown differently after its last upsert, or the metrics of a snapshot
follow the last metrics.
-/

namespace LlmNotch

/-- What a client keeps of the stream. -/
@[ext]
structure ClientView where
  /-- The sessions, settings and adapters, with the whole records of the sessions. -/
  mirror : Mirror
  metrics : Option MetricsFrame

/-! ## Writes -/

section Writes

variable {ps : List StreamPayload} {m : Mirror}

/-- What a payload that is put off writes to a session. -/
def upserted (sessionId : String) : StreamPayload → Option (Option AgentSession)
  | .sessionUpsert session => if session.id = sessionId then some (some session) else none
  | _ => none

/-- What the other payloads write to it : a removal nothing, a snapshot what it shows. -/
def displaced (sessionId : String) : StreamPayload → Option (Option AgentSession)
  | .sessionRemove removed => if removed = sessionId then some none else none
  | .snapshot snapshot => some ((Mirror.ofSnapshot id snapshot).sessions sessionId)
  | _ => none

def settingsWritten : StreamPayload → Option (Option PublicSettings)
  | .settingsChanged settings => some (some settings)
  | .snapshot snapshot => some (some snapshot.settings)
  | _ => none

def adapterWritten (source : AgentSource) : StreamPayload → Option (Option AdapterCapabilities)
  | .integrationChanged integration =>
    if integration.source = source then some (some integration) else none
  | .snapshot snapshot => some (Mirror.adapterOf snapshot.adapters source)
  | _ => none

def metricsPushed : StreamPayload → Option MetricsFrame
  | .metrics metrics => some metrics
  | _ => none

/-- The metrics a snapshot comes with. -/
def metricsShown : StreamPayload → Option MetricsFrame
  | .snapshot snapshot =>
    match snapshot.host, snapshot.aggregate with
    | some host, some aggregate => some ⟨host, aggregate,
        NativeState.fromEntries (snapshot.sessions.flatMap fun s =>
          (s.latestMetric.map fun metric => (s.id, metric)).toList)⟩
    | _, _ => none
  | _ => none

/-- The payloads the coalescer does not put off. -/
def isOther : StreamPayload → Bool
  | .sessionUpsert _ | .metrics _ => false
  | _ => true

namespace ClientView

def apply (v : ClientView) (p : StreamPayload) : ClientView where
  mirror := v.mirror.apply id p
  metrics := ((metricsPushed p).or (metricsShown p)).or v.metrics

def applyAll (v : ClientView) (payloads : List StreamPayload) : ClientView :=
  payloads.foldl apply v

theorem mirror_applyAll (v : ClientView) (ps : List StreamPayload) :
    (v.applyAll ps).mirror = v.mirror.applyAll id ps := by
  induction ps generalizing v with
  | nil => rfl
  | cons p ps ih => exact ih (v.apply p)

theorem metrics_applyAll (v : ClientView) (ps : List StreamPayload) :
    (v.applyAll ps).metrics =
      (lastSome (fun p => (metricsPushed p).or (metricsShown p)) ps).or v.metrics := by
  induction ps using List.reverseRecOn with
  | nil => rfl
  | append_singleton ps p ih =>
    have hstep : v.applyAll (ps ++ [p]) = (v.applyAll ps).apply p := List.foldl_append
    rw [hstep, lastSome_append, lastSome_singleton, Option.or_assoc, ← ih]
    rfl

end ClientView

/-- A cell that each payload writes or leaves alone holds the last write. -/
theorem cell_applyAll {β : Type} (cell : Mirror → β) {write : StreamPayload → Option β}
    (h : ∀ m p, cell (m.apply id p) = (write p).getD (cell m)) (m : Mirror)
    (ps : List StreamPayload) : cell (m.applyAll id ps) = (lastSome write ps).getD (cell m) := by
  induction ps using List.reverseRecOn with
  | nil => rfl
  | append_singleton ps p ih =>
    rw [Mirror.applyAll_append, Mirror.applyAll_singleton, h, ih, lastSome_append,
      lastSome_singleton, Option.getD_or]

theorem sessions_applyAll (m : Mirror) (ps : List StreamPayload) (sessionId : String) :
    (m.applyAll id ps).sessions sessionId =
      (lastSome (fun p => (upserted sessionId p).or (displaced sessionId p)) ps).getD
        (m.sessions sessionId) := by
  refine cell_applyAll (fun m => m.sessions sessionId) (fun m p => ?_) m ps
  cases p with
  | sessionUpsert session =>
    by_cases h : session.id = sessionId
    · subst h
      simp [Mirror.apply, upserted]
    · simp [Mirror.apply, upserted, displaced, h, Function.update_of_ne (Ne.symm h)]
  | sessionRemove removed =>
    by_cases h : removed = sessionId
    · simp [Mirror.apply, upserted, displaced, h]
    · simp [Mirror.apply, upserted, displaced, h, Function.update_of_ne (Ne.symm h)]
  | _ => rfl

theorem settings_applyAll (m : Mirror) (ps : List StreamPayload) :
    (m.applyAll id ps).settings = (lastSome settingsWritten ps).getD m.settings := by
  refine cell_applyAll Mirror.settings (fun m p => ?_) m ps
  cases p <;> rfl

theorem adapters_applyAll (m : Mirror) (ps : List StreamPayload) (source : AgentSource) :
    (m.applyAll id ps).adapters source =
      (lastSome (adapterWritten source) ps).getD (m.adapters source) := by
  refine cell_applyAll (fun m => m.adapters source) (fun m p => ?_) m ps
  cases p with
  | integrationChanged integration =>
    by_cases h : integration.source = source
    · subst h
      simp [Mirror.apply, adapterWritten]
    · simp [Mirror.apply, adapterWritten, h, Function.update_of_ne (Ne.symm h)]
  | _ => rfl

end Writes

/-! ## The drain -/

namespace StreamCoalescer

/-- The coalescer after pushes since it was empty. -/
def pushAll (ps : List StreamPayload) : StreamCoalescer :=
  ps.foldl push {}

section

variable (ps : List StreamPayload)

theorem pushAll_snoc (p : StreamPayload) : pushAll (ps ++ [p]) = (pushAll ps).push p :=
  List.foldl_append

theorem keyed_pushAll : (pushAll ps).UpsertsKeyed := by
  induction ps using List.reverseRecOn with
  | nil =>
    intro sessionId s hs
    cases hs
  | append_singleton ps p ih =>
    rw [pushAll_snoc]
    exact ih.push p

theorem pendingOther_pushAll : (pushAll ps).pendingOther = ps.filter isOther := by
  induction ps using List.reverseRecOn with
  | nil => rfl
  | append_singleton ps p ih =>
    rw [pushAll_snoc, List.filter_append, ← ih]
    cases p with
    | sessionUpsert session => exact (List.append_nil _).symm
    | metrics metrics => exact (List.append_nil _).symm
    | _ => rfl

theorem pendingUpsert_pushAll (sessionId : String) :
    ((pushAll ps).pendingSessionUpserts.lookup sessionId).map some =
      lastSome (upserted sessionId) ps := by
  induction ps using List.reverseRecOn with
  | nil => rfl
  | append_singleton ps p ih =>
    rw [pushAll_snoc, lastSome_append, lastSome_singleton, ← ih]
    cases p with
    | sessionUpsert session =>
      by_cases h : session.id = sessionId
      · simp [push, upserted, h]
      · simp [push, upserted, h, Ne.symm h]
    | _ => rfl

theorem pendingMetrics_pushAll : (pushAll ps).pendingMetrics = lastSome metricsPushed ps := by
  induction ps using List.reverseRecOn with
  | nil => rfl
  | append_singleton ps p ih =>
    rw [pushAll_snoc, lastSome_append, lastSome_singleton, ← ih]
    cases p <;> rfl

/-- A drain hands out everything else once and in order. -/
theorem filter_drain (rank : String → ℕ) :
    ((pushAll ps).drain rank).filter isOther = ps.filter isOther := by
  have hupserts : ∀ sessions : List AgentSession,
      (sessions.map StreamPayload.sessionUpsert).filter isOther = [] := by
    intro sessions
    refine List.filter_eq_nil_iff.2 fun p hp => ?_
    obtain ⟨s, -, rfl⟩ := List.mem_map.1 hp
    simp [isOther]
  have hmetrics : ∀ metrics : List MetricsFrame,
      (metrics.map StreamPayload.metrics).filter isOther = [] := by
    intro metrics
    refine List.filter_eq_nil_iff.2 fun p hp => ?_
    obtain ⟨s, -, rfl⟩ := List.mem_map.1 hp
    simp [isOther]
  rw [drain, List.filter_append, List.filter_append, hupserts, hmetrics, pendingOther_pushAll,
    List.filter_filter]
  simp

end

theorem sessions_drain (m : Mirror) (ps : List StreamPayload) (rank : String → ℕ)
    (sessionId : String) : (m.applyAll id ((pushAll ps).drain rank)).sessions sessionId =
      ((lastSome (upserted sessionId) ps).or (lastSome (displaced sessionId) ps)).getD
        (m.sessions sessionId) := by
  have hothers : lastSome (fun p => (upserted sessionId p).or (displaced sessionId p))
      (ps.filter isOther) = lastSome (displaced sessionId) ps := by
    have hfilter : lastSome (displaced sessionId) (ps.filter isOther) =
        lastSome (displaced sessionId) ps :=
      lastSome_filter fun p _ hp => by cases p <;> first | rfl | cases hp
    rw [← hfilter]
    refine lastSome_congr fun p hp => ?_
    have hother := (List.mem_filter.1 hp).2
    cases p <;> first | rfl | cases hother
  rw [applyAll_drain (keyed_pushAll ps), ← pendingUpsert_pushAll]
  simp only [pending, pendingOther_pushAll]
  cases hupsert : (pushAll ps).pendingSessionUpserts.lookup sessionId with
  | some s => simp
  | none => simp [sessions_applyAll, hothers]

theorem metrics_drain (ps : List StreamPayload) (rank : String → ℕ) :
    lastSome (fun p => (metricsPushed p).or (metricsShown p)) ((pushAll ps).drain rank) =
      (lastSome metricsPushed ps).or (lastSome metricsShown ps) := by
  have hothers : lastSome (fun p => (metricsPushed p).or (metricsShown p)) (ps.filter isOther) =
      lastSome metricsShown ps := by
    have hfilter : lastSome metricsShown (ps.filter isOther) = lastSome metricsShown ps :=
      lastSome_filter fun p _ hp => by cases p <;> first | rfl | cases hp
    rw [← hfilter]
    refine lastSome_congr fun p hp => ?_
    have hother := (List.mem_filter.1 hp).2
    cases p <;> first | rfl | cases hother
  have hupserts : ∀ sessions : List AgentSession,
      lastSome (fun p => (metricsPushed p).or (metricsShown p))
        (sessions.map StreamPayload.sessionUpsert) = none := by
    intro sessions
    refine lastSome_eq_none fun p hp => ?_
    obtain ⟨s, -, rfl⟩ := List.mem_map.1 hp
    rfl
  rw [drain, lastSome_append, lastSome_append, hupserts, pendingOther_pushAll, hothers,
    ← pendingMetrics_pushAll]
  cases (pushAll ps).pendingMetrics <;> simp [metricsPushed]

/-- Payloads that are not put off write the same cells in the same order. -/
theorem others_drain {β : Type} {write : StreamPayload → Option β}
    (h : ∀ p, isOther p = false → write p = none) (ps : List StreamPayload) (rank : String → ℕ) :
    lastSome write ((pushAll ps).drain rank) = lastSome write ps := by
  have hall : ∀ qs : List StreamPayload, lastSome write (qs.filter isOther) = lastSome write qs :=
    fun qs => lastSome_filter fun p _ hp => h p hp
  rw [← hall, filter_drain, hall]

end StreamCoalescer

/-! ## When coalescing does not show -/

/-- After the last upsert of a session the last payload that removes it or shows all sessions,
if there is one, shows this session; likewise for the metrics. -/
def Undisturbed (ps : List StreamPayload) : Prop :=
  (∀ before s after, ps = before ++ .sessionUpsert s :: after →
    (∀ t, .sessionUpsert t ∈ after → t.id ≠ s.id) →
    ∀ c, lastSome (displaced s.id) after = some c → c = some s) ∧
  ∀ before metrics after, ps = before ++ .metrics metrics :: after →
    (∀ n, .metrics n ∉ after) → ∀ c, lastSome metricsShown after = some c → c = metrics

theorem upserted_eq_some {p : StreamPayload} {sessionId : String} {c : Option AgentSession} :
    upserted sessionId p = some c ↔ ∃ s, p = .sessionUpsert s ∧ s.id = sessionId ∧ c = some s := by
  cases p with
  | sessionUpsert session =>
    by_cases h : session.id = sessionId
    · simp [upserted, h, eq_comm]
    · simp [upserted, h]
  | _ => simp [upserted]

theorem upserted_eq_none {p : StreamPayload} {sessionId : String} :
    upserted sessionId p = none ↔ ∀ s, p = .sessionUpsert s → s.id ≠ sessionId := by
  cases p with
  | sessionUpsert session => simp [upserted]
  | _ => simp [upserted]

theorem sessions_kept_iff (ps : List StreamPayload) :
    (∀ sessionId, (lastSome (upserted sessionId) ps).or (lastSome (displaced sessionId) ps) =
      lastSome (fun p => (upserted sessionId p).or (displaced sessionId p)) ps) ↔
    ∀ before s after, ps = before ++ .sessionUpsert s :: after →
      (∀ t, .sessionUpsert t ∈ after → t.id ≠ s.id) →
      ∀ c, lastSome (displaced s.id) after = some c → c = some s := by
  constructor
  · intro h before s after hps hafter c hc
    refine (lastSome_deferred_iff ps).1 (h s.id) before (.sessionUpsert s) after (some s) hps
      (upserted_eq_some.2 ⟨s, rfl, rfl, rfl⟩) (fun p hp => ?_) c hc
    exact upserted_eq_none.2 fun t ht => hafter t (ht ▸ hp)
  · intro h sessionId
    refine (lastSome_deferred_iff ps).2 fun before p after b hps hp hafter c hc => ?_
    obtain ⟨s, rfl, rfl, rfl⟩ := upserted_eq_some.1 hp
    exact h before s after hps (fun t ht => upserted_eq_none.1 (hafter _ ht) t rfl) c hc

theorem metrics_kept_iff (ps : List StreamPayload) :
    (lastSome metricsPushed ps).or (lastSome metricsShown ps) =
      lastSome (fun p => (metricsPushed p).or (metricsShown p)) ps ↔
    ∀ before metrics after, ps = before ++ .metrics metrics :: after →
      (∀ n, .metrics n ∉ after) → ∀ c, lastSome metricsShown after = some c → c = metrics := by
  have hpushed : ∀ p b, metricsPushed p = some b ↔ p = .metrics b := by
    intro p b
    cases p <;> simp [metricsPushed]
  rw [lastSome_deferred_iff]
  constructor
  · intro h before metrics after hps hafter c hc
    refine h before (.metrics metrics) after metrics hps rfl (fun p hp => ?_) c hc
    exact Option.eq_none_iff_forall_ne_some.2 fun b hb => hafter b ((hpushed p b).1 hb ▸ hp)
  · intro h before p after b hps hp hafter c hc
    obtain rfl := (hpushed p b).1 hp
    refine h before b after hps (fun n hn => ?_) c hc
    cases hafter _ hn

/-- Cells that are written by the same operations agree from any start if the last writes do. -/
theorem or_eq_iff {β : Type} {a b : Option β} (h : a.isSome = b.isSome) (d : Option β) :
    a.or d = b.or d ↔ a = b := by
  cases a with
  | none => cases b with
    | none => simp
    | some y => cases h
  | some x => cases b with
    | none => cases h
    | some y => simp

theorem getD_eq_iff {β : Type} {a b : Option β} (h : a.isSome = b.isSome) (d : β) :
    a.getD d = b.getD d ↔ a = b := by
  rw [← or_eq_iff h (some d), Option.or_some, Option.or_some, Option.some_inj]

/-- A client cannot tell the drained payloads from the pushed ones exactly if they are
undisturbed; the payloads that are not put off come once and in order in any case. -/
theorem coalescing_iff (ps : List StreamPayload) (rank : String → ℕ) (v : ClientView) :
    v.applyAll ((StreamCoalescer.pushAll ps).drain rank) = v.applyAll ps ∧
      ((StreamCoalescer.pushAll ps).drain rank).filter isOther = ps.filter isOther ↔
    Undisturbed ps := by
  have hsessions : ∀ sessionId,
      (v.mirror.applyAll id ((StreamCoalescer.pushAll ps).drain rank)).sessions sessionId =
        (v.mirror.applyAll id ps).sessions sessionId ↔
      (lastSome (upserted sessionId) ps).or (lastSome (displaced sessionId) ps) =
        lastSome (fun p => (upserted sessionId p).or (displaced sessionId p)) ps := by
    intro sessionId
    rw [StreamCoalescer.sessions_drain, sessions_applyAll]
    exact getD_eq_iff (isSome_lastSome_or ps).symm _
  have hmetrics : (v.applyAll ((StreamCoalescer.pushAll ps).drain rank)).metrics =
      (v.applyAll ps).metrics ↔ (lastSome metricsPushed ps).or (lastSome metricsShown ps) =
        lastSome (fun p => (metricsPushed p).or (metricsShown p)) ps := by
    rw [ClientView.metrics_applyAll, ClientView.metrics_applyAll, StreamCoalescer.metrics_drain]
    exact or_eq_iff (isSome_lastSome_or ps).symm _
  rw [and_iff_left (StreamCoalescer.filter_drain ps rank), Undisturbed, ← sessions_kept_iff,
    ← metrics_kept_iff, ← hmetrics]
  constructor
  · intro heq
    refine ⟨fun sessionId => (hsessions sessionId).1 ?_, congrArg ClientView.metrics heq⟩
    rw [← ClientView.mirror_applyAll, ← ClientView.mirror_applyAll, heq]
  · rintro ⟨hkept, hkeptMetrics⟩
    refine ClientView.ext (Mirror.ext ?_ ?_ ?_) hkeptMetrics
    · rw [ClientView.mirror_applyAll, ClientView.mirror_applyAll]
      exact funext fun sessionId => (hsessions sessionId).2 (hkept sessionId)
    · rw [ClientView.mirror_applyAll, ClientView.mirror_applyAll, settings_applyAll,
        settings_applyAll, StreamCoalescer.others_drain fun p hp => ?_]
      cases p <;> first | rfl | cases hp
    · rw [ClientView.mirror_applyAll, ClientView.mirror_applyAll]
      funext source
      rw [adapters_applyAll, adapters_applyAll, StreamCoalescer.others_drain fun p hp => ?_]
      cases p <;> first | rfl | cases hp

/-- A session as `session_start` makes it. -/
def sampleSession : AgentSession :=
  AppCore.newSession (sampleStart .generic "e") "Generic:e"

/-- A client without anything. -/
def emptyView : ClientView where
  mirror := ⟨fun _ => none, none, fun _ => none⟩
  metrics := none

/-- After an upsert and a removal of the same session a client still shows the session. -/
theorem coalescing_revives :
    ((emptyView.applyAll [.sessionUpsert sampleSession, .sessionRemove "Generic:e"]).mirror.sessions
      "Generic:e").isNone = true ∧
    ((emptyView.applyAll ((StreamCoalescer.pushAll [.sessionUpsert sampleSession,
      .sessionRemove "Generic:e"]).drain fun _ => 0)).mirror.sessions "Generic:e").isSome =
        true := by
  decide

end LlmNotch
