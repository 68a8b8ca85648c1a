import LlmNotch.UpsertOutcomes

/-!
# Fields a payload leaves out

A payload that updates a session may leave out the label and the status. The core has updates
without them, but the normalizer has filled in defaults before the host sends one : the label
of the session becomes "Agent session" and its status running.

`omitted_fields_iff` : of an ingest that returns, the label a payload leaves out is preserved
exactly if it was the default, or the payload ends the session; and the status exactly if the
session was running.
-/

namespace LlmNotch

namespace Host

open Ipc AppCore

section Updates

variable {h : HostWorld} {e incoming : AgentSession} {cfg : CoreConfig}

/-- The label and the status of a session after a payload. -/
structure Overwritten (incoming e t : AgentSession) : Prop where
  ended : hasEnded incoming.status = true → t.label = e.label
  label : hasEnded incoming.status = false → t.label = incoming.label
  status : hasEnded incoming.status = false → t.status = incoming.status

/-- What the host does about the status of a session it has. -/
theorem wp_updateExisting_overwritten (hk : Keyed h.world.registry)
    (hres : h.world.registry.resolveExternal incoming.source incoming.externalSessionId = some e) :
    wp (updateExisting cfg incoming e) h (fun _ h' => ∃ t, Overwritten incoming e t ∧
        t.id = e.id ∧ Keyed h'.world.registry ∧
        h'.world.registry.resolveExternal incoming.source incoming.externalSessionId = some t ∧
        (hasEnded incoming.status = false →
          validateExternalSessionId incoming.externalSessionId = .ok ()))
      (fun _ _ => True) := by
  unfold updateExisting
  split
  · rename_i hopen
    have hopen' : hasEnded incoming.status = false := by simpa using hopen
    refine wp_sendUpdate_outcome hk hres (fun _ _ _ => trivial)
      (fun _ _ => ⟨fun _ => trivial, fun _ => trivial⟩) fun hc h' _ hw => ?_
    refine ⟨updated e (updateOf incoming incoming.status (some incoming.label)
        incoming.workspaceLabel), ⟨fun hended => ?_, fun _ => rfl, fun _ => rfl⟩, rfl,
      hw.keyed hk rfl, hw.resolve hk hres, fun _ => hc.reports.valid⟩
    rw [hopen'] at hended
    cases hended
  · rename_i hfinal
    have hfinal' : hasEnded incoming.status = true := by simpa using hfinal
    have hnot : hasEnded incoming.status ≠ false := by simp [hfinal']
    have hover : ∀ {t : AgentSession}, t.label = e.label → Overwritten incoming e t :=
      fun hlabel => ⟨fun _ => hlabel, fun hno => absurd hno hnot, fun hno => absurd hno hnot⟩
    rw [wp_onlyIf]
    refine ⟨fun _ => ?_, fun _ => ⟨e, hover rfl, rfl, hk, hres, fun hno => absurd hno hnot⟩⟩
    have hend : ∀ {e' : AgentSession} {h₁ : HostWorld}, e'.label = e.label → e'.id = e.id →
        Keyed h₁.world.registry →
        h₁.world.registry.resolveExternal incoming.source incoming.externalSessionId = some e' →
        wp (do sendEnd cfg incoming; unregisterSession e'.id) h₁ (fun _ h' => ∃ t,
          Overwritten incoming e t ∧ t.id = e.id ∧ Keyed h'.world.registry ∧
          h'.world.registry.resolveExternal incoming.source incoming.externalSessionId = some t ∧
          (hasEnded incoming.status = false →
            validateExternalSessionId incoming.externalSessionId = .ok ())) (fun _ _ => True) := by
      intro e' h₁ hlabel hid hk₁ hres₁
      rw [wp_bind]
      refine wp_sendEnd_outcome hk₁ hres₁ hfinal' (fun _ _ _ => trivial) (fun _ _ => trivial)
        fun _ h' _ hw => ?_
      exact ⟨ended e' (endOf incoming), hover hlabel, hid, hw.keyed hk₁ rfl, hw.resolve hk₁ hres₁,
        fun hno => absurd hno hnot⟩
    rw [wp_bind, wp_onlyIf]
    refine ⟨fun _ => ?_, fun _ => hend rfl rfl hk hres⟩
    refine wp_sendUpdate_outcome hk hres (fun _ _ _ => trivial)
      (fun _ _ => ⟨fun _ => trivial, fun _ => trivial⟩) fun hc h' _ hw => ?_
    exact @hend (updated e (updateOf incoming .running none none)) h' rfl rfl (hw.keyed hk rfl)
      (hw.resolve hk hres)

theorem isTerminal_of_hasEnded {status : SessionStatus} (h : isTerminal status = false) :
    hasEnded status = false := by
  revert h
  cases status <;> decide

/-- A started or updated session, as an ingest that returns leaves it. -/
theorem wp_ingestSessionUpsert_overwritten (hk : Keyed h.world.registry)
    (hf : Findable h.world.registry) (hs : h.world.registry.sessions.lookup e.id = some e)
    (hsource : incoming.source = e.source)
    (hext : incoming.externalSessionId = e.externalSessionId) :
    wp (ingestNormalized cfg (.sessionUpsert incoming)) h (fun _ h' => ∃ t,
        h'.world.registry.sessions.lookup e.id = some t ∧ Overwritten incoming e t)
      (fun _ _ => True) := by
  have hexisting := existing_eq hk hf hs hsource hext
  have hres : h.world.registry.resolveExternal incoming.source incoming.externalSessionId =
      some e := by
    rw [hsource, hext]
    exact hf.resolve hs
  simp only [ingestNormalized, ingestSessionUpsert, wp_bind (m := snapshotSessions),
    wp_snapshotSessions, snapshot_sketch]
  rw [show (h.sketch.snapshot.find? fun s => s.source = incoming.source ∧
    s.externalSessionId = incoming.externalSessionId) = some e from hexisting]
  rw [wp_bind]
  refine wp_validatedRoot_outcome (fun _ _ _ _ => trivial) fun root hroot h₁ _ hworld => ?_
  have hk₁ : Keyed h₁.world.registry := hworld ▸ hk
  have hres₁ : h₁.world.registry.resolveExternal incoming.source incoming.externalSessionId =
      some e := hworld ▸ hres
  simp only [pure_bind]
  rw [wp_bind]
  refine wp_mono (wp_updateExisting_overwritten hk₁ hres₁) ?_ fun _ _ _ => trivial
  rintro _ h₂ ⟨t, hover, hid, hk₂, hres₂, hvalid⟩
  refine wp_mono (wp_rest_outcome (s := t) hk₂ hres₂ hid.symm fun r hr => ?_) ?_
    fun _ _ _ => trivial
  · obtain ⟨hattribution, hknown, hactive⟩ := checkedRoot_some (hr ▸ hroot)
    exact ⟨hattribution, hknown, hvalid (isTerminal_of_hasEnded hactive)⟩
  · rintro _ h' ⟨-, -, u, hu, -, hlabel, hstatus⟩
    rw [hid] at hu
    refine ⟨u, hu, fun hended => hlabel.trans (hover.ended hended),
      fun hopen => hlabel.trans (hover.label hopen),
      fun hopen => hstatus.trans (hover.status hopen)⟩

end Updates

/-! ## Payloads that update a session -/

theorem normalizeIngest_upsert {stableId : AgentSource → String → String}
    {payload : IngestPayload} {nowMs : ℤ} {uuid : ℕ} {n : NormalizedIngest} {source : AgentSource}
    {target : String} (hn : normalizeIngest stableId payload nowMs uuid = .ok n)
    (hsource : parseSource payload.source = .ok source) (htarget : payload.target = some target)
    (hkind : payloadKind (RustText.asciiLowercase payload.event) = some .upsert) :
    ∃ incoming, n = .sessionUpsert incoming ∧ incoming.source = source ∧
      incoming.externalSessionId = target ∧
      incoming.label = payload.label.getD "Agent session" ∧
      incoming.status = (parseStatus payload).getD .running := by
  unfold IngestPayload.target at htarget
  simp only [normalizeIngest, hsource, hkind, buildSession, htarget] at hn
  cases hn
  exact ⟨_, rfl, rfl, rfl, rfl, rfl⟩

/-- Whether the payload asks for the end of the session. -/
def asksForEnd (payload : IngestPayload) : Bool :=
  hasEnded ((parseStatus payload).getD .running)

/-- In every reachable state, if a payload that updates a stored session is ingested, a label it
leaves out is preserved exactly if it is the default label or the payload ends the session, and
a status it leaves out exactly if the session is running. -/
theorem omitted_fields_iff {cfg : CoreConfig} {env : Env} {settings : PublicSettings}
    {db : Database} {s₀ s : CoreState} {acts : List CoreAct} (hdb : DistinctRows db.sessions)
    (hstart : startCore cfg env settings db = some s₀)
    (hrun : run (coreStep cfg) s₀ acts = some s) {h : HostWorld} (hworld : h.world = s.world)
    {id : String} {e : AgentSession} (hstored : h.world.registry.get id = some e)
    {stableId : AgentSource → String → String} {payload : IngestPayload} {nowMs : ℤ} {uuid : ℕ}
    (hsource : parseSource payload.source = .ok e.source)
    (htarget : payload.target = some e.externalSessionId)
    (hkind : payloadKind (RustText.asciiLowercase payload.event) = some .upsert)
    {n : NormalizedIngest}
    (hn : normalizeIngest stableId payload nowMs uuid = .ok n) {h' : HostWorld}
    (hok : ingestNormalized cfg n h = .ok () h') :
    ∃ t, h'.world.registry.get id = some t ∧
      (payload.label = none →
        (t.label = e.label ↔ e.label = "Agent session" ∨ asksForEnd payload = true)) ∧
      (parseStatus payload = none → (t.status = e.status ↔ e.status = .running)) := by
  have hk : Keyed h.world.registry := hworld ▸ keyed_run hstart hrun
  have hf : Findable h.world.registry := hworld ▸ findable_run hdb hstart hrun
  obtain rfl := hk.id hstored
  obtain ⟨incoming, rfl, hsource', hext, hlabel, hstatus⟩ :=
    normalizeIngest_upsert hn hsource htarget hkind
  obtain ⟨t, ht, hover⟩ :=
    wp_ok (wp_ingestSessionUpsert_overwritten hk hf hstored hsource' hext) hok
  have hasks : asksForEnd payload = hasEnded incoming.status := by
    rw [asksForEnd, hstatus]
  refine ⟨t, ht, fun hno => ?_, fun hno => ?_⟩
  · rw [hasks]
    cases hended : hasEnded incoming.status with
    | true => exact iff_of_true (hover.ended hended) (Or.inr rfl)
    | false =>
      rw [hover.label hended, hlabel, hno, Option.getD_none]
      simp [eq_comm]
  · rw [hno, Option.getD_none] at hstatus
    rw [hover.status (by rw [hstatus]; rfl), hstatus]
    exact eq_comm

/-- A payload that updates the generic session and names no field. -/
def updatePayload : IngestPayload :=
  samplePayload "generic" "update" none (some "e")

/-- What it becomes. -/
def incomingUpdate : AgentSession :=
  { AppCore.newSession (sampleStart .generic "e") (sampleCoreConfig.sessionIdFor .generic "e") with
    label := "Agent session" }

theorem normalize_updatePayload :
    normalizeIngest externalKey updatePayload 0 0 = .ok (.sessionUpsert incomingUpdate) := by
  decide

/-- An update without fields renames a running session. -/
theorem omitted_fields_running : ∃ s₀ s e h' t,
    startCore sampleCoreConfig {} sampleSettings { integrations := sampleIntegrations } =
      some s₀ ∧
    run (coreStep sampleCoreConfig) s₀ startedRun = some s ∧
    s.world.registry.get "Generic:e" = some e ∧ e.label = "session" ∧
    ingestNormalized sampleCoreConfig (.sessionUpsert incomingUpdate) (sampleHost s.world) =
      .ok () h' ∧
    h'.world.registry.get "Generic:e" = some t ∧ t.label ≠ e.label ∧ t.status = e.status := by
  have hrun : ((startCore sampleCoreConfig {} sampleSettings
      { integrations := sampleIntegrations }).bind fun s₀ =>
        (run (coreStep sampleCoreConfig) s₀ startedRun).bind fun s =>
          (s.world.registry.get "Generic:e").bind fun e =>
            (returnedState (ingestNormalized sampleCoreConfig (.sessionUpsert incomingUpdate)
              (sampleHost s.world))).map fun _ =>
                (e.source, e.externalSessionId, e.label, e.status)) =
      some (.generic, "e", "session", .running) := by
    decide +kernel
  obtain ⟨s₀, hs₀, hrun⟩ := Option.bind_eq_some_iff.1 hrun
  obtain ⟨s, hs, hrun⟩ := Option.bind_eq_some_iff.1 hrun
  obtain ⟨e, he, hrun⟩ := Option.bind_eq_some_iff.1 hrun
  obtain ⟨h', hreturned, hvalues⟩ := Option.map_eq_some_iff.1 hrun
  obtain ⟨u, hexec⟩ := returnedState_eq_some.1 hreturned
  simp only [Prod.mk.injEq] at hvalues
  obtain ⟨hsource, hext, hlabel, hstatus⟩ := hvalues
  have hsource' : parseSource updatePayload.source = .ok e.source := by
    rw [hsource]
    decide
  obtain ⟨t, ht, hl, hst⟩ := omitted_fields_iff (h := sampleHost s.world) ⟨by simp, by simp⟩
    hs₀ hs rfl he hsource' (by rw [hext]; rfl) (by decide) normalize_updatePayload hexec
  refine ⟨s₀, s, e, h', t, hs₀, hs, he, hlabel, hexec, ht, ?_, (hst rfl).2 hstatus⟩
  rw [ne_eq, hl rfl, hlabel]
  decide

/-- The session, waiting for its user. -/
def waitingRun : List CoreAct :=
  startedRun ++ CoreAct.perform 1 (.ingest (.sessionUpdate
    { badUpdate none with status := some .waiting })) { uuid := 2 }

/-- An update without fields changes the label and the status of a waiting session. -/
theorem update_overwrites : ∃ s₀ s e h' t,
    startCore sampleCoreConfig {} sampleSettings { integrations := sampleIntegrations } =
      some s₀ ∧
    run (coreStep sampleCoreConfig) s₀ waitingRun = some s ∧
    s.world.registry.get "Generic:e" = some e ∧ hasEnded e.status = false ∧
    parseSource updatePayload.source = .ok e.source ∧
    updatePayload.target = some e.externalSessionId ∧
    payloadKind (RustText.asciiLowercase updatePayload.event) = some .upsert ∧
    updatePayload.label = none ∧ updatePayload.status = none ∧
    normalizeIngest externalKey updatePayload 0 0 = .ok (.sessionUpsert incomingUpdate) ∧
    ingestNormalized sampleCoreConfig (.sessionUpsert incomingUpdate) (sampleHost s.world) =
      .ok () h' ∧
    h'.world.registry.get "Generic:e" = some t ∧ t.label ≠ e.label ∧ t.status ≠ e.status := by
  have hrun : ((startCore sampleCoreConfig {} sampleSettings
      { integrations := sampleIntegrations }).bind fun s₀ =>
        (run (coreStep sampleCoreConfig) s₀ waitingRun).bind fun s =>
          (s.world.registry.get "Generic:e").bind fun e =>
            (returnedState (ingestNormalized sampleCoreConfig (.sessionUpsert incomingUpdate)
              (sampleHost s.world))).bind fun h' =>
                (h'.world.registry.get "Generic:e").map fun t =>
                  (e.source, e.externalSessionId, e.label, e.status, t.label, t.status)) =
      some (.generic, "e", "session", .waiting, "Agent session", .running) := by
    decide +kernel
  obtain ⟨s₀, hs₀, hrun⟩ := Option.bind_eq_some_iff.1 hrun
  obtain ⟨s, hs, hrun⟩ := Option.bind_eq_some_iff.1 hrun
  obtain ⟨e, he, hrun⟩ := Option.bind_eq_some_iff.1 hrun
  obtain ⟨h', hreturned, hrun⟩ := Option.bind_eq_some_iff.1 hrun
  obtain ⟨u, hexec⟩ := returnedState_eq_some.1 hreturned
  obtain ⟨t, ht, hvalues⟩ := Option.map_eq_some_iff.1 hrun
  simp only [Prod.mk.injEq] at hvalues
  obtain ⟨hsource, hext, hlabel, hstatus, hlabel', hstatus'⟩ := hvalues
  refine ⟨s₀, s, e, h', t, hs₀, hs, he, by rw [hstatus]; rfl, by rw [hsource]; decide +kernel,
    by rw [hext]; rfl, by decide +kernel, rfl, rfl, normalize_updatePayload, hexec, ht, ?_, ?_⟩
  · rw [hlabel, hlabel']
    decide
  · rw [hstatus, hstatus']
    decide

end Host

end LlmNotch
