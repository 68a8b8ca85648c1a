import LlmNotch.HostOutcomes

/-!
# Ending a session

A payload that ends a session is routed by the status the session has : a starting session is
updated to running first, then the end is sent, and a session that ended already is left alone.
The host sends an end to a stale session as well, but no status may follow a stale one, so the
core refuses it. After the end the roots of all sessions are reconciled, which may fail for
reasons that have nothing to do with the session.

`end_converges_iff` : an end returns and leaves the session ended as requested exactly if the
session is not stale, its integration reports events and the roots fit (`Converges`).
-/

namespace LlmNotch

namespace Host

open Ipc AppCore

/-! ## The session an ingest finds -/

section Found

variable {h : HostWorld} {e incoming : AgentSession} {id : String}

/-- The first session of the snapshot with the source and the external identifier. -/
def Sketch.existing (sk : Sketch) (incoming : AgentSession) : Option AgentSession :=
  sk.snapshot.find? fun s =>
    s.source = incoming.source ∧ s.externalSessionId = incoming.externalSessionId

theorem existing_eq (hk : Keyed h.world.registry) (hf : Findable h.world.registry)
    (hs : h.world.registry.sessions.lookup id = some e) (hsource : incoming.source = e.source)
    (hext : incoming.externalSessionId = e.externalSessionId) :
    h.sketch.existing incoming = some e := by
  obtain rfl := hk.id hs
  have hmem : e ∈ h.sketch.snapshot := (mem_snapshot hk).2 hs
  unfold Sketch.existing
  cases hfind : h.sketch.snapshot.find? fun s =>
      s.source = incoming.source ∧ s.externalSessionId = incoming.externalSessionId with
  | none =>
    have hno := List.find?_eq_none.1 hfind e hmem
    simp [hsource, hext] at hno
  | some t =>
    have ht : h.world.registry.sessions.lookup t.id = some t :=
      (mem_snapshot hk).1 (List.mem_of_find?_eq_some hfind)
    have hsame : t.source = incoming.source ∧
        t.externalSessionId = incoming.externalSessionId := by
      simpa using List.find?_some hfind
    rw [hf.unique ht hs (hsame.1.trans hsource) (hsame.2.trans hext)]

end Found

/-! ## When an end converges -/

/-- The calls before the roots are reconciled. -/
def endCalls (e : AgentSession) : ℕ :=
  if e.status = .starting then 3 else 2

/-- The state in which the roots are reconciled. -/
def Sketch.afterEnd (sk : Sketch) (e incoming : AgentSession) : Sketch :=
  ((sk.change e.id fun _ => ended e (endOf incoming)).forget e.id).skip (endCalls e)

/-- The session is not stale, its integration reports events, and the roots of the sessions fit
after its end. -/
structure Converges (h : HostWorld) (e incoming : AgentSession) : Prop where
  live : e.status ≠ .stale
  reporting : Reporting h.world e.source e.externalSessionId
  settles : (h.sketch.afterEnd e incoming).settles = true

/-- The session has the status of an end. -/
def EndedAs (status : SessionStatus) (id : String) (w : World) : Prop :=
  ∃ t, w.registry.get id = some t ∧ t.status = status ∧ t.endedAtMs.isSome = true ∧
    t.attention = .none

section Ending

variable {h : HostWorld} {e incoming : AgentSession} {cfg : CoreConfig}

theorem Unrooted.endedAs {w w' : World} {status : SessionStatus} {id : String}
    (hu : Unrooted w w') (he : EndedAs status id w) : EndedAs status id w' := by
  obtain ⟨t, ht, hstatus, hended, hattention⟩ := he
  rcases hu.sessions ht with hs | ⟨-, hs⟩
  · exact ⟨t, hs, hstatus, hended, hattention⟩
  · exact ⟨t.withoutRoot, hs, hstatus, hended, hattention⟩

/-- A stale session is the only one that may not end, apart from one that just started. -/
theorem mayEnd_iff {source target : SessionStatus} (hopen : hasEnded source = false)
    (hstarting : source ≠ .starting) (hfinal : hasEnded target = true) :
    isValidTransition source target = true ↔ source ≠ .stale := by
  revert hopen hstarting hfinal
  cases source <;> cases target <;> decide

variable {Q : Unit → HostWorld → Prop} {E : HostFault → HostWorld → Prop}

/-- The last two steps of an end. -/
theorem wp_endAndForget (hk : Keyed h.world.registry)
    (hres : h.world.registry.resolveExternal incoming.source incoming.externalSessionId = some e)
    (hfinal : hasEnded incoming.status = true) (hE : ∀ f h', Denied f → E f h')
    (hbad : ¬ Endable h.world e (endOf incoming) →
      ∀ text, E (.rejected text) (h.called (h.world.entered h.env.core)))
    (hQ : Endable h.world e (endOf incoming) → ∀ h',
      Moved e.id (((h.sketch.change e.id fun _ => ended e (endOf incoming)).forget e.id).skip 1)
        h h' → Q () h') : wp (do sendEnd cfg incoming; unregisterSession e.id) h Q E := by
  rw [wp_bind]
  refine wp_sendEnd_outcome hk hres hfinal hE hbad fun hc h₁ _ hw => ?_
  have henvs : h₁.envs = fun n => h.envs (n + 1) := congrArg Sketch.envs hw.sketch
  refine hQ hc _ ⟨Sketch.ext hw.sessions hw.integrations ?_ henvs, hw.externalIndex, hw.later,
    hw.grows⟩
  have hmeasured : h₁.roots.map (·.sessionId) = h.roots.map (·.sessionId) :=
    congrArg Sketch.measured hw.sketch
  show (h₁.roots.filter _).map _ = (h.roots.map _).filter _
  rw [← hmeasured, List.filter_map]
  rfl

/-- The status of an end, as the commands leave it. -/
theorem wp_endExisting (hk : Keyed h.world.registry)
    (hres : h.world.registry.resolveExternal incoming.source incoming.externalSessionId = some e)
    (hfinal : hasEnded incoming.status = true) (hopen : hasEnded e.status = false)
    (hE : ∀ f h', Denied f → E f h')
    (hbad : ¬ (e.status ≠ .stale ∧ Reporting h.world incoming.source incoming.externalSessionId) →
      ∀ text, E (.rejected text) (h.called (h.world.entered h.env.core)))
    (hQ : e.status ≠ .stale → Reporting h.world incoming.source incoming.externalSessionId →
      ∀ h', Moved e.id (((h.sketch.change e.id fun _ => ended e (endOf incoming)).forget
        e.id).skip (endCalls e - 1)) h h' → Q () h') :
    wp (updateExisting cfg incoming e) h Q E := by
  simp only [updateExisting, hfinal, hopen, Bool.not_true, Bool.false_eq_true, if_false,
    Bool.not_false, onlyIf, if_true]
  by_cases hstarting : e.status = .starting
  · -- the end follows an update to running
    have hlive : e.status ≠ .stale := by
      rw [hstarting]
      decide
    simp only [hstarting, decide_true, if_true]
    rw [wp_bind]
    refine wp_sendUpdate_outcome hk hres hE (fun hno f => ?_) fun hc h₁ _ hw => ?_
    · have hsilent : ¬ Reporting h.world incoming.source incoming.externalSessionId := by
        refine fun hr => hno ⟨hr, rfl, rfl, ?_⟩
        rintro ⟨status, hstatus, hinvalid⟩
        cases hstatus
        rw [hstarting] at hinvalid
        cases hinvalid
      exact ⟨fun hr => absurd hr hsilent, fun _ => hbad (fun hboth => hsilent hboth.2) _⟩
    · have hreporting : Reporting h.world incoming.source incoming.externalSessionId := hc.reports
      refine wp_endAndForget (e := updated e (updateOf incoming .running none none))
        (hw.keyed hk rfl) (hw.resolve hk hres) hfinal hE (fun hno => ?_) fun _ h' hm => ?_
      · refine absurd ⟨hw.reporting.2 hreporting, ?_⟩ hno
        have hrunning : hasEnded .running = false := rfl
        exact (mayEnd_iff hrunning (by decide) hfinal).2 (by decide)
      · refine hQ hlive hreporting h' ⟨?_, hm.externalIndex.trans hw.externalIndex,
          hw.later.trans hm.later, fun k => (hw.grows k).trans (hm.grows k)⟩
        rw [hm.sketch, hw.sketch, endCalls, if_pos hstarting]
        refine Sketch.ext ?_ rfl rfl rfl
        exact Dict.adjust_adjust _ _ _ _
  · simp only [hstarting, decide_false, Bool.false_eq_true, if_false, pure_bind]
    have hends : Endable h.world e (endOf incoming) ↔
        e.status ≠ .stale ∧ Reporting h.world incoming.source incoming.externalSessionId := by
      have hiff := mayEnd_iff hopen hstarting hfinal
      exact ⟨fun hc => ⟨hiff.1 hc.valid, hc.reports⟩, fun hc => ⟨hc.2, hiff.2 hc.1⟩⟩
    refine wp_endAndForget hk hres hfinal hE (fun hno => hbad (fun hc => hno (hends.2 hc)))
      fun hc h' hm => ?_
    refine hQ (hends.1 hc).1 (hends.1 hc).2 h' ?_
    rw [endCalls, if_neg hstarting]
    exact hm

/-- An end from its first call to its last. -/
theorem wp_ingestEnd (hk : Keyed h.world.registry) (hf : Findable h.world.registry)
    (hs : h.world.registry.sessions.lookup e.id = some e)
    (hsource : incoming.source = e.source)
    (hext : incoming.externalSessionId = e.externalSessionId)
    (hfinal : hasEnded incoming.status = true) (hopen : hasEnded e.status = false)
    (hroot : incoming.processRoot = none) (hattention : incoming.attention = .none)
    (hterminal : incoming.verifiedTerminal = none) :
    wp (ingestNormalized cfg (.sessionUpsert incoming)) h
      (fun _ h' => Converges h e incoming ∧ EndedAs incoming.status e.id h'.world)
      (fun f _ => Denied f ∨ ¬ Converges h e incoming) := by
  have hexisting := existing_eq hk hf hs hsource hext
  have hres : h.world.registry.resolveExternal incoming.source incoming.externalSessionId =
      some e := by
    rw [hsource, hext]
    exact hf.resolve hs
  simp only [ingestNormalized, ingestSessionUpsert, validatedRoot, hroot, registerRoot,
    reportAttention, hattention, hterminal, reportTerminal, wp_bind, wp_snapshotSessions, wp_pure,
    snapshot_sketch, ne_eq, not_true, decide_false]
  rw [show (h.sketch.snapshot.find? fun s => s.source = incoming.source ∧
    s.externalSessionId = incoming.externalSessionId) = some e from hexisting]
  rw [wp_bind]
  refine wp_endExisting (h := h.called h.world) hk hres hfinal hopen (fun f h' hd => Or.inl hd)
    (fun hno f => Or.inr ?_) fun hlive hreporting h₁ hm => ?_
  · rintro ⟨hlive, hreporting, -⟩
    rw [← hsource, ← hext] at hreporting
    exact hno ⟨hlive, hreporting⟩
  · have hended : EndedAs incoming.status e.id h₁.world :=
      ⟨_, hm.lookup rfl hs, rfl, rfl, rfl⟩
    have hafter : h₁.sketch = h.sketch.afterEnd e incoming := by
      rw [hm.sketch]
      refine Sketch.ext rfl rfl rfl (funext fun n => ?_)
      show h.envs (n + (endCalls e - 1) + 1) = h.envs (n + endCalls e)
      unfold endCalls
      split <;> rfl
    have hconverges : Converges h e incoming ↔ h₁.sketch.settles = true := by
      rw [hafter]
      refine ⟨fun hc => hc.settles, fun hc => ⟨hlive, ?_, hc⟩⟩
      rw [← hsource, ← hext]
      exact hreporting
    refine wp_mono (wp_finish (h := h₁) (hm.keyed rfl hk rfl)) ?_ ?_
    · rintro _ h' ⟨hsettles, hunrooted, -⟩
      exact ⟨hconverges.2 hsettles, hunrooted.endedAs hended⟩
    · rintro f h' (hd | ⟨-, hsettles, -⟩)
      · exact Or.inl hd
      · refine Or.inr fun hc => ?_
        rw [hconverges.1 hc] at hsettles
        cases hsettles

end Ending

/-! ## Payloads that end a session -/

/-- The status a payload asks for that ends a session. -/
def requestedEnd (payload : IngestPayload) : SessionStatus :=
  (parseStatus payload).getD .completed

theorem normalizeIngest_ended {stableId : AgentSource → String → String} {payload : IngestPayload}
    {nowMs : ℤ} {uuid : ℕ} {n : NormalizedIngest} {source : AgentSource} {target : String}
    (hn : normalizeIngest stableId payload nowMs uuid = .ok n)
    (hsource : parseSource payload.source = .ok source) (htarget : payload.target = some target)
    (hkind : payloadKind (RustText.asciiLowercase payload.event) = some .ended) :
    ∃ incoming, n = .sessionUpsert incoming ∧ incoming.source = source ∧
      incoming.externalSessionId = target ∧ incoming.status = requestedEnd payload ∧
      incoming.processRoot = processRootOf payload ∧
      incoming.attention = (parseAttention payload).getD .none ∧
      incoming.verifiedTerminal = verifiedTerminalFromIngest payload := by
  unfold IngestPayload.target at htarget
  simp only [normalizeIngest, hsource, hkind, buildSession, htarget] at hn
  cases hn
  exact ⟨_, rfl, rfl, rfl, rfl, rfl, rfl, rfl⟩

/-- In every reachable state, a payload that ends a session which has not ended returns and leaves
the session ended as requested exactly if the session is not stale, the integration of its source
reports events, and the roots of the sessions fit, unless a call of the repository fails. -/
theorem end_converges_iff {cfg : CoreConfig} {env : Env} {settings : PublicSettings}
    {db : Database} {s₀ s : CoreState} {acts : List CoreAct} (hdb : DistinctRows db.sessions)
    (hstart : startCore cfg env settings db = some s₀)
    (hrun : run (coreStep cfg) s₀ acts = some s) {h : HostWorld} (hworld : h.world = s.world)
    {id : String} {e : AgentSession} (hstored : h.world.registry.get id = some e)
    (hopen : hasEnded e.status = false)
    {stableId : AgentSource → String → String} {payload : IngestPayload} {nowMs : ℤ} {uuid : ℕ}
    (hsource : parseSource payload.source = .ok e.source)
    (htarget : payload.target = some e.externalSessionId)
    (hkind : payloadKind (RustText.asciiLowercase payload.event) = some .ended)
    (hroot : processRootOf payload = none) (hattention : parseAttention payload = none)
    (hterminal : verifiedTerminalFromIngest payload = none)
    (hstatus : hasEnded (requestedEnd payload) = true) {incoming : AgentSession}
    (hn : normalizeIngest stableId payload nowMs uuid = .ok (.sessionUpsert incoming))
    (hrepo : ∀ text h', ingestNormalized cfg (.sessionUpsert incoming) h =
      .error (.rejected text) h' → text ∉ sqliteErrors) :
    (∃ h', ingestNormalized cfg (.sessionUpsert incoming) h = .ok () h' ∧
      EndedAs (requestedEnd payload) id h'.world) ↔ Converges h e incoming := by
  have hk : Keyed h.world.registry := hworld ▸ keyed_run hstart hrun
  have hf : Findable h.world.registry := hworld ▸ findable_run hdb hstart hrun
  obtain rfl := hk.id hstored
  obtain ⟨_, hsame, hsource', hext, hstatus', hroot', hattention', hterminal'⟩ :=
    normalizeIngest_ended hn hsource htarget hkind
  obtain rfl := NormalizedIngest.sessionUpsert.inj hsame
  rw [← hstatus'] at hstatus ⊢
  have hwp : wp (ingestNormalized cfg (.sessionUpsert incoming)) h _ _ := wp_ingestEnd hk hf hstored hsource' hext hstatus hopen
    (hroot'.trans hroot) (by rw [hattention', hattention]; rfl) (hterminal'.trans hterminal)
  constructor
  · rintro ⟨h', hexec, -⟩
    exact (wp_ok hwp hexec).1
  · intro hc
    cases hexec : ingestNormalized cfg (.sessionUpsert incoming) h with
    | ok a h' => exact ⟨h', rfl, (wp_ok hwp hexec).2⟩
    | error f h' =>
      rcases wp_error hwp hexec with ⟨text, htext, rfl⟩ | hno
      · exact absurd htext (hrepo text h' hexec)
      · exact absurd hc hno

/-- A payload that ends the generic session. -/
def endPayload : IngestPayload :=
  samplePayload "generic" "end" none (some "e")

/-- What it becomes. -/
def incomingEnd : AgentSession :=
  { AppCore.newSession (sampleStart .generic "e") (sampleCoreConfig.sessionIdFor .generic "e") with
    label := "Agent session"
    status := .completed
    endedAtMs := some 0 }

theorem normalize_endPayload :
    normalizeIngest externalKey endPayload 0 0 = .ok (.sessionUpsert incomingEnd) := by
  decide

/-- The end of a running session converges. -/
theorem end_converges_running : ∃ s₀ s e,
    startCore sampleCoreConfig {} sampleSettings { integrations := sampleIntegrations } =
      some s₀ ∧
    run (coreStep sampleCoreConfig) s₀ startedRun = some s ∧
    s.world.registry.get "Generic:e" = some e ∧ e.status = .running ∧
    Converges (sampleHost s.world) e incomingEnd := by
  have hrun : ((startCore sampleCoreConfig {} sampleSettings
      { integrations := sampleIntegrations }).bind fun s₀ =>
        (run (coreStep sampleCoreConfig) s₀ startedRun).bind fun s =>
          (s.world.registry.get "Generic:e").bind fun e =>
            (returnedState (ingestNormalized sampleCoreConfig (.sessionUpsert incomingEnd)
              (sampleHost s.world))).map fun h' => (e.source, e.externalSessionId, e.status,
                (h'.world.registry.get "Generic:e").any fun t =>
                  decide (t.status = .completed ∧ t.endedAtMs.isSome = true ∧
                    t.attention = .none))) =
      some (.generic, "e", .running, true) := by
    decide +kernel
  obtain ⟨s₀, hs₀, hrun⟩ := Option.bind_eq_some_iff.1 hrun
  obtain ⟨s, hs, hrun⟩ := Option.bind_eq_some_iff.1 hrun
  obtain ⟨e, he, hrun⟩ := Option.bind_eq_some_iff.1 hrun
  obtain ⟨h', hreturned, hvalues⟩ := Option.map_eq_some_iff.1 hrun
  obtain ⟨u, hexec⟩ := returnedState_eq_some.1 hreturned
  simp only [Prod.mk.injEq] at hvalues
  obtain ⟨hsource, hext, hstatus, ht⟩ := hvalues
  obtain ⟨t, ht, hvalues⟩ := (Option.any_eq_true _ _).1 ht
  have hvalues := of_decide_eq_true hvalues
  have hsource' : parseSource endPayload.source = .ok e.source := by
    rw [hsource]
    decide
  refine ⟨s₀, s, e, hs₀, hs, he, hstatus, ?_⟩
  refine (end_converges_iff (h := sampleHost s.world) ⟨by simp, by simp⟩ hs₀ hs rfl he
    (by rw [hstatus]; rfl) hsource' (by rw [hext]; rfl) (by decide) rfl rfl rfl
    (by decide) normalize_endPayload ?_).1 ⟨h', hexec, t, ht, hvalues.1, hvalues.2.1, hvalues.2.2⟩
  intro text h'' herror
  rw [hexec] at herror
  cases herror

/-- The session, half an hour later. -/
def staleRun : List CoreAct :=
  startedRun ++ CoreAct.perform 1 .tick { now := staleSessionMs }

/-- The end of a stale session is rejected, and the session stays stale. -/
theorem stale_end_rejected : ∃ s₀ s e h',
    startCore sampleCoreConfig {} sampleSettings { integrations := sampleIntegrations } =
      some s₀ ∧
    run (coreStep sampleCoreConfig) s₀ staleRun = some s ∧
    s.world.registry.get "Generic:e" = some e ∧ hasEnded e.status = false ∧
    parseSource endPayload.source = .ok e.source ∧
    endPayload.target = some e.externalSessionId ∧
    payloadKind (RustText.asciiLowercase endPayload.event) = some .ended ∧
    processRootOf endPayload = none ∧ parseAttention endPayload = none ∧
    verifiedTerminalFromIngest endPayload = none ∧ requestedEnd endPayload = .completed ∧
    normalizeIngest externalKey endPayload 0 0 = .ok (.sessionUpsert incomingEnd) ∧
    ingestNormalized sampleCoreConfig (.sessionUpsert incomingEnd) (sampleHost s.world) =
      .error (.rejected "invalid transition: Stale -> Completed") h' ∧
    ¬ EndedAs (requestedEnd endPayload) "Generic:e" h'.world := by
  have hrun : ((startCore sampleCoreConfig {} sampleSettings
      { integrations := sampleIntegrations }).bind fun s₀ =>
        (run (coreStep sampleCoreConfig) s₀ staleRun).bind fun s =>
          (s.world.registry.get "Generic:e").bind fun e =>
            (failedState (ingestNormalized sampleCoreConfig (.sessionUpsert incomingEnd)
              (sampleHost s.world))).map fun failed =>
                (e.source, e.externalSessionId, e.status, failed.1,
                  (failed.2.world.registry.get "Generic:e").map (·.status))) =
      some (.generic, "e", .stale, .rejected "invalid transition: Stale -> Completed",
        some .stale) := by
    decide
  obtain ⟨s₀, hs₀, hrun⟩ := Option.bind_eq_some_iff.1 hrun
  obtain ⟨s, hs, hrun⟩ := Option.bind_eq_some_iff.1 hrun
  obtain ⟨e, he, hrun⟩ := Option.bind_eq_some_iff.1 hrun
  obtain ⟨⟨f, h'⟩, hfailed, hvalues⟩ := Option.map_eq_some_iff.1 hrun
  have hexec := failedState_eq_some.1 hfailed
  simp only [Prod.mk.injEq] at hvalues
  obtain ⟨hsource, hext, hstatus, rfl, hafter⟩ := hvalues
  refine ⟨s₀, s, e, h', hs₀, hs, he, by rw [hstatus]; rfl, by rw [hsource]; decide,
    by rw [hext]; rfl, by decide, rfl, rfl, rfl, rfl, normalize_endPayload, hexec, ?_⟩
  rintro ⟨t, ht, hcompleted, -⟩
  rw [ht] at hafter
  rw [Option.map_some, hcompleted] at hafter
  exact absurd hafter (by decide)

end Host

end LlmNotch
