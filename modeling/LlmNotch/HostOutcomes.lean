import LlmNotch.RootReconcile

/-!
# What the commands of an ingest come to

The outcomes of the commands the host sends to the core, in terms of sketches : a command that
is carried out writes one session (`Wrote`), and on what condition it is carried out is known
before (`Reporting`, `Endable`, `Updatable`). The session a command names keeps its source, its
external identifier and its place in the index, so the commands of one ingest all reach it.
-/

namespace LlmNotch

namespace Host

open AppCore

/-! ## Written sessions -/

/-- A call wrote `t` at `id` and recorded an event of it. -/
structure Wrote (id : String) (t : AgentSession) (h h' : HostWorld) : Prop where
  sketch : h'.sketch = (h.sketch.change id fun _ => t).skip 1
  externalIndex : h'.world.registry.externalIndex = h.world.registry.externalIndex
  later : h.world.registry.nextEventSequence id < h'.world.registry.nextEventSequence id
  grows : ∀ k, h.world.registry.nextEventSequence k ≤ h'.world.registry.nextEventSequence k

section Wrote

variable {id : String} {s t : AgentSession} {h h' : HostWorld} {cfg : CoreConfig}

theorem Wrote.sessions (hw : Wrote id t h h') :
    h'.world.registry.sessions = h.world.registry.sessions.adjust id fun _ => t :=
  congrArg Sketch.sessions hw.sketch

theorem Wrote.integrations (hw : Wrote id t h h') :
    h'.world.inner.integrations = h.world.inner.integrations :=
  congrArg Sketch.integrations hw.sketch

theorem Wrote.lookup (hw : Wrote id t h h') (hs : h.world.registry.sessions.lookup id = some s) :
    h'.world.registry.sessions.lookup id = some t := by
  rw [hw.sessions, Dict.lookup_adjust, if_pos rfl, hs]
  rfl

theorem keyed_change {r r' : SessionRegistry} (hk : Keyed r)
    (hr : r'.sessions = r.sessions.adjust id fun _ => t) (hid : t.id = id) : Keyed r' := by
  refine ⟨fun {i u} hu => ?_, ?_⟩
  · rw [hr, Dict.lookup_adjust] at hu
    split at hu
    · rename_i hi
      obtain ⟨v, -, rfl⟩ := Option.map_eq_some_iff.1 hu
      rw [hi, hid]
    · exact hk.id hu
  · rw [SessionRegistry.len, hr, Dict.adjust, Dict.size_mapEntries]
    exact hk.bounded

theorem Wrote.keyed (hw : Wrote id t h h') (hk : Keyed h.world.registry) (hid : t.id = id) :
    Keyed h'.world.registry :=
  keyed_change hk hw.sessions hid

variable {source : AgentSource} {externalSessionId : String}

/-- A command still reaches the session. -/
theorem Wrote.resolve (hw : Wrote s.id t h h') (hk : Keyed h.world.registry)
    (hres : h.world.registry.resolveExternal source externalSessionId = some s) :
    h'.world.registry.resolveExternal source externalSessionId = some t := by
  obtain ⟨id, hindex, hid⟩ := Option.bind_eq_some_iff.1 hres
  obtain rfl := hk.id hid
  rw [SessionRegistry.resolveExternal, hw.externalIndex, hindex]
  exact hw.lookup hid

theorem Wrote.reporting (hw : Wrote id t h h') :
    Reporting h'.world source externalSessionId ↔ Reporting h.world source externalSessionId :=
  ⟨fun hr => hr.congr hw.integrations.symm, fun hr => hr.congr hw.integrations⟩

theorem reporting_entered {w : World} {env : Env} :
    Reporting (w.entered env) source externalSessionId ↔ Reporting w source externalSessionId :=
  ⟨fun hr => hr.congr rfl, fun hr => hr.congr rfl⟩

/-- A command the core carries out or refuses. -/
theorem wp_sent_outcome (command : IngestCommand) {c : Prop} {Q : Unit → HostWorld → Prop}
    {E : HostFault → HostWorld → Prop} {Ec : Fault → World → Prop}
    (hcore : wp (handleIngest cfg h.env.core command) (h.world.entered h.env.core)
      (fun _ w' => c ∧ Noted id ((h.world.entered h.env.core).withSession id t) w') Ec)
    (hE : ∀ f w', Ec f w' → E (hostFault f) (h.called w'))
    (hQ : c → ∀ h', h'.roots = h.roots → Wrote id t h h' → Q () h') :
    wp (do let _ ← ingestCore cfg command) h Q E := by
  rw [wp_bind, ingestCore, wp_callCore, AppCore.ingest, wp_bind]
  refine wp_mono hcore (fun r w' hw' => ?_) hE
  have hf := hw'.2.flush h.env.core
  exact hQ hw'.1 _ rfl ⟨Sketch.ext hf.sessions hf.integrations rfl rfl, hf.externalIndex, hf.later,
    hf.grows⟩

end Wrote

/-! ## Updates and ends -/

/-- The end of a session the host sends. -/
def endOf (incoming : AgentSession) : SessionEndCommand where
  source := incoming.source
  externalSessionId := incoming.externalSessionId
  status := incoming.status
  occurredAtMs := incoming.lastEventAtMs
  summary := some "Session ended"

/-- The update of a session the host sends. -/
def updateOf (incoming : AgentSession) (status : SessionStatus)
    (label workspaceLabel : Option String) : SessionUpdateCommand where
  source := incoming.source
  externalSessionId := incoming.externalSessionId
  status := some status
  label := label
  workspaceLabel := workspaceLabel
  occurredAtMs := incoming.lastEventAtMs

section Commands

variable {cfg : CoreConfig} {h : HostWorld} {incoming s : AgentSession}
  {Q : Unit → HostWorld → Prop} {E : HostFault → HostWorld → Prop}

theorem endable_entered {w : World} {env : Env} {cmd : SessionEndCommand} :
    Endable (w.entered env) s cmd ↔ Endable w s cmd :=
  ⟨fun h => ⟨reporting_entered.1 h.reports, h.valid⟩,
    fun h => ⟨reporting_entered.2 h.reports, h.valid⟩⟩

theorem updatable_entered {w : World} {env : Env} {cmd : SessionUpdateCommand} :
    Updatable (w.entered env) s cmd ↔ Updatable w s cmd :=
  ⟨fun h => ⟨reporting_entered.1 h.reports, h.label, h.workspaceLabel, h.status⟩,
    fun h => ⟨reporting_entered.2 h.reports, h.label, h.workspaceLabel, h.status⟩⟩

theorem validate_sessionEnded : validateEventSummary "Session ended" = .ok () := by
  decide

theorem wp_sendEnd_outcome (hk : Keyed h.world.registry)
    (hres : h.world.registry.resolveExternal incoming.source incoming.externalSessionId = some s)
    (hfinal : hasEnded incoming.status = true)
    (hE : ∀ f h', Denied f → E f h')
    (hbad : ¬ Endable h.world s (endOf incoming) →
      ∀ text, E (.rejected text) (h.called (h.world.entered h.env.core)))
    (hQ : Endable h.world s (endOf incoming) → ∀ h', h'.roots = h.roots →
      Wrote s.id (ended s (endOf incoming)) h h' → Q () h') :
    wp (sendEnd cfg incoming) h Q E := by
  have hstatus : (endOf incoming).status = .completed ∨ (endOf incoming).status = .failed := by
    show incoming.status = _ ∨ incoming.status = _
    revert hfinal
    cases incoming.status <;> simp [hasEnded]
  refine wp_sent_outcome (.sessionEnd (endOf incoming))
    (wp_sessionEnd_outcome hk hres hstatus validate_sessionEnded fun hc _ _ hw => ⟨hc, hw⟩) ?_
    fun hc => hQ (endable_entered.1 hc)
  rintro f w' (hf | ⟨⟨e, rfl⟩, hno, rfl⟩)
  · exact hE _ _ (denied_of_storeFails hf)
  · exact hbad (fun hc => hno (endable_entered.2 hc)) _

/-- An update leaves the labels it assigned if it is refused after that. -/
theorem wp_sendUpdate_outcome {status : SessionStatus} {label workspaceLabel : Option String}
    (hk : Keyed h.world.registry)
    (hres : h.world.registry.resolveExternal incoming.source incoming.externalSessionId = some s)
    (hE : ∀ f h', Denied f → E f h')
    (hbad : ¬ Updatable h.world s (updateOf incoming status label workspaceLabel) → ∀ text,
      (Reporting h.world incoming.source incoming.externalSessionId →
        E (.rejected text) (h.called ((h.world.entered h.env.core).withSession s.id
          (leftover s (updateOf incoming status label workspaceLabel))))) ∧
      (¬ Reporting h.world incoming.source incoming.externalSessionId →
        E (.rejected text) (h.called (h.world.entered h.env.core))))
    (hQ : Updatable h.world s (updateOf incoming status label workspaceLabel) →
      ∀ h', h'.roots = h.roots →
        Wrote s.id (updated s (updateOf incoming status label workspaceLabel)) h h' → Q () h') :
    wp (sendUpdate cfg incoming status label workspaceLabel) h Q E := by
  refine wp_sent_outcome (.sessionUpdate (updateOf incoming status label workspaceLabel))
    (wp_sessionUpdate_outcome hk hres fun hc _ _ hw => ⟨hc, hw⟩) ?_
    fun hc => hQ (updatable_entered.1 hc)
  rintro f w' ⟨hreporting, hsilent⟩
  by_cases hr : Reporting h.world incoming.source incoming.externalSessionId
  · rcases hreporting (reporting_entered.2 hr) with hf | ⟨⟨e, rfl⟩, hno, rfl⟩
    · exact hE _ _ (denied_of_storeFails hf)
    · exact (hbad (fun hc => hno (updatable_entered.2 hc)) _).1 hr
  · rcases hsilent (fun hc => hr (reporting_entered.1 hc)) with hf | ⟨⟨e, rfl⟩, hno, rfl⟩
    · exact hE _ _ (denied_of_storeFails hf)
    · exact (hbad (fun hc => hno (updatable_entered.2 hc)) _).2 hr

/-- The call was refused with a text. -/
def Refusal (f : HostFault) : Prop :=
  ∃ text, f = .rejected text

/-- The program does not panic. -/
def Refuses {α : Type} (m : HostM α) : Prop :=
  ∀ h, wp m h (fun _ _ => True) fun f _ => Refusal f

theorem Refuses.bind {α β : Type} {m : HostM α} {f : α → HostM β} (hm : Refuses m)
    (hf : ∀ a, Refuses (f a)) : Refuses (m >>= f) := by
  intro h
  rw [wp_bind]
  exact wp_mono (hm h) (fun a h' _ => hf a h') fun _ _ h => h

theorem refuses_onlyIf {c : Bool} {m : HostM Unit} (hm : Refuses m) : Refuses (onlyIf c m) := by
  intro h
  rw [wp_onlyIf]
  exact ⟨fun _ => hm h, fun _ => trivial⟩

theorem refuses_forM {α : Type} {xs : List α} {f : α → HostM Unit} (hf : ∀ x, Refuses (f x)) :
    Refuses (xs.forM f) :=
  fun _ => wp_forM (I := fun _ => True) _ _ (fun x _ h _ => hf x h) trivial

theorem refuses_foldlM {α β : Type} {xs : List α} {f : β → α → HostM β} {b : β}
    (hf : ∀ b x, Refuses (f b x)) : Refuses (xs.foldlM f b) := by
  induction xs generalizing b with
  | nil => exact fun _ => trivial
  | cons x xs ih =>
    rw [List.foldlM_cons]
    exact (hf b x).bind fun _ => ih

variable {attribution : AttributionQuality} {source : AgentSource}

theorem refuses_registerSession {id : String} {root : ProcessIdentity} {atMs : ℤ} :
    Refuses (registerSession id root attribution atMs) := by
  intro h
  simp only [registerSession, unregisterSession, wp_bind, wp_modify, wp_get]
  split
  · exact ⟨_, rfl⟩
  · trivial

theorem refuses_dropRoot {id : String} : Refuses (dropRoot id) := by
  intro h
  unfold dropRoot unregisterSession
  rw [wp_bind, wp_modify, wp_callCore]
  refine wp_check_bind (fun _ e => ⟨_, rfl⟩) fun _ => ?_
  simp only [storedSession, wp_bind, wp_get, wp_okOr, wp_onlyIf]
  refine ⟨fun s _ => ⟨fun _ => ?_, fun _ => trivial⟩, fun _ => ⟨_, rfl⟩⟩
  refine wp_mono (wp_publish_outcome fun _ _ => trivial) (fun _ _ h => h) ?_
  rintro f w' ⟨detail, -, rfl⟩
  exact ⟨detail, rfl⟩

theorem refuses_setAdapter {current : List AdapterCapabilities} :
    Refuses (setAdapterAttributionWithSnapshot cfg source attribution current) := by
  intro h
  unfold setAdapterAttributionWithSnapshot
  split
  · exact ⟨_, rfl⟩
  · dsimp only
    split
    · trivial
    · simp only [wp_bind, wp_get, ingestCore, wp_callCore, wp_pure, AppCore.ingest,
        AppCore.handleIngest]
      refine wp_mono (wp_integrationHealth_outcome fun _ _ _ _ _ _ => trivial) (fun _ _ h => h) ?_
      rintro f w' ⟨detail, -, rfl⟩
      exact ⟨detail, rfl⟩

/-- The pass over the roots does not panic. -/
theorem refuses_reconcileMetricRoots : Refuses (reconcileMetricRoots cfg) := by
  have hsnapshot : ∀ {α : Type} {f : List AgentSession → HostM α}, (∀ a, Refuses (f a)) →
      Refuses (snapshotSessions >>= f) := fun hf h => hf _ _
  have hsession : ∀ registered valid session,
      Refuses (reconcileSession registered valid session) := by
    intro registered valid session
    unfold reconcileSession
    split
    · exact fun _ => trivial
    · split
      · exact refuses_dropRoot.bind fun _ _ => trivial
      · refine Refuses.bind (fun _ => trivial) fun observed => ?_
        split
        · exact refuses_dropRoot.bind fun _ _ => trivial
        · unfold keepRoot
          dsimp only
          split
          · exact fun _ => trivial
          · exact (refuses_onlyIf refuses_registerSession).bind fun _ _ => trivial
  unfold reconcileMetricRoots
  refine hsnapshot fun sessions => Refuses.bind (fun _ => trivial) fun h =>
    (refuses_foldlM fun valid session => hsession _ valid session).bind fun valid => ?_
  refine Refuses.bind (refuses_forM fun _ => refuses_onlyIf fun _ => trivial) fun _ => ?_
  unfold reconcileAdapterAttribution
  exact Refuses.bind (fun _ => trivial) fun _ => refuses_forM fun _ => refuses_setAdapter

open Unrooted in
/-- The last two steps of an ingest that starts or updates a session. -/
theorem wp_finish {atMs : ℤ} (hk : Keyed h.world.registry) :
    wp (do recordConnectorTraffic source atMs; reconcileMetricRoots cfg) h
      (fun _ h' => h.sketch.settles = true ∧ Unrooted h.world h'.world ∧
        Forgot h.sketch.drops h.world h'.world)
      (fun f h' => Denied f ∨ Refusal f ∧ h.sketch.settles = false ∧ Unrooted h.world h'.world ∧
        Forgot h.sketch.drops h.world h'.world) := by
  have hboth : ∀ {h₁ : HostWorld}, h₁.sketch = h.sketch → h₁.world = h.world →
      wp (reconcileMetricRoots cfg) h₁
        (fun _ h' => h.sketch.settles = true ∧ Unrooted h.world h'.world ∧
          Forgot h.sketch.drops h.world h'.world)
        (fun f h' => Denied f ∨ Refusal f ∧ h.sketch.settles = false ∧
          Unrooted h.world h'.world ∧ Forgot h.sketch.drops h.world h'.world) := by
    intro h₁ hsketch hworld
    have hpass : wp (reconcileMetricRoots cfg) h₁ _ _ :=
      wp_reconcileMetricRoots_outcome (hworld ▸ hk)
    rw [hsketch, hworld] at hpass
    refine wp_mono (wp_and hpass (refuses_reconcileMetricRoots h₁)) (fun _ _ h => h.1) ?_
    rintro f h' ⟨hd | hno, hf⟩
    · exact Or.inl hd
    · exact Or.inr ⟨hf, hno⟩
  rw [wp_bind, recordConnectorTraffic, wp_onlyIf, wp_modify]
  exact ⟨fun _ => hboth rfl rfl, fun _ => hboth rfl rfl⟩

end Commands

/-! ## The other steps of an ingest -/

/-- The command that registers the process of a session. -/
def rootOf (incoming : AgentSession) (observed : ProcessIdentity) : ProcessRootCommand where
  source := incoming.source
  externalSessionId := incoming.externalSessionId
  processRoot := observed
  occurredAtMs := incoming.lastEventAtMs

/-- The command that reports the attention of a session. -/
def attentionOfSession (incoming : AgentSession) : AttentionCommand where
  source := incoming.source
  externalSessionId := incoming.externalSessionId
  attention := incoming.attention
  level := if incoming.attention = .error then .error else .warning
  summary := "Attention observed by local integration"
  occurredAtMs := incoming.lastEventAtMs

namespace Sketch

/-- The integration of the source is the shipped one, with the attribution. -/
def credit (sk : Sketch) (source : AgentSource) (attribution : AttributionQuality) : Sketch :=
  match builtinAdapterCapabilities.find? (·.source = source) with
  | none => sk.skip 1
  | some template =>
    if sk.integrations.find? (·.source = source) =
        some { template with processAttribution := attribution } then sk.skip 1
    else { sk.skip 2 with
      integrations :=
        upsertCapabilities { template with processAttribution := attribution } sk.integrations }

/-- The root of the session is measured. -/
@[simps]
def measure (sk : Sketch) (id : String) : Sketch :=
  { sk with measured := sk.measured.filter (· ≠ id) ++ [id] }

/-- There is room to measure the root of the session. -/
def Room (sk : Sketch) (id : String) : Prop :=
  (sk.measured.filter (· ≠ id)).length < maxActiveRoots

end Sketch

/-- Calls led to the sketch and recorded an event of session `id`. -/
structure Moved (id : String) (sk : Sketch) (h h' : HostWorld) : Prop where
  sketch : h'.sketch = sk
  externalIndex : h'.world.registry.externalIndex = h.world.registry.externalIndex
  later : h.world.registry.nextEventSequence id < h'.world.registry.nextEventSequence id
  grows : ∀ k, h.world.registry.nextEventSequence k ≤ h'.world.registry.nextEventSequence k

namespace Moved

variable {s t : AgentSession} {sk : Sketch} {h h' : HostWorld}

theorem lookup (hm : Moved s.id sk h h') (hsk : sk.sessions = h.sketch.sessions.adjust s.id fun _ => t)
    (hs : h.world.registry.sessions.lookup s.id = some s) :
    h'.world.registry.sessions.lookup s.id = some t := by
  have hsessions : h'.world.registry.sessions = sk.sessions := congrArg Sketch.sessions hm.sketch
  rw [hsessions, hsk, Dict.lookup_adjust, if_pos rfl]
  show Option.map _ (h.world.registry.sessions.lookup s.id) = _
  rw [hs]
  rfl

theorem keyed (hm : Moved s.id sk h h')
    (hsk : sk.sessions = h.sketch.sessions.adjust s.id fun _ => t) (hk : Keyed h.world.registry)
    (hid : t.id = s.id) : Keyed h'.world.registry := by
  have hsessions : h'.world.registry.sessions = sk.sessions := congrArg Sketch.sessions hm.sketch
  exact keyed_change hk (hsessions.trans hsk) hid

theorem resolve (hm : Moved s.id sk h h')
    (hsk : sk.sessions = h.sketch.sessions.adjust s.id fun _ => t) (hk : Keyed h.world.registry)
    {source : AgentSource} {externalSessionId : String}
    (hres : h.world.registry.resolveExternal source externalSessionId = some s) :
    h'.world.registry.resolveExternal source externalSessionId = some t := by
  obtain ⟨id, hindex, hid⟩ := Option.bind_eq_some_iff.1 hres
  obtain rfl := hk.id hid
  rw [SessionRegistry.resolveExternal, hm.externalIndex, hindex]
  exact hm.lookup hsk hid

end Moved

theorem find_upsertCapabilities (c : AdapterCapabilities) (all : List AdapterCapabilities) :
    (upsertCapabilities c all).find? (·.source = c.source) = some c := by
  unfold upsertCapabilities
  split
  · rename_i i hi
    induction all generalizing i with
    | nil => cases hi
    | cons b all ih =>
      rw [List.findIdx?_cons] at hi
      split at hi
      · cases hi
        simp
      · rename_i hb
        obtain ⟨j, hj, rfl⟩ := Option.map_eq_some_iff.1 hi
        rw [List.set_cons_succ, List.find?_cons_of_neg (by simpa using hb)]
        exact ih j hj
  · rename_i hnone
    have hno : all.find? (fun b => decide (b.source = c.source)) = none := by
      rw [List.find?_eq_none]
      intro b hb hsource
      have hfalse := List.findIdx?_eq_none_iff.1 hnone b hb
      rw [hsource] at hfalse
      cases hfalse
    rw [List.find?_append, hno]
    simp

section Steps

variable {cfg : CoreConfig} {h : HostWorld} {incoming s : AgentSession}
  {Q : Unit → HostWorld → Prop} {E : HostFault → HostWorld → Prop}

variable {source : AgentSource} {attribution : AttributionQuality}

theorem find_builtin (hsource : source ≠ .unknown) :
    ∃ template, builtinAdapterCapabilities.find? (·.source = source) = some template ∧
      template.source = source := by
  cases source <;> first | exact absurd rfl hsource | exact ⟨_, rfl, rfl⟩

/-- The integration of a source is set, and attributes processes then. -/
theorem wp_setAdapterAttribution_outcome (hsource : source ≠ .unknown)
    (hattribution : attribution ≠ .unknown) (hE : ∀ f h', Denied f → E f h')
    (hQ : ∀ h', h'.sketch = h.sketch.credit source attribution →
      SameRegistry h.world.registry h'.world.registry → h'.roots = h.roots →
      (∃ c, h'.world.inner.integrations.find? (·.source = source) = some c ∧
        c.processAttribution ≠ .unknown) → Q () h') :
    wp (setAdapterAttribution cfg source attribution) h Q E := by
  obtain ⟨template, htemplate, htsource⟩ := find_builtin hsource
  have hadapters : ∀ {Q' : List AdapterCapabilities → HostWorld → Prop},
      wp snapshotAdapters h Q' E ↔ Q' h.world.inner.integrations (h.called h.world) := Iff.rfl
  rw [setAdapterAttribution, wp_bind, hadapters]
  simp only [setAdapterAttributionWithSnapshot, htemplate]
  set c : AdapterCapabilities := { template with processAttribution := attribution } with hc
  split
  · rename_i hsame
    refine hQ _ ?_ (SameRegistry.refl _) rfl ⟨c, hsame, hattribution⟩
    have hsame' : h.sketch.integrations.find? (·.source = source) = some c := hsame
    simp only [Sketch.credit, htemplate]
    rw [if_pos hsame']
    rfl
  · rename_i hnew
    simp only [wp_bind, wp_get, ingestCore, wp_callCore, wp_pure, AppCore.ingest,
      AppCore.handleIngest]
    refine wp_mono (wp_integrationHealth_outcome fun w' hr _ _ _ hi => ?_)
      (fun _ _ h => h) fun f w' hf => hE _ _ (denied_of_storeFails hf)
    have hsketch : ∀ env : Env, (w'.flush env).registry = w'.registry := registry_flush w'
    refine hQ _ ?_ ?_ rfl ⟨c, ?_, hattribution⟩
    · have hnew' : ¬ h.sketch.integrations.find? (·.source = source) = some c := hnew
      simp only [Sketch.credit, htemplate]
      rw [if_neg hnew']
      refine Sketch.ext ?_ ((integrations_flush w' _).trans hi) rfl rfl
      show (w'.flush _).registry.sessions = _
      rw [hsketch]
      exact hr.sessions
    · show SameRegistry _ (w'.flush _).registry
      rw [hsketch]
      exact hr
    · show ((w'.flush _).inner.integrations).find? _ = _
      rw [integrations_flush, hi, ← htsource]
      exact find_upsertCapabilities c _

/-- The state after the root of the session was registered. -/
def Sketch.register (sk : Sketch) (incoming s : AgentSession) (observed : ProcessIdentity)
    (attribution : AttributionQuality) : Sketch :=
  (((sk.credit incoming.source attribution).change s.id
    fun _ => rooted s (rootOf incoming observed)).skip 1).measure s.id

theorem Sketch.credit_sessions (sk : Sketch) (source : AgentSource)
    (attribution : AttributionQuality) : (sk.credit source attribution).sessions = sk.sessions := by
  unfold Sketch.credit
  split
  · rfl
  · split <;> rfl

theorem Sketch.register_sessions (sk : Sketch) (incoming s : AgentSession)
    (observed : ProcessIdentity) (attribution : AttributionQuality) :
    (sk.register incoming s observed attribution).sessions =
      sk.sessions.adjust s.id fun _ => rooted s (rootOf incoming observed) := by
  simp only [Sketch.register, Sketch.measure_sessions, Sketch.skip_sessions,
    Sketch.change_sessions, Sketch.credit_sessions]

/-- The root of a session the core knows is registered if there is room. -/
theorem wp_registerRoot_outcome {observed : ProcessIdentity} (hk : Keyed h.world.registry)
    (hres : h.world.registry.resolveExternal incoming.source incoming.externalSessionId = some s)
    (hvalid : validateExternalSessionId incoming.externalSessionId = .ok ())
    (hsource : incoming.source ≠ .unknown) (hattribution : attribution ≠ .unknown)
    (hE : ∀ f h', Denied f → E f h') (hfull : ¬ h.sketch.Room s.id → ∀ text sk h',
      sk.sessions = h.sketch.sessions.adjust s.id (fun _ => rooted s (rootOf incoming observed)) →
      Moved s.id sk h h' → E (.rejected text) h') (hQ : h.sketch.Room s.id → ∀ h',
      Moved s.id (h.sketch.register incoming s observed attribution) h h' → Q () h') :
    wp (registerRoot cfg incoming s.id (some (observed, attribution))) h Q E := by
  simp only [registerRoot]
  rw [wp_bind]
  refine wp_setAdapterAttribution_outcome hsource hattribution hE fun h₁ hsketch hr hroots hc => ?_
  have hk₁ : Keyed h₁.world.registry := hk.of_eq hr.sessions
  have hres₁ : h₁.world.registry.resolveExternal incoming.source incoming.externalSessionId =
      some s := by
    rw [SessionRegistry.resolveExternal, hr.sessions, hr.externalIndex]
    exact hres
  have hmeasured : h₁.sketch.measured = h.sketch.measured := by
    show h₁.roots.map _ = h.roots.map _
    rw [hroots]
  have hnext : ∀ k, h₁.world.registry.nextEventSequence k =
      h.world.registry.nextEventSequence k := by
    intro k
    unfold SessionRegistry.nextEventSequence SessionRegistry.eventsFor
    rw [hr.events]
  have hcommand : wp (do let _ ← ingestCore cfg (.registerProcessRoot (rootOf incoming observed)))
      h₁ (fun _ h₂ => h₂.roots = h₁.roots ∧ Wrote s.id (rooted s (rootOf incoming observed)) h₁ h₂)
      E := by
    refine wp_sent_outcome (.registerProcessRoot (rootOf incoming observed))
      (wp_registerProcessRoot_outcome hk₁ hres₁ fun hc _ _ hw => ⟨hc, hw⟩) ?_
      fun _ h₂ hroots₂ hw => ⟨hroots₂, hw⟩
    rintro f w' (hf | ⟨-, hno, -⟩)
    · exact hE _ _ (denied_of_storeFails hf)
    · exact absurd ⟨hvalid, hc⟩ hno
  have hsplit : (do
      let _ ← ingestCore cfg (.registerProcessRoot (rootOf incoming observed))
      registerSession s.id observed attribution incoming.lastEventAtMs : HostM Unit) =
      (do let _ ← ingestCore cfg (.registerProcessRoot (rootOf incoming observed))) >>= fun _ =>
        registerSession s.id observed attribution incoming.lastEventAtMs := by
    rw [bind_assoc]
    rfl
  refine (congrArg (fun m => wp m h₁ Q E) hsplit).mpr ?_
  rw [wp_bind]
  refine wp_mono hcommand ?_ fun _ _ he => he
  rintro _ h₂ ⟨hroots₂, hw⟩
  have hmoved : ∀ {sk : Sketch} {h' : HostWorld}, h'.sketch = sk → h'.world = h₂.world →
      Moved s.id sk h h' := by
    intro sk h' hsk hworld
    refine ⟨hsk, ?_, ?_, fun k => ?_⟩
    · rw [hworld, hw.externalIndex, hr.externalIndex]
    · rw [hworld, ← hnext]
      exact hw.later
    · rw [hworld, ← hnext]
      exact hw.grows k
  have hlength : (h₂.roots.filter fun r => r.sessionId ≠ s.id).map (·.sessionId) =
      h.sketch.measured.filter (· ≠ s.id) := by
    have hids : h₂.roots.map (·.sessionId) = h.sketch.measured := by
      rw [← hmeasured, hroots₂]
      rfl
    rw [← hids, List.filter_map]
    rfl
  have hroom : h.sketch.Room s.id ↔
      ¬ maxActiveRoots ≤ (h₂.roots.filter fun r => r.sessionId ≠ s.id).length := by
    rw [Sketch.Room, ← hlength, List.length_map, not_le]
  have hsessions : h₂.world.registry.sessions =
      h.sketch.sessions.adjust s.id fun _ => rooted s (rootOf incoming observed) := by
    rw [hw.sessions, hr.sessions]
    rfl
  rw [registerSession, wp_bind, unregisterSession, wp_modify, wp_bind, wp_get]
  split
  · rename_i hmax
    exact hfull (fun hyes => hroom.1 hyes hmax) _ _ _ hsessions (hmoved rfl rfl)
  · rename_i hfree
    refine hQ (hroom.2 hfree) _ (hmoved ?_ rfl)
    refine Sketch.ext ?_ ?_ ?_ ?_
    · rw [Sketch.register_sessions]
      exact hsessions
    · show h₂.world.inner.integrations = _
      rw [hw.integrations]
      show h₁.sketch.integrations = _
      rw [hsketch]
      rfl
    · show ((h₂.roots.filter _) ++ [_]).map _ = _
      rw [List.map_append, hlength]
      show _ = ((h.sketch.credit _ _).measured.filter _) ++ _
      rw [← hsketch, hmeasured]
      rfl
    · have henvs : h₂.envs = fun n => h₁.envs (n + 1) := congrArg Sketch.envs hw.sketch
      show h₂.envs = _
      rw [henvs]
      show (fun n => h₁.sketch.envs (n + 1)) = _
      rw [hsketch]
      rfl

theorem validate_attentionObserved :
    validateEventSummary "Attention observed by local integration" = .ok () := by
  decide

/-- An attention is reported if the integration of the source supports it. -/
theorem wp_reportAttention_outcome (hk : Keyed h.world.registry)
    (hres : h.world.registry.resolveExternal incoming.source incoming.externalSessionId = some s)
    (hattention : incoming.attention ≠ .none) (hE : ∀ f h', Denied f → E f h')
    (hbad : ¬ Supports h.world incoming.source incoming.externalSessionId incoming.attention →
      ∀ text, E (.rejected text) (h.called (h.world.entered h.env.core)))
    (hQ : Supports h.world incoming.source incoming.externalSessionId incoming.attention → ∀ h',
      Wrote s.id (alerted s (attentionOfSession incoming)) h h' → Q () h') :
    wp (reportAttention cfg incoming) h Q E := by
  rw [reportAttention, wp_onlyIf]
  refine ⟨fun _ => ?_, fun hno => absurd hattention (by simpa using hno)⟩
  refine wp_sent_outcome (.attention (attentionOfSession incoming))
    (wp_attention_outcome hk hres validate_attentionObserved fun hc _ _ hw => ⟨hc, hw⟩) ?_
    fun hc h' _ => hQ ⟨hc.valid, hc.attention⟩ h'
  rintro f w' (hf | ⟨⟨e, rfl⟩, hno, rfl⟩)
  · exact hE _ _ (denied_of_storeFails hf)
  · exact hbad (fun hc => hno ⟨hc.valid, hc.attention⟩) _

theorem reportAttention_none (hnone : incoming.attention = .none) :
    reportAttention cfg incoming = pure () := by
  simp [reportAttention, hnone, onlyIf]

/-- A terminal is written if the identifier of the session is valid. -/
theorem wp_reportTerminal_outcome {terminal : VerifiedTerminalContext}
    (hs : h.world.registry.sessions.lookup s.id = some s) (hE : ∀ f h', Denied f → E f h')
    (hbad : validateSessionId s.id ≠ .ok () →
      ∀ text, E (.rejected text) (h.called (h.world.entered h.env.core)))
    (hQ : validateSessionId s.id = .ok () → ∀ w',
      Published s.id { s with verifiedTerminal := some terminal }
        (h.world.entered h.env.core) w' → Q () (h.called w')) :
    wp (reportTerminal s.id (some terminal)) h Q E := by
  simp only [reportTerminal, wp_callCore]
  refine wp_mono (wp_setVerifiedTerminal_outcome hs hQ) (fun _ _ h => h) ?_
  rintro f w' (hf | ⟨⟨e, rfl⟩, hno, rfl⟩)
  · exact hE _ _ (denied_of_storeFails hf)
  · exact hbad hno _

end Steps

end Host

end LlmNotch
