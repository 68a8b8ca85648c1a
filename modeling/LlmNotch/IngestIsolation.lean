import LlmNotch.HostIngest
import LlmNotch.SessionFates

/-!
# Which sessions an ingest touches

A payload is about one session : its source, and the external identifier it gives or else the
identifier it gives. The host looks for that session in three ways. A start or an update goes by
source and external identifier. A removal and an event take the first session of the snapshot
that has the identifier, of any source, or the source and one of the two identifiers; an event
then goes to the session of its own source with the external identifier of the one it found.

`Ingesting` is what holds between the calls of one ingest, and every function of the host keeps
it. `ingest_isolated` : in every reachable state, a payload whose identifiers are not those of
other sources (`OwnIds`) leaves all sessions as they were but the one it is about and those of its
source that it names (`Named`), one that a full registry evicts, and roots whose processes do not
run.
-/

namespace LlmNotch

namespace Host

open Ipc

/-! ## Calls -/

section Calls

variable {α : Type} {h : HostWorld} {Q : α → HostWorld → Prop} {E : HostFault → HostWorld → Prop}

theorem wp_callCore (m : Env → CoreM α) :
    wp (callCore m) h Q E ↔
      wp (m h.env.core) (h.world.entered h.env.core) (fun a w => Q a (h.called w))
        (fun f w => E (hostFault f) (h.called w)) := by
  unfold wp callCore
  cases m h.env.core (h.world.entered h.env.core) <;> rfl

@[simp] theorem wp_snapshotSessions {Q : List AgentSession → HostWorld → Prop} :
    wp snapshotSessions h Q E ↔
      Q (AppCore.snapshotWithSequence h.env.core h.world).snapshot.sessions (h.called h.world) :=
  Iff.rfl

@[simp] theorem wp_resolveProcessIdentity {Q : Option ProcessIdentity → HostWorld → Prop}
    (pid : ℕ) :
    wp (resolveProcessIdentity pid) h Q E ↔ Q (h.env.processes pid) (h.called h.world) :=
  Iff.rfl

end Calls

/-! ## The invariant -/

/-- The process of a root, if it runs and is the one that was registered. -/
def HostEnv.live (env : HostEnv) (root : ProcessIdentity) : Option ProcessIdentity :=
  (env.processes root.pid).filter fun o => Metrics.startTimesMatch root.startedAtMs o.startedAtMs

/-- The session has a root and ended, or its process did not run at some moment of the
ingest. -/
def DeadRoot (envs : ℕ → HostEnv) (s : AgentSession) : Prop :=
  ∃ root, s.processRoot = some root ∧
    (isTerminal s.status = true ∨ ∃ n, (envs n).live root = none)

variable {p : AgentSource → String → Prop} {evicted : String → Prop}
  {dead : AgentSession → Prop}

/-- What holds between the calls of an ingest that began in `h₀`. -/
structure Ingesting (p : AgentSource → String → Prop) (evicted : String → Prop)
    (dead : AgentSession → Prop) (h₀ h : HostWorld) : Prop where
  indexed : Indexed h.world.registry
  fates : Fates p evicted dead h₀.world h.world
  rows : DistinctRows h₀.world.db.sessions → DistinctRows h.world.db.sessions
  envs : ∃ k, ∀ n, h.envs n = h₀.envs (n + k)

namespace Ingesting

variable {h₀ h : HostWorld}

theorem start (hi : Indexed h.world.registry) : Ingesting p evicted dead h h :=
  ⟨hi, Fates.refl _, id, 0, fun _ => rfl⟩

section

variable (hh : Ingesting p evicted dead h₀ h)

include hh

theorem shift : ∃ k, ∀ n, h.envs (n + 1) = h₀.envs (n + k) := by
  obtain ⟨k, hk⟩ := hh.envs
  refine ⟨k + 1, fun n => ?_⟩
  rw [hk]
  congr 1
  omega

/-- A call that changes nothing. -/
theorem looked : Ingesting p evicted dead h₀ (h.called h.world) :=
  ⟨hh.indexed, hh.fates, hh.rows, hh.shift⟩

/-- The registered roots and the traffic are free to change. -/
theorem other {h' : HostWorld} (hworld : h'.world = h.world) (henvs : h'.envs = h.envs) :
    Ingesting p evicted dead h₀ h' :=
  ⟨hworld ▸ hh.indexed, hworld ▸ hh.fates, hworld ▸ hh.rows, henvs ▸ hh.envs⟩

theorem entered_fates (env : Env) : Fates p evicted dead h₀.world (h.world.entered env) :=
  hh.fates.congr (SameRegistry.refl _)

end

end Ingesting

section Keeps

variable {α : Type} {h₀ : HostWorld}

/-- A call of the core that is a chain of changes and spares the other sessions. -/
theorem wp_call {m : Env → CoreM α} {h : HostWorld} {Q : α → HostWorld → Prop} {R : α → Prop}
    (hh : Ingesting p evicted dead h₀ h)
    (hevolves : wp (m h.env.core) (h.world.entered h.env.core)
      (fun _ => Evolves True False (h.world.entered h.env.core))
      (EndsWell True False (h.world.entered h.env.core)))
    (hfates : wp (m h.env.core) (h.world.entered h.env.core)
      (fun a w => Fates p evicted dead h₀.world w ∧ R a)
      (fun _ => Fates p evicted dead h₀.world))
    (hQ : ∀ a h', Ingesting p evicted dead h₀ h' → R a → Q a h') :
    wp (callCore m) h Q (fun _ => Ingesting p evicted dead h₀) := by
  rw [wp_callCore]
  have hentered : Indexed (h.world.entered h.env.core).registry := hh.indexed
  unfold wp at hevolves hfates ⊢
  cases hm : m h.env.core (h.world.entered h.env.core) with
  | ok a w =>
    rw [hm] at hevolves hfates
    have hrows := fun hdb => hevolves.distinctRows (hh.rows hdb)
    exact hQ a _ ⟨hevolves.indexed hentered, hfates.1, hrows, hh.shift⟩ hfates.2
  | error f w =>
    rw [hm] at hevolves hfates
    have hrows := fun hdb => hevolves.evolves.distinctRows (hh.rows hdb)
    exact ⟨hevolves.evolves.indexed hentered, hfates, hrows, hh.shift⟩

theorem keeps_call {m : Env → CoreM α}
    (hevolves : ∀ env w, wp (m env) w (fun _ => Evolves True False w) (EndsWell True False w))
    (hfates : ∀ env w, Indexed w.registry → Fates p evicted dead h₀.world w →
      wp (m env) w (fun _ => Fates p evicted dead h₀.world)
        (fun _ => Fates p evicted dead h₀.world)) :
    Keeps (Ingesting p evicted dead h₀) (callCore m) := by
  intro h hh
  refine wp_call (R := fun _ => True) hh (hevolves _ _) ?_ fun _ _ hh' _ => hh'
  exact wp_mono (hfates _ _ hh.indexed (hh.entered_fates _)) (fun _ _ hf => ⟨hf, trivial⟩)
    fun _ _ hf => hf

/-- The commands that change nothing but the session they name. -/
def Names (p : AgentSource → String → Prop) : IngestCommand → Prop
  | .sessionUpdate cmd => p cmd.source cmd.externalSessionId
  | .sessionEnd cmd => p cmd.source cmd.externalSessionId
  | .lifecycleEvent cmd => p cmd.source cmd.externalSessionId
  | .toolEvent cmd => p cmd.source cmd.externalSessionId
  | .attention cmd => p cmd.source cmd.externalSessionId
  | .registerProcessRoot cmd => p cmd.source cmd.externalSessionId
  | .integrationHealth _ => True
  | _ => False

variable {command : IngestCommand} {session : AgentSession}

theorem fates_ingest {cfg : CoreConfig} {env : Env} {w₀ w : World} (hc : Names p command)
    (hf : Fates p evicted dead w₀ w) (hi : Indexed w.registry) :
    wp (AppCore.ingest cfg env command) w (fun _ => Fates p evicted dead w₀)
      (fun _ => Fates p evicted dead w₀) := by
  have hhandle : wp (AppCore.handleIngest cfg env command) w (fun _ => Fates p evicted dead w₀)
      (fun _ => Fates p evicted dead w₀) := by
    cases command with
    | sessionUpdate cmd => exact fates_sessionUpdate hf hi hc
    | sessionEnd cmd => exact fates_sessionEnd hf hi hc
    | lifecycleEvent cmd => exact fates_lifecycleEvent hf hi hc
    | toolEvent cmd => exact fates_toolEvent hf hi hc
    | attention cmd => exact fates_attention hf hi hc
    | registerProcessRoot cmd => exact fates_registerProcessRoot hf hi hc
    | integrationHealth cmd => exact fates_integrationHealth hf
    | sessionStart cmd => exact hc.elim
    | acknowledgeAttention cmd => exact hc.elim
  unfold AppCore.ingest
  rw [wp_bind]
  refine wp_mono hhandle (fun _ w' hw' => ?_) fun _ _ h => h
  refine hw'.congr ?_
  rw [registry_flush]
  exact SameRegistry.refl _

theorem keeps_ingestCore {cfg : CoreConfig} (hc : Names p command) :
    Keeps (Ingesting p evicted dead h₀) (ingestCore cfg command) := by
  refine keeps_call (fun env w => wp_ingest .refl ?_) fun env w hi hf => fates_ingest hc hf hi
  rintro - cmd rfl
  exact hc.elim

theorem keeps_unregisterSession (sessionId : String) :
    Keeps (Ingesting p evicted dead h₀) (unregisterSession sessionId) :=
  keeps_modify fun _ hh => hh.other rfl rfl

theorem keeps_recordConnectorTraffic (source : AgentSource) (atMs : ℤ) :
    Keeps (Ingesting p evicted dead h₀) (recordConnectorTraffic source atMs) :=
  keeps_onlyIf (keeps_modify fun _ hh => hh.other rfl rfl)

theorem keeps_registerSession (sessionId : String) (root : ProcessIdentity)
    (attribution : AttributionQuality) (registeredAtMs : ℤ) :
    Keeps (Ingesting p evicted dead h₀)
      (registerSession sessionId root attribution registeredAtMs) := by
  refine keeps_bind (keeps_unregisterSession sessionId) fun _ => keeps_bind keeps_get fun h => ?_
  split
  · exact keeps_throw _
  · exact keeps_modify fun _ hh => hh.other rfl rfl

theorem keeps_snapshotAdapters : Keeps (Ingesting p evicted dead h₀) snapshotAdapters :=
  fun _ hh => hh.looked

theorem keeps_setAdapterAttributionWithSnapshot (cfg : CoreConfig) (source : AgentSource)
    (attribution : AttributionQuality) (current : List AdapterCapabilities) :
    Keeps (Ingesting p evicted dead h₀)
      (setAdapterAttributionWithSnapshot cfg source attribution current) := by
  unfold setAdapterAttributionWithSnapshot
  split
  · exact keeps_throw _
  · dsimp only
    split
    · exact keeps_pure _
    · refine keeps_bind keeps_get fun h => keeps_bind (keeps_ingestCore ?_) fun _ => keeps_pure _
      exact trivial

theorem keeps_setAdapterAttribution (cfg : CoreConfig) (source : AgentSource)
    (attribution : AttributionQuality) :
    Keeps (Ingesting p evicted dead h₀) (setAdapterAttribution cfg source attribution) :=
  keeps_bind keeps_snapshotAdapters fun _ => keeps_setAdapterAttributionWithSnapshot _ _ _ _

/-! ## Process roots -/

/-- The session is what an ingest that began in `h₀` left of the one stored under its
identifier. -/
def Left (p : AgentSource → String → Prop) (h₀ : HostWorld) (session : AgentSession) : Prop :=
  ∀ s, h₀.world.registry.sessions.lookup session.id = some s → ¬ s.Is p →
    session = s ∨ session = s.withoutRoot

theorem Ingesting.left {h : HostWorld} (hh : Ingesting p evicted dead h₀ h) {env : Env}
    (hs : session ∈ (AppCore.snapshotWithSequence env h.world).snapshot.sessions) :
    h.world.registry.sessions.lookup session.id = some session ∧ Left p h₀ session := by
  have hmem := List.mem_of_mem_take hs
  rw [List.mem_insertionSort] at hmem
  obtain ⟨id, hid⟩ := Dict.mem_valuesBy.1 hmem
  have hlookup : h.world.registry.sessions.lookup session.id = some session := by
    rw [hh.indexed.keyed hid]
    exact hid
  refine ⟨hlookup, fun s hs₀ hp => ?_⟩
  have hfate := hh.fates.fate hs₀ hp
  rw [hlookup] at hfate
  generalize hu : some session = u at hfate
  cases hfate with
  | same => exact Or.inl (Option.some.inj hu)
  | unrooted => exact Or.inr (Option.some.inj hu)
  | gone => cases hu

theorem keeps_dropRoot (hleft : Left p h₀ session) (hdead : DeadRoot h₀.envs session)
    (hsub : ∀ s, DeadRoot h₀.envs s → dead s) :
    Keeps (Ingesting p evicted dead h₀) (dropRoot session.id) := by
  refine keeps_bind (keeps_unregisterSession _) fun _ => ?_
  refine keeps_call (fun env w => wp_clearProcessRoot .refl) fun env w hi hf => ?_
  refine fates_clearProcessRoot hf fun s hs hp _ => ?_
  rcases hleft s hs hp with rfl | rfl
  · exact hsub _ hdead
  · obtain ⟨root, hroot, -⟩ := hdead
    cases hroot

theorem keeps_keepRoot (registered : List String) (session : AgentSession)
    (observed : ProcessIdentity) (valid : ValidRoots) :
    Keeps (Ingesting p evicted dead h₀) (keepRoot registered session observed valid) := by
  unfold keepRoot
  dsimp only
  split
  · exact keeps_pure _
  · exact keeps_bind (keeps_onlyIf (keeps_registerSession _ _ _ _)) fun _ => keeps_pure _

theorem keeps_reconcileSession (registered : List String) (valid : ValidRoots)
    (hleft : Left p h₀ session) (hsub : ∀ s, DeadRoot h₀.envs s → dead s) :
    Keeps (Ingesting p evicted dead h₀) (reconcileSession registered valid session) := by
  unfold reconcileSession
  split
  · exact keeps_pure _
  · rename_i root hroot
    split
    · rename_i hterminal
      refine keeps_bind (keeps_dropRoot hleft ⟨root, hroot, Or.inl hterminal⟩ hsub) fun _ => ?_
      exact keeps_pure _
    · intro h hh
      simp only [liveProcess, wp_bind, wp_resolveProcessIdentity, wp_pure]
      split
      · rename_i hnone
        obtain ⟨k, hk⟩ := hh.envs
        have hdead : DeadRoot h₀.envs session := by
          refine ⟨root, hroot, Or.inr ⟨k, ?_⟩⟩
          have henv := hk 0
          rw [Nat.zero_add] at henv
          rw [← henv]
          exact hnone
        exact keeps_bind (keeps_dropRoot hleft hdead hsub) (fun _ => keeps_pure _) _ hh.looked
      · exact keeps_keepRoot _ _ _ _ _ hh.looked

theorem keeps_reconcileAdapterAttribution (cfg : CoreConfig)
    (validSources : List (AgentSource × AttributionQuality)) :
    Keeps (Ingesting p evicted dead h₀) (reconcileAdapterAttribution cfg validSources) :=
  keeps_bind keeps_snapshotAdapters fun _ =>
    keeps_forM fun _ _ => keeps_setAdapterAttributionWithSnapshot _ _ _ _

theorem keeps_reconcileMetricRoots (cfg : CoreConfig)
    (hsub : ∀ s, DeadRoot h₀.envs s → dead s) :
    Keeps (Ingesting p evicted dead h₀) (reconcileMetricRoots cfg) := by
  intro h hh
  unfold reconcileMetricRoots
  rw [wp_bind, wp_snapshotSessions]
  refine keeps_bind keeps_get (fun h₁ => ?_) _ hh.looked
  refine keeps_bind (keeps_foldlM (fun valid session hs => ?_) _) fun valid => ?_
  · exact keeps_reconcileSession _ _ (hh.left hs).2 hsub
  · refine keeps_bind (keeps_forM fun _ _ => keeps_onlyIf (keeps_unregisterSession _)) fun _ => ?_
    exact keeps_reconcileAdapterAttribution _ _

end Keeps

/-! ## Sessions -/

section Upsert

variable {cfg : CoreConfig} {h₀ : HostWorld} {incoming : AgentSession}

theorem keeps_sent {command : IngestCommand} (hc : Names p command) :
    Keeps (Ingesting p evicted dead h₀) (do let _ ← ingestCore cfg command) :=
  keeps_bind (keeps_ingestCore hc) fun _ => keeps_pure _

theorem keeps_updateExisting (hp : incoming.Is p) (existing : AgentSession) :
    Keeps (Ingesting p evicted dead h₀) (updateExisting cfg incoming existing) := by
  unfold updateExisting
  split
  · exact keeps_sent hp
  · refine keeps_onlyIf (keeps_bind (keeps_onlyIf (keeps_sent hp)) fun _ => ?_)
    exact keeps_bind (keeps_sent hp) fun _ => keeps_unregisterSession _

theorem keeps_updateStarted (hp : incoming.Is p) :
    Keeps (Ingesting p evicted dead h₀) (updateStarted cfg incoming) := by
  unfold updateStarted
  split
  all_goals first | exact keeps_pure _ | exact keeps_sent hp

theorem keeps_registerRoot (hp : incoming.Is p) (sessionId : String)
    (root : Option (ProcessIdentity × AttributionQuality)) :
    Keeps (Ingesting p evicted dead h₀) (registerRoot cfg incoming sessionId root) := by
  unfold registerRoot
  split
  · exact keeps_pure _
  · refine keeps_bind (keeps_setAdapterAttribution _ _ _) fun _ => ?_
    exact keeps_bind (keeps_ingestCore hp) fun _ => keeps_registerSession _ _ _ _

theorem keeps_reportAttention (hp : incoming.Is p) :
    Keeps (Ingesting p evicted dead h₀) (reportAttention cfg incoming) :=
  keeps_onlyIf (keeps_sent hp)

theorem keeps_reportTerminal {sessionId : String} (terminal : Option VerifiedTerminalContext)
    (hid : ∀ s, h₀.world.registry.sessions.lookup sessionId = some s → s.Is p) :
    Keeps (Ingesting p evicted dead h₀) (reportTerminal sessionId terminal) := by
  unfold reportTerminal
  split
  · exact keeps_pure _
  · refine keeps_call (fun env w => wp_setVerifiedTerminal .refl) fun env w hi hf => ?_
    refine fates_setVerifiedTerminal hf fun t ht => ?_
    by_contra hp
    obtain ⟨s, hs, hcases⟩ := hf.origin ht hp
    have hown := hid s hs
    rcases hcases with rfl | rfl
    · exact hp hown
    · exact hp hown

theorem wp_validatedRoot {h : HostWorld}
    {Q : Option (ProcessIdentity × AttributionQuality) → HostWorld → Prop}
    (hh : Ingesting p evicted dead h₀ h)
    (hQ : ∀ r h', Ingesting p evicted dead h₀ h' → h'.world = h.world → Q r h') :
    wp (validatedRoot incoming) h Q (fun _ => Ingesting p evicted dead h₀) := by
  unfold validatedRoot
  split
  · exact hQ _ _ hh rfl
  · split
    · exact hQ _ _ hh rfl
    · rw [wp_bind, wp_resolveProcessIdentity]
      split
      · exact hh.looked
      · split
        · exact hQ _ _ hh.looked rfl
        · exact hh.looked

/-- One identity, and no other. -/
def Exactly (source : AgentSource) (externalSessionId : String) (a : AgentSource) (x : String) :
    Prop :=
  a = source ∧ x = externalSessionId

/-- The session a start evicts : the registry is full and does not know the started one. -/
def Evicts (w : World) (source : AgentSource) (externalSessionId id : String) : Prop :=
  (∃ rank, w.registry.capacityEvictionCandidate rank = .ok (some id)) ∧
    w.registry.resolveExternal source externalSessionId = none

/-- What holds between the calls of an ingest of the session. -/
abbrev Upserting (h₀ : HostWorld) (incoming : AgentSession) : HostWorld → Prop :=
  Ingesting (Exactly incoming.source incoming.externalSessionId)
    (Evicts h₀.world incoming.source incoming.externalSessionId) (DeadRoot h₀.envs) h₀

/-- No other session has the identifier of the session. -/
def OwnId (cfg : CoreConfig) (w : World) (source : AgentSource) (externalSessionId : String) :
    Prop :=
  ∀ s, w.registry.sessions.lookup (cfg.sessionIdFor source externalSessionId) = some s →
    s.Is (Exactly source externalSessionId)

/-- A session the index does not resolve gets an identifier that is free. -/
theorem OwnId.free {w : World} {source : AgentSource} {externalSessionId : String}
    (hown : OwnId cfg w source externalSessionId) (hi : Indexed w.registry)
    (hnew : w.registry.resolveExternal source externalSessionId = none) :
    w.registry.sessions.lookup (cfg.sessionIdFor source externalSessionId) = none := by
  cases hlookup : w.registry.sessions.lookup (cfg.sessionIdFor source externalSessionId) with
  | none => rfl
  | some s =>
    obtain ⟨hsource, hext⟩ := hown s hlookup
    have hreach := hi.reachable hlookup
    have hindex := index_of_resolve_none hi hnew
    rw [AgentSession.key, hsource, hext, hindex] at hreach
    cases hreach

/-- A start, as the first call of an ingest that changes anything. -/
theorem wp_ingestStart (cmd : SessionStartCommand) {h : HostWorld}
    {Q : IngestResult → HostWorld → Prop}
    (hh : Ingesting (Exactly cmd.source cmd.externalSessionId)
      (Evicts h₀.world cmd.source cmd.externalSessionId) dead h₀ h) (hworld : h.world = h₀.world)
    (hown : OwnId cfg h₀.world cmd.source cmd.externalSessionId)
    (hQ : ∀ r h', Ingesting (Exactly cmd.source cmd.externalSessionId)
        (Evicts h₀.world cmd.source cmd.externalSessionId) dead h₀ h' →
      (∀ id, r.sessionId = some id → ∀ s, h₀.world.registry.sessions.lookup id = some s →
        s.Is (Exactly cmd.source cmd.externalSessionId)) → Q r h') :
    wp (ingestCore cfg (.sessionStart cmd)) h Q
      (fun _ => Ingesting (Exactly cmd.source cmd.externalSessionId)
        (Evicts h₀.world cmd.source cmd.externalSessionId) dead h₀) := by
  have hregistry : (h.world.entered h.env.core).registry = h₀.world.registry := by
    rw [hworld]
    rfl
  have hindexed : Indexed h₀.world.registry := hworld ▸ hh.indexed
  refine wp_call (R := fun r : IngestResult => ∀ id, r.sessionId = some id →
    ∀ s, h₀.world.registry.sessions.lookup id = some s →
      s.Is (Exactly cmd.source cmd.externalSessionId)) hh ?_ ?_ hQ
  · refine wp_ingest .refl ?_
    rintro - cmd' hcmd hnew
    obtain rfl := IngestCommand.sessionStart.inj hcmd
    have hunknown := hnew.unknown
    rw [hregistry] at hunknown ⊢
    exact Or.inl (hown.free hindexed hunknown)
  · unfold AppCore.ingest
    rw [wp_bind]
    refine wp_mono (fates_sessionStart (hh.entered_fates _) hh.indexed ⟨rfl, rfl⟩ ?_ hown)
      ?_ fun _ _ hf => hf
    · intro hnew id hid
      have hunknown := hnew.unknown
      rw [hregistry] at hid hunknown
      exact ⟨⟨_, hid⟩, hunknown⟩
    · rintro r w ⟨hf, hr⟩
      refine ⟨hf.congr ?_, hr⟩
      rw [registry_flush]
      exact SameRegistry.refl _

theorem wp_startSession {h : HostWorld} {Q : String → HostWorld → Prop}
    (hh : Upserting h₀ incoming h) (hworld : h.world = h₀.world)
    (hown : OwnId cfg h₀.world incoming.source incoming.externalSessionId)
    (hQ : ∀ id h', Upserting h₀ incoming h' →
      (∀ s, h₀.world.registry.sessions.lookup id = some s →
        s.Is (Exactly incoming.source incoming.externalSessionId)) → Q id h') :
    wp (startSession cfg incoming) h Q (fun _ => Upserting h₀ incoming) := by
  unfold startSession
  rw [wp_bind]
  refine wp_ingestStart _ hh hworld hown fun r h' hh' hr => ?_
  split
  · rename_i id hid
    exact hQ id h' hh' (hr id hid)
  · exact hh'

/-- A started or updated session. -/
theorem wp_ingestSessionUpsert (hi : Indexed h₀.world.registry)
    (hown : OwnId cfg h₀.world incoming.source incoming.externalSessionId) :
    wp (ingestSessionUpsert cfg incoming) h₀ (fun _ => Upserting h₀ incoming)
      (fun _ => Upserting h₀ incoming) := by
  have hp : incoming.Is (Exactly incoming.source incoming.externalSessionId) := ⟨rfl, rfl⟩
  have hstart : Upserting h₀ incoming h₀ := Ingesting.start hi
  unfold ingestSessionUpsert
  rw [wp_bind, wp_snapshotSessions, wp_bind]
  refine wp_validatedRoot hstart.looked fun root h₁ hh₁ hworld => ?_
  have hrest : ∀ id h', Upserting h₀ incoming h' →
      (∀ s, h₀.world.registry.sessions.lookup id = some s →
        s.Is (Exactly incoming.source incoming.externalSessionId)) →
      wp (do
        registerRoot cfg incoming id root
        reportAttention cfg incoming
        reportTerminal id incoming.verifiedTerminal
        recordConnectorTraffic incoming.source incoming.lastEventAtMs
        reconcileMetricRoots cfg) h' (fun _ => Upserting h₀ incoming)
        (fun _ => Upserting h₀ incoming) := by
    intro id h' hh' hid
    refine keeps_bind (keeps_registerRoot hp id root) (fun _ => ?_) h' hh'
    refine keeps_bind (keeps_reportAttention hp) fun _ => ?_
    refine keeps_bind (keeps_reportTerminal _ hid) fun _ => ?_
    exact keeps_bind (keeps_recordConnectorTraffic _ _) fun _ =>
      keeps_reconcileMetricRoots cfg fun _ hs => hs
  cases hfind : (AppCore.snapshotWithSequence h₀.env.core h₀.world).snapshot.sessions.find?
      fun s => s.source = incoming.source ∧ s.externalSessionId = incoming.externalSessionId with
  | some existing =>
    obtain ⟨hlookup, -⟩ := hstart.left (List.mem_of_find?_eq_some hfind)
    have hexisting : existing.source = incoming.source ∧
        existing.externalSessionId = incoming.externalSessionId := by
      simpa using List.find?_some hfind
    simp only [wp_bind]
    refine wp_mono (keeps_updateExisting hp existing h₁ hh₁) (fun _ h' hh' => ?_) fun _ _ h => h
    have htail := hrest existing.id h' hh' fun s hs => ?_
    · simpa only [wp_bind, wp_pure] using htail
    · obtain rfl := Option.some.inj (hlookup.symm.trans hs)
      exact hexisting
  | none =>
    simp only [wp_bind]
    refine wp_startSession hh₁ hworld hown fun id h₂ hh₂ hid => ?_
    refine wp_mono (keeps_updateStarted hp h₂ hh₂) (fun _ h' hh' => ?_) fun _ _ h => h
    have htail := hrest id h' hh' hid
    simpa only [wp_bind, wp_pure] using htail

end Upsert

/-! ## Payloads -/

section Payloads

variable {cfg : CoreConfig} {h : HostWorld}

/-- The session `resolve_session` finds. -/
def found (h : HostWorld) (sessionId : String) (source : AgentSource)
    (externalSessionId : Option String) : Option AgentSession :=
  (AppCore.snapshotWithSequence h.env.core h.world).snapshot.sessions.find?
    (matchesSession sessionId source externalSessionId)

/-- The state an ingest ends in, whether it returns or fails. -/
def after (cfg : CoreConfig) (n : NormalizedIngest) (h : HostWorld) : HostWorld :=
  match ingestNormalized cfg n h with
  | .ok _ h' => h'
  | .error _ h' => h'

variable {n : NormalizedIngest} {source : AgentSource} {externalSessionId : Option String}
  {event : SessionEvent} {attention : Option AttentionKind} {target : String}

theorem ingesting_after {I : HostWorld → Prop}
    (hwp : wp (ingestNormalized cfg n) h (fun _ => I) (fun _ => I)) : I (after cfg n h) := by
  unfold wp at hwp
  unfold after
  cases hm : ingestNormalized cfg n h with
  | ok a h' =>
    rw [hm] at hwp
    exact hwp
  | error f h' =>
    rw [hm] at hwp
    exact hwp

theorem wp_sessionRemove (hi : Indexed h.world.registry) {sessionId : String}
    (hfound : ∀ t, found h sessionId source externalSessionId = some t → t.Is p) :
    wp (ingestNormalized cfg (.sessionRemove sessionId source externalSessionId)) h
      (fun _ => Ingesting p evicted dead h) (fun _ => Ingesting p evicted dead h) := by
  have hstart : Ingesting p evicted dead h h := Ingesting.start hi
  simp only [ingestNormalized, resolveSession, wp_bind, wp_snapshotSessions, wp_pure]
  split
  · exact hstart.looked
  · rename_i t ht
    obtain ⟨hlookup, -⟩ := hstart.left (List.mem_of_find?_eq_some ht)
    refine keeps_bind (keeps_call (fun env w => wp_removeSession .refl) fun env w _ hf => ?_)
      (fun _ => keeps_unregisterSession t.id) _ hstart.looked
    refine fates_removeSession hf fun s hs => ?_
    obtain rfl := Option.some.inj (hlookup.symm.trans hs)
    exact hfound t ht

theorem names_eventCommand {externalSessionId : String} (hp : p source externalSessionId) :
    Names p (eventCommand event source externalSessionId attention) := by
  unfold eventCommand
  split <;> exact hp

theorem wp_sessionEvent (hi : Indexed h.world.registry)
    (hfound : ∀ t, found h event.sessionId source externalSessionId = some t →
      p source t.externalSessionId) :
    wp (ingestNormalized cfg (.sessionEvent event source externalSessionId attention)) h
      (fun _ => Ingesting p evicted dead h) (fun _ => Ingesting p evicted dead h) := by
  have hstart : Ingesting p evicted dead h h := Ingesting.start hi
  simp only [ingestNormalized, resolveSession, wp_bind, wp_snapshotSessions, wp_pure]
  split
  · exact hstart.looked
  · rename_i t ht
    refine keeps_bind (keeps_ingestCore (names_eventCommand (hfound t ht)))
      (fun _ => keeps_recordConnectorTraffic _ _) _ hstart.looked

/-! ### The sessions a payload names -/

/-- A stored session that has the identifier asked for, as its own or as the external one. -/
def Asked (h : HostWorld) (n : NormalizedIngest) (t : AgentSession) : Prop :=
  h.world.registry.sessions.lookup t.id = some t ∧
    ∃ sessionId, n.asksFor = some sessionId ∧
      (t.id = sessionId ∨ t.externalSessionId = sessionId)

/-- The session a payload is about, and those of its source that it asks for. -/
def Named (h : HostWorld) (n : NormalizedIngest) (source : AgentSource) (target : String)
    (a : AgentSource) (x : String) : Prop :=
  a = source ∧ (x = target ∨ ∃ t, Asked h n t ∧ t.source = source ∧ t.externalSessionId = x)

/-- No identifier of the payload is the internal one of a session of another source, nor is the
identifier of a started session that of another one. -/
def OwnIds (cfg : CoreConfig) (h : HostWorld) (source : AgentSource) (target : String) :
    NormalizedIngest → Prop
  | .sessionUpsert _ => OwnId cfg h.world source target
  | .sessionRemove sessionId _ _ =>
    ∀ t, h.world.registry.sessions.lookup sessionId = some t → t.source = source
  | .sessionEvent event _ _ _ =>
    ∀ t, h.world.registry.sessions.lookup event.sessionId = some t → t.source = source

/-- A payload that asks for no session but the one it is about. -/
theorem named_exactly
    (hasked : ∀ t, Asked h n t → t.source = source → t.externalSessionId = target) :
    Named h n source target = Exactly source target := by
  funext a x
  refine propext (and_congr_right fun _ => ⟨?_, Or.inl⟩)
  rintro (hx | ⟨t, ht, hsource, rfl⟩)
  · exact hx
  · exact hasked t ht hsource

/-- `resolve_session` stops at a session the payload names. -/
theorem named_of_found (hi : Indexed h.world.registry) {sessionId : String}
    (hasks : n.asksFor = some sessionId)
    (hown : ∀ t, h.world.registry.sessions.lookup sessionId = some t → t.source = source)
    (hexternal : ∀ x, externalSessionId = some x → x = target) {t : AgentSession}
    (ht : found h sessionId source externalSessionId = some t) :
    t.source = source ∧ t.Is (Named h n source target) := by
  have hstart : Ingesting (Exactly source target) (fun _ => False) (fun _ => False) h h :=
    Ingesting.start hi
  obtain ⟨hlookup, -⟩ := hstart.left (List.mem_of_find?_eq_some ht)
  have hmatch : matchesSession sessionId source externalSessionId t = true :=
    List.find?_some ht
  unfold matchesSession at hmatch
  rcases of_decide_eq_true hmatch with hid | ⟨hsource, hext | hext⟩
  · have hsource : t.source = source := hown t (hid ▸ hlookup)
    exact ⟨hsource, hsource, Or.inr ⟨t, ⟨hlookup, _, hasks, Or.inl hid⟩, hsource, rfl⟩⟩
  · exact ⟨hsource, hsource, Or.inr ⟨t, ⟨hlookup, _, hasks, Or.inr hext⟩, hsource, rfl⟩⟩
  · exact ⟨hsource, hsource, Or.inl (hexternal _ hext)⟩

/-- A payload that starts or updates a session may evict one and clears dead roots. -/
def NormalizedIngest.evicts (h : HostWorld) : NormalizedIngest → String → Prop
  | .sessionUpsert session => Evicts h.world session.source session.externalSessionId
  | _ => fun _ => False

def NormalizedIngest.unroots (h : HostWorld) : NormalizedIngest → AgentSession → Prop
  | .sessionUpsert _ => DeadRoot h.envs
  | _ => fun _ => False

theorem fates_named (hi : Indexed h.world.registry) (habout : n.About source target)
    (hown : OwnIds cfg h source target n) :
    Fates (Named h n source target) (NormalizedIngest.evicts h n) (NormalizedIngest.unroots h n)
      h.world (after cfg n h).world := by
  cases n with
  | sessionUpsert session =>
    obtain ⟨rfl, rfl⟩ := habout
    have hwp : wp (ingestNormalized cfg (.sessionUpsert session)) h
        (fun _ => Upserting h session) (fun _ => Upserting h session) :=
      wp_ingestSessionUpsert hi hown
    rw [named_exactly]
    · exact (ingesting_after hwp).fates
    · rintro t ⟨-, sessionId, hasks, -⟩
      cases hasks
  | sessionRemove sessionId src externalSessionId =>
    obtain ⟨rfl, hexternal⟩ := habout
    refine (ingesting_after (wp_sessionRemove hi fun t ht => ?_)).fates
    exact (named_of_found hi rfl hown hexternal ht).2
  | sessionEvent event src externalSessionId attention =>
    obtain ⟨rfl, hexternal⟩ := habout
    refine (ingesting_after (wp_sessionEvent hi fun t ht => ?_)).fates
    have hasks : (NormalizedIngest.sessionEvent event src externalSessionId attention).asksFor =
        some event.sessionId := rfl
    obtain ⟨hsource, hnamed⟩ := named_of_found hi hasks hown hexternal ht
    unfold AgentSession.Is at hnamed
    rwa [hsource] at hnamed

/-- Whatever an event payload names, it leaves the sessions of other sources alone. -/
theorem fates_event (hi : Indexed h.world.registry) {src : AgentSource}
    (habout : NormalizedIngest.About source target
      (.sessionEvent event src externalSessionId attention)) :
    Fates (fun a _ => a = source) (fun _ => False) (fun _ => False) h.world
      (after cfg (.sessionEvent event src externalSessionId attention) h).world := by
  obtain ⟨rfl, -⟩ := habout
  exact (ingesting_after (wp_sessionEvent hi fun t _ => rfl)).fates

end Payloads

/-- In every state reached without overwriting a stored session, a payload whose identifiers are
not those of other sources leaves all sessions alone but the one it is about and those of its
source that it asks for, with two exceptions : a start may evict an ended session when the
registry is full, and after a start or an update the roots of processes that do not run are
cleared. An event never touches another source. -/
theorem ingest_isolated {cfg : CoreConfig} {env : Env} {settings : PublicSettings} {db : Database}
    {s₀ s : CoreState} {acts : List CoreAct} (hdb : DistinctRows db.sessions)
    (hstart : startCore cfg env settings db = some s₀)
    (hguard : Guarded (coreStep cfg) (NoOverwrite cfg) s₀ acts)
    (hrun : run (coreStep cfg) s₀ acts = some s)
    {stableId : AgentSource → String → String} {payload : IngestPayload} {nowMs : ℤ} {uuid : ℕ}
    {n : NormalizedIngest} (hn : normalizeIngest stableId payload nowMs uuid = .ok n)
    {h : HostWorld} (hworld : h.world = s.world) :
    ∃ source target, parseSource payload.source = .ok source ∧ payload.target = some target ∧
      (OwnIds cfg h source target n →
        Fates (Named h n source target) (NormalizedIngest.evicts h n)
          (NormalizedIngest.unroots h n) h.world (after cfg n h).world) ∧
      (OwnIds cfg h source target n →
        (∀ t, Asked h n t → t.source = source → t.externalSessionId = target) →
        Fates (Exactly source target) (NormalizedIngest.evicts h n)
          (NormalizedIngest.unroots h n) h.world (after cfg n h).world) ∧
      (∀ event src ext attention, n = .sessionEvent event src ext attention →
        Fates (fun a _ => a = source) (fun _ => False) (fun _ => False) h.world
          (after cfg n h).world) := by
  have hi : Indexed h.world.registry := by
    rw [hworld]
    exact (index_inverse hdb hstart hguard hrun).1
  obtain ⟨source, target, hsource, htarget, habout⟩ := normalizeIngest_ok hn
  have hfates := fun hown : OwnIds cfg h source target n => fates_named hi habout hown
  refine ⟨source, target, hsource, htarget, hfates, fun hown hasked => ?_, ?_⟩
  · exact named_exactly hasked ▸ hfates hown
  · rintro event src ext attention rfl
    exact fates_event hi habout

/-! ## Samples -/

/-- A payload that names its session, and nothing else. -/
def samplePayload (source event : String) (sessionId externalSessionId : Option String) :
    IngestPayload where
  source := source
  event := event
  sessionId := sessionId
  externalSessionId := externalSessionId
  label := none
  workspaceLabel := none
  status := none
  attention := none
  summary := none
  toolName := none
  pid := none
  processStartedAtMs := none
  occurredAtMs := none
  terminalSessionId := none
  tabId := none
  paneId := none
  windowHandle := none

/-- A host in which no process runs; the events get distinct identifiers. -/
def sampleHost (w : World) : HostWorld where
  world := w
  envs n := { core := { uuid := n + 10 } }

/-- A stored generic session. -/
def sampleRows : Database where
  sessions := [AppCore.newSession (sampleStart .generic "e")
    (sampleCoreConfig.sessionIdFor .generic "e")]
  integrations := sampleIntegrations

/-- What a start of a session becomes. -/
def incomingStart : AgentSession :=
  { AppCore.newSession (sampleStart .qwen "q") (sampleCoreConfig.sessionIdFor .qwen "q") with
    label := "Agent session" }

theorem normalize_incomingStart :
    normalizeIngest externalKey (samplePayload "qwen" "start" none (some "q")) 0 0 =
      .ok (.sessionUpsert incomingStart) := by
  decide

/-- Another session starts and the stored one stays. -/
theorem ingest_isolated_start : ∃ s, startCore sampleCoreConfig {} sampleSettings sampleRows =
      some s ∧ s.world.registry.len = 1 ∧
    (after sampleCoreConfig (.sessionUpsert incomingStart)
      (sampleHost s.world)).world.registry.len = 2 ∧
    Fates (Exactly .qwen "q") (Evicts s.world .qwen "q") (DeadRoot (sampleHost s.world).envs)
      s.world (after sampleCoreConfig (.sessionUpsert incomingStart) (sampleHost s.world)).world := by
  have heval : (startCore sampleCoreConfig {} sampleSettings sampleRows).map (fun s =>
      (s.world.registry.len, (after sampleCoreConfig (.sessionUpsert incomingStart)
          (sampleHost s.world)).world.registry.len,
        s.world.registry.sessions.lookup (sampleCoreConfig.sessionIdFor .qwen "q"))) =
      some (1, 2, none) := by
    decide +kernel
  obtain ⟨s, hs, hvalues⟩ := Option.map_eq_some_iff.1 heval
  simp only [Prod.mk.injEq] at hvalues
  obtain ⟨hone, htwo, hfree⟩ := hvalues
  refine ⟨s, hs, hone, htwo, ?_⟩
  have hguard : Guarded (coreStep sampleCoreConfig) (NoOverwrite sampleCoreConfig) s [] := trivial
  obtain ⟨source, target, hsource, htarget, -, hfates, -⟩ :=
    ingest_isolated (h := sampleHost s.world) ⟨by simp [sampleRows], by simp [sampleRows]⟩ hs
      hguard rfl normalize_incomingStart rfl
  obtain rfl : AgentSource.qwen = source := Except.ok.inj hsource
  obtain rfl : "q" = target := Option.some.inj htarget
  refine hfates (fun t ht => ?_) ?_
  · rw [show (sampleHost s.world).world = s.world from rfl, hfree] at ht
    cases ht
  · rintro t ⟨-, sessionId, hasks, -⟩
    cases hasks

/-- A session that is neither as it was nor about the payload. -/
theorem not_fates {w₀ w : World} {id : String} {t : AgentSession}
    (ht : w₀.registry.sessions.lookup id = some t) (hp : ¬ t.Is p)
    (hne : w.registry.sessions.lookup id ≠ some t) :
    ¬ Fates p (fun _ => False) (fun _ => False) w₀ w := by
  intro hf
  have hfate := hf.fate ht hp
  generalize w.registry.sessions.lookup id = u at hfate hne
  cases hfate with
  | same => exact hne rfl
  | unrooted h => exact h
  | gone h => exact h

/-- A generic session starts and reports its process. -/
def rootedRun : List CoreAct :=
  CoreAct.perform 0 (.ingest (.sessionStart (sampleStart .generic "e"))) {} ++
  CoreAct.perform 1 (.ingest (.integrationHealth
    ⟨{ AdapterCapabilities.template .generic with processAttribution := .exact }, false, none,
      0⟩)) {} ++
  CoreAct.perform 2 (.ingest (.registerProcessRoot ⟨.generic, "e", ⟨7, 5⟩, 0⟩)) { uuid := 1 }

/-- A removal may name a session by its internal identifier, and any start of another source
clears the root of the session once its process does not run. -/
theorem ingest_crosses_sources : ∃ s₀ s,
    startCore sampleCoreConfig {} sampleSettings { integrations := sampleIntegrations } =
      some s₀ ∧
    run (coreStep sampleCoreConfig) s₀ rootedRun = some s ∧
    normalizeIngest externalKey (samplePayload "generic" "remove" (some "Generic:e") none) 0 0 =
      .ok (.sessionRemove "Generic:e" .generic none) ∧
    ¬ Fates (Exactly .generic "Generic:e") (fun _ => False) (fun _ => False) s.world
      (after sampleCoreConfig (.sessionRemove "Generic:e" .generic none)
        (sampleHost s.world)).world ∧
    normalizeIngest externalKey (samplePayload "qwen" "start" none (some "q")) 0 0 =
      .ok (.sessionUpsert incomingStart) ∧
    ¬ Fates (Exactly .qwen "q") (fun _ => False) (fun _ => False) s.world
      (after sampleCoreConfig (.sessionUpsert incomingStart) (sampleHost s.world)).world := by
  have heval : ((startCore sampleCoreConfig {} sampleSettings
      { integrations := sampleIntegrations }).bind fun s₀ =>
        (run (coreStep sampleCoreConfig) s₀ rootedRun).map fun s =>
          ((s.world.registry.sessions.lookup "Generic:e").map fun t =>
              (t.source, t.externalSessionId, t.processRoot),
            (after sampleCoreConfig (.sessionRemove "Generic:e" .generic none)
              (sampleHost s.world)).world.registry.sessions.lookup "Generic:e",
            ((after sampleCoreConfig (.sessionUpsert incomingStart)
              (sampleHost s.world)).world.registry.sessions.lookup "Generic:e").map
                (·.processRoot))) =
      some (some (.generic, "e", some ⟨7, 5⟩), none, some none) := by
    decide +kernel
  obtain ⟨s₀, hs₀, heval⟩ := Option.bind_eq_some_iff.1 heval
  obtain ⟨s, hs, hvalues⟩ := Option.map_eq_some_iff.1 heval
  simp only [Prod.mk.injEq] at hvalues
  obtain ⟨hbefore, hremoved, hcleared⟩ := hvalues
  obtain ⟨t, ht, hfields⟩ := Option.map_eq_some_iff.1 hbefore
  simp only [Prod.mk.injEq] at hfields
  obtain ⟨hgeneric, hexternal, hroot⟩ := hfields
  refine ⟨s₀, s, hs₀, hs, by decide, not_fates ht ?_ ?_, normalize_incomingStart,
    not_fates ht ?_ ?_⟩
  · rintro ⟨-, hext⟩
    rw [hexternal] at hext
    exact absurd hext (by decide)
  · rw [hremoved]
    exact fun h => by cases h
  · rintro ⟨hqwen, -⟩
    rw [hgeneric] at hqwen
    cases hqwen
  · intro hsame
    rw [hsame, Option.map_some, hroot] at hcleared
    cases hcleared

end Host

end LlmNotch
