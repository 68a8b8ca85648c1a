import LlmNotch.StreamEffects
import LlmNotch.CoreEffects

/-!
# The renderer follows the core

A renderer that starts from a snapshot of the core and applies every later frame of the
stream in order ends with what the next snapshot shows (`renderer_follows`). Both sides
refine the same abstract mirror : the reducer computes `Mirror.apply`, and every section of
the core that returns hands the stream the payloads that lead from its old mirror to its new
one. What is left is that a snapshot shows the whole mirror and that its sequence cuts the
stream at the right place.

A session is compared by what its payloads carry. The time of its last event is not always
among it : it follows as well if no lifecycle or tool event moves it (`activity_follows`).

The sections of concurrent calls interleave. Every section returns, and the core is not
restarted : a new core starts a new stream.
-/

namespace LlmNotch

open AppCore

/-! ## Runs that return -/

/-- The next section returns; the core is not restarted. -/
def returns (cfg : CoreConfig) (s : CoreState) : CoreAct → Bool
  | .call _ _ => true
  | .advance tid env => (sectionFault cfg s tid env).isNone
  | .restart _ _ => false

def Returns (cfg : CoreConfig) (s : CoreState) (a : CoreAct) : Prop :=
  returns cfg s a = true

variable {face : AgentSession → AgentSession}

/-- The next section changes nothing unseen. -/
def UnseenAct (face : AgentSession → AgentSession) (s : CoreState) : CoreAct → Prop
  | .advance tid _ => ∀ sec rest, s.calls.lookup tid = some (sec :: rest) →
      Unseen face s.world sec
  | _ => True

variable {w w₀ w₁ w₂ : World} {cfg : CoreConfig} {s t : CoreState}

theorem Sent.trans (h : Sent face w₀ w₁) (h' : Sent face w₁ w₂) : Sent face w₀ w₂ := by
  obtain ⟨-, fs, hfs⟩ := h
  obtain ⟨hsettled, gs, hgs⟩ := h'
  exact ⟨hsettled, fs ++ gs, hfs.trans hgs⟩

theorem sent_step (hface : MetricBlind face) {a : CoreAct} (h : Settled s.world)
    (ha : Returns cfg s a) (hunseen : UnseenAct face s a) (hstep : coreStep cfg s a = some t) :
    Sent face s.world t.world := by
  cases a with
  | call tid call =>
    simp only [coreStep] at hstep
    split at hstep
    · cases hstep
      exact Sent.refl h
    · cases hstep
  | advance tid env =>
    simp only [coreStep] at hstep
    split at hstep
    · rename_i sec rest hsec
      cases hstep
      have hentered : Settled (s.world.entered env) := ⟨h.empty, h.ids⟩
      have hentry : Unseen face (s.world.entered env) sec := hunseen sec rest hsec
      simp only [Returns, returns, sectionFault, hsec] at ha
      cases hexec : sec.exec cfg env (s.world.entered env) with
      | ok more w =>
        obtain ⟨hsettled, fs, hfs⟩ := wp_ok (exec_sent hface hentered hentry) hexec
        exact ⟨hsettled, fs, hfs.frames, hfs.numbered, hfs.sequence, hfs.mirror⟩
      | error f w =>
        rw [hexec] at ha
        cases ha
    · cases hstep
      exact Sent.refl h
    · cases hstep
  | restart env settings => cases ha

theorem sent_run (hface : MetricBlind face) {acts : List CoreAct} (h : Settled s.world)
    (hok : Guarded (coreStep cfg) (fun s a => Returns cfg s a ∧ UnseenAct face s a) s acts)
    (hrun : run (coreStep cfg) s acts = some t) : Sent face s.world t.world := by
  have hstep : ∀ r a u, Returns cfg r a ∧ UnseenAct face r a → Sent face s.world r.world →
      coreStep cfg r a = some u → Sent face s.world u.world :=
    fun _ _ _ ha hr hu => hr.trans (sent_step hface hr.1 ha.1 ha.2 hu)
  exact Guarded.invariant hstep (Sent.refl h) hok hrun

/-- The face of a session hides what changes unseen. -/
theorem sent_run_face {acts : List CoreAct} (h : Settled s.world)
    (hok : Guarded (coreStep cfg) (Returns cfg) s acts)
    (hrun : run (coreStep cfg) s acts = some t) : Sent AgentSession.face s.world t.world := by
  refine sent_run metricBlind_face h (hok.mono fun s a ha => ⟨ha, ?_⟩) hrun
  cases a with
  | advance tid env => exact fun sec rest _ => unseen_face s.world sec
  | _ => exact trivial

/-- A core that was just started has sent nothing. -/
theorem settled_startCore {env : Env} {settings : PublicSettings} {db : Database}
    (h : startCore cfg env settings db = some s) :
    Settled s.world ∧ s.world.frames = [] ∧ s.world.inner.streamSequence = 0 := by
  have hinner := (startCore_spec h).1
  have hnil : run (coreStep cfg) s [] = some s := run_nil _ s
  have hkeyed : Keyed s.world.registry := keyed_run h hnil
  refine ⟨⟨by rw [hinner]; rfl, hkeyed.id⟩, ?_, by rw [hinner]; rfl⟩
  simp only [startCore] at h
  split at h
  · cases h
    rfl
  · cases h

/-! ## Snapshots -/

/-- A snapshot has the sessions of the registry. -/
theorem mem_snapshot {env : Env} {s : AgentSession} (h : Keyed w.registry) :
    s ∈ (snapshotWithSequence env w).snapshot.sessions ↔
      w.registry.sessions.lookup s.id = some s := by
  set sorted := (w.registry.sessions.valuesBy env.sessionsRank).insertionSort
    (fun a b => b.lastEventAtMs ≤ a.lastEventAtMs) with hsorted
  have hlength : sorted.length ≤ maxSessions := by
    rw [hsorted, List.length_insertionSort, (Dict.valuesBy_perm _ _).length_eq]
    have hbound := h.bounded
    simpa [Dict.values, SessionRegistry.len, Dict.size] using hbound
  show s ∈ sorted.take maxSessions ↔ _
  rw [List.take_of_length_le hlength, hsorted, (List.perm_insertionSort _ _).mem_iff,
    Dict.mem_valuesBy]
  constructor
  · rintro ⟨k, hk⟩
    rw [h.id hk]
    exact hk
  · exact fun hs => ⟨s.id, hs⟩

theorem mirror_snapshot (env : Env) (h : Keyed w.registry) :
    Mirror.ofSnapshot face (snapshotWithSequence env w).snapshot = w.mirror face := by
  refine Mirror.ext (funext fun id => ?_) rfl rfl
  show Mirror.overlay face (fun _ => none) (snapshotWithSequence env w).snapshot.sessions id =
    (w.registry.sessions.lookup id).map face
  cases hid : w.registry.sessions.lookup id with
  | none =>
    refine Mirror.overlay_of_notMem fun s hs he => ?_
    have hs' := (mem_snapshot h).1 hs
    rw [he, hid] at hs'
    cases hs'
  | some s =>
    obtain rfl := h.id hid
    refine Mirror.overlay_of_mem ((mem_snapshot h).2 hid) fun t ht he => ?_
    have ht' := (mem_snapshot h).1 ht
    rw [he, hid] at ht'
    exact (Option.some.inj ht').symm

/-! ## The renderer -/

/-- What the renderer shows of a session. -/
structure AgreesWith (c s : AgentSession) : Prop where
  label : c.label = s.label
  workspaceLabel : c.workspaceLabel = s.workspaceLabel
  status : c.status = s.status
  attention : c.attention = s.attention
  startedAtMs : c.startedAtMs = s.startedAtMs
  endedAtMs : c.endedAtMs = s.endedAtMs
  processRoot : c.processRoot = s.processRoot
  verifiedTerminal : c.verifiedTerminal = s.verifiedTerminal

/-- The state of a renderer shows a snapshot. -/
structure Follows (st : NativeState) (snapshot : AppSnapshot) : Prop where
  ids : ∀ id, (st.sessions.lookup id).isSome = true ↔ ∃ s ∈ snapshot.sessions, s.id = id
  order : ∀ id, id ∈ st.sessionOrder ↔ ∃ s ∈ snapshot.sessions, s.id = id
  sessions : ∀ s ∈ snapshot.sessions, ∃ c, st.sessions.lookup s.id = some c ∧ AgreesWith c s
  settings : st.settings = some snapshot.settings
  adapters : ∀ source, st.adapters.find? (·.source = source) =
    snapshot.adapters.find? (·.source = source)

theorem agreesWith_of_face {c s : AgentSession} (h : c.face = s.face) : AgreesWith c s := by
  have hfield : ∀ {α : Type} (f : AgentSession → α), f c.face = f s.face :=
    fun f => congrArg f h
  exact ⟨hfield (·.label), hfield (·.workspaceLabel), hfield (·.status), hfield (·.attention),
    hfield (·.startedAtMs), hfield (·.endedAtMs), hfield (·.processRoot),
    hfield (·.verifiedTerminal)⟩

/-- A renderer with the mirror of the core shows its snapshot. -/
theorem follows_of_mirror {st : NativeState} (env : Env) (hk : Keyed w.registry) (ho : st.Ordered)
    (h : st.mirror AgentSession.face = w.mirror AgentSession.face) :
    Follows st (snapshotWithSequence env w).snapshot := by
  have hface : ∀ id, (st.sessions.lookup id).map AgentSession.face =
      (w.registry.sessions.lookup id).map AgentSession.face := by
    intro id
    exact congrFun (congrArg Mirror.sessions h) id
  have hids : ∀ id, (st.sessions.lookup id).isSome = true ↔
      ∃ s ∈ (snapshotWithSequence env w).snapshot.sessions, s.id = id := by
    intro id
    have hsome := congrArg Option.isSome (hface id)
    rw [Option.isSome_map, Option.isSome_map] at hsome
    rw [hsome, Option.isSome_iff_exists]
    constructor
    · rintro ⟨s, hs⟩
      obtain rfl := hk.id hs
      exact ⟨s, (mem_snapshot hk).2 hs, rfl⟩
    · rintro ⟨s, hs, rfl⟩
      exact ⟨s, (mem_snapshot hk).1 hs⟩
  refine ⟨hids, fun id => (ho id).trans (hids id), fun s hs => ?_, ?_, fun source => ?_⟩
  · have hlookup := hface s.id
    rw [(mem_snapshot hk).1 hs] at hlookup
    obtain ⟨c, hc, hcs⟩ := Option.map_eq_some_iff.1 hlookup
    exact ⟨c, hc, agreesWith_of_face hcs⟩
  · exact congrArg Mirror.settings h
  · exact congrFun (congrArg Mirror.adapters h) source

/-! ## The cut -/

/-- The frames after the sequence of a snapshot are those sent since. -/
theorem frames_after {face' : AgentSession → AgentSession} {fs gs : List StreamFrame}
    (h₀ : w₀.frames = []) (hzero : w₀.inner.streamSequence = 0) (h : Streams face w₀ w₁ fs)
    (h' : Streams face' w₁ w₂ gs) :
    (w₂.frames.filter fun f => w₁.inner.streamSequence < f.sequence) = gs := by
  have hsequence : w₁.inner.streamSequence = fs.length := by
    rw [h.sequence, hzero, Nat.zero_add]
  have hframes : w₂.frames = fs ++ gs := by
    rw [h'.frames, h.frames, h₀, List.nil_append]
  have hbefore : fs.filter (fun f => decide (w₁.inner.streamSequence < f.sequence)) = [] := by
    refine List.filter_eq_nil_iff.2 fun f hf => ?_
    have hmem : f.sequence ∈ fs.map (·.sequence) := List.mem_map_of_mem hf
    rw [h.numbered, hzero, List.mem_range'_1] at hmem
    simp only [decide_eq_true_eq]
    omega
  have hafter : gs.filter (fun f => decide (w₁.inner.streamSequence < f.sequence)) = gs := by
    refine List.filter_eq_self.2 fun f hf => ?_
    have hmem : f.sequence ∈ gs.map (·.sequence) := List.mem_map_of_mem hf
    rw [h'.numbered, List.mem_range'_1] at hmem
    simp only [decide_eq_true_eq]
    omega
  rw [hframes, List.filter_append, hbefore, hafter, List.nil_append]

/-- A renderer that applies a snapshot and then every later frame has the mirror of the core. -/
theorem mirror_follows (hface : MetricBlind face) (hk : Keyed w₁.registry)
    (hframes : w₀.frames = []) (hzero : w₀.inner.streamSequence = 0)
    (h₁ : Sent AgentSession.face w₀ w₁) (h₂ : Sent face w₁ w₂) (st : NativeState) (env : Env) :
    ((nativeReducer st (.applyBootstrap (snapshotWithSequence env w₁).snapshot
      (snapshotWithSequence env w₁).sequence (snapshotWithSequence env w₁).events)).applyFrames
        (w₂.frames.filter fun f => (snapshotWithSequence env w₁).sequence < f.sequence)).mirror
          face = w₂.mirror face := by
  obtain ⟨-, fs, hfs⟩ := h₁
  obtain ⟨-, gs, hgs⟩ := h₂
  have hlater : (w₂.frames.filter fun f =>
      (snapshotWithSequence env w₁).sequence < f.sequence) = gs :=
    frames_after hframes hzero hfs hgs
  have hboot : (nativeReducer st (.applyBootstrap (snapshotWithSequence env w₁).snapshot
      (snapshotWithSequence env w₁).sequence (snapshotWithSequence env w₁).events)).mirror face =
        w₁.mirror face :=
    (NativeState.mirror_applySnapshot st _ _ _).trans (mirror_snapshot env hk)
  rw [hlater, NativeState.mirror_applyFrames hface, hgs.mirror, hboot]

/-- A renderer that applies a snapshot and then every later frame shows the next snapshot. -/
theorem renderer_follows {cfg : CoreConfig} {env₀ : Env} {settings : PublicSettings}
    {db : Database} {s₀ s₁ s₂ : CoreState} {acts₁ acts₂ : List CoreAct}
    (hstart : startCore cfg env₀ settings db = some s₀)
    (hok₁ : Guarded (coreStep cfg) (Returns cfg) s₀ acts₁)
    (hrun₁ : run (coreStep cfg) s₀ acts₁ = some s₁)
    (hok₂ : Guarded (coreStep cfg) (Returns cfg) s₁ acts₂)
    (hrun₂ : run (coreStep cfg) s₁ acts₂ = some s₂)
    (st : NativeState) (env₁ env₂ : Env) :
    let bootstrap := snapshotWithSequence env₁ s₁.world
    Follows
      ((nativeReducer st (.applyBootstrap bootstrap.snapshot bootstrap.sequence
        bootstrap.events)).applyFrames
          (s₂.world.frames.filter fun f => bootstrap.sequence < f.sequence))
      (snapshotWithSequence env₂ s₂.world).snapshot := by
  intro bootstrap
  obtain ⟨hsettled, hframes, hzero⟩ := settled_startCore hstart
  have hsent₁ := sent_run_face hsettled hok₁ hrun₁
  have hkeyed₂ := keyed_run hstart (run_append.2 ⟨s₁, hrun₁, hrun₂⟩)
  refine follows_of_mirror env₂ hkeyed₂ ?_ ?_
  · exact NativeState.ordered_applyFrames (NativeState.ordered_applySnapshot st _ _ _) _
  · exact mirror_follows metricBlind_face (keyed_run hstart hrun₁) hframes hzero hsent₁
      (sent_run_face hsent₁.1 hok₂ hrun₂) st env₁

/-- A session starts before the snapshot; after it the session waits, another one starts and
the first one is removed. -/
def beforeSnapshot : List CoreAct :=
  CoreAct.perform 0 (.ingest (.sessionStart (sampleStart .generic "e"))) { uuid := 1 }

def afterSnapshot : List CoreAct :=
  CoreAct.perform 1 (.ingest (.sessionUpdate
    ⟨.generic, "e", some .waiting, some "renamed", none, 1⟩)) { uuid := 2 } ++
    CoreAct.perform 2 (.ingest (.sessionStart (sampleStart .qwen "f"))) { uuid := 3 } ++
    CoreAct.perform 3 (.removeSession "Generic:e") {} ++
    CoreAct.perform 4 .heartbeat {}

/-- The run meets the hypotheses : six frames follow the snapshot. -/
theorem renderer_follows_afterSnapshot :
    ∃ s₀ s₁ s₂, startCore sampleCoreConfig {} sampleSettings
        { integrations := sampleIntegrations } = some s₀ ∧
      run (coreStep sampleCoreConfig) s₀ beforeSnapshot = some s₁ ∧
      run (coreStep sampleCoreConfig) s₁ afterSnapshot = some s₂ ∧
      s₁.world.frames.length = 2 ∧ s₂.world.frames.length = 8 ∧
      Follows
        ((nativeReducer (NativeState.createInitialNativeState .preview) (.applyBootstrap
          (snapshotWithSequence {} s₁.world).snapshot (snapshotWithSequence {} s₁.world).sequence
          (snapshotWithSequence {} s₁.world).events)).applyFrames
            (s₂.world.frames.filter fun f =>
              (snapshotWithSequence {} s₁.world).sequence < f.sequence))
        (snapshotWithSequence {} s₂.world).snapshot := by
  have hrun : ((startCore sampleCoreConfig {} sampleSettings
      { integrations := sampleIntegrations }).bind fun s₀ =>
        (run (coreStep sampleCoreConfig) s₀ beforeSnapshot).bind fun s₁ =>
          (run (coreStep sampleCoreConfig) s₁ afterSnapshot).map fun s₂ =>
            (checkRun (coreStep sampleCoreConfig) (returns sampleCoreConfig) s₀ beforeSnapshot,
              checkRun (coreStep sampleCoreConfig) (returns sampleCoreConfig) s₁ afterSnapshot,
              s₁.world.frames.length, s₂.world.frames.length)) = some (true, true, 2, 8) := by
    decide
  obtain ⟨s₀, hs₀, hrun⟩ := Option.bind_eq_some_iff.1 hrun
  obtain ⟨s₁, hs₁, hrun⟩ := Option.bind_eq_some_iff.1 hrun
  obtain ⟨s₂, hs₂, hvalues⟩ := Option.map_eq_some_iff.1 hrun
  simp only [Prod.mk.injEq] at hvalues
  obtain ⟨hcheck₁, hcheck₂, hlen₁, hlen₂⟩ := hvalues
  have hguard : ∀ {s acts}, checkRun (coreStep sampleCoreConfig) (returns sampleCoreConfig) s
      acts = true → Guarded (coreStep sampleCoreConfig) (Returns sampleCoreConfig) s acts :=
    Guarded.of_sound _ fun _ _ h => h
  exact ⟨s₀, s₁, s₂, hs₀, hs₁, hs₂, hlen₁, hlen₂,
    renderer_follows hs₀ (hguard hcheck₁) hs₁ (hguard hcheck₂) hs₂ _ {} {}⟩

/-! ## The time of the last event -/

/-- A session up to its last metric. -/
def AgentSession.timed (s : AgentSession) : AgentSession :=
  { s with latestMetric := none }

theorem metricBlind_timed : MetricBlind AgentSession.timed :=
  ⟨fun _ => rfl, fun _ _ => rfl⟩

/-- A lifecycle or tool event has the time its session already has. -/
def keepsTime (s : CoreState) : CoreAct → Bool
  | .advance tid _ =>
    match s.calls.lookup tid with
    | some (.ingest command :: _) =>
      match command.touches with
      | some (source, externalSessionId, occurredAtMs) =>
        (s.world.registry.resolveExternal source externalSessionId).all
          (·.lastEventAtMs = occurredAtMs)
      | none => true
    | _ => true
  | _ => true

/-- The next section returns and keeps the time of the session it touches. -/
def ReturnsOnTime (cfg : CoreConfig) (s : CoreState) (a : CoreAct) : Prop :=
  returns cfg s a = true ∧ keepsTime s a = true

instance (cfg : CoreConfig) (s : CoreState) (a : CoreAct) : Decidable (ReturnsOnTime cfg s a) :=
  inferInstanceAs (Decidable (_ ∧ _))

theorem unseen_of_keepsTime {a : CoreAct} (h : keepsTime s a = true) :
    UnseenAct AgentSession.timed s a := by
  cases a with
  | advance tid env =>
    intro sec rest hsec
    cases sec with
    | ingest command =>
      intro source externalSessionId occurredAtMs session htouches hresolve
      simp only [keepsTime, hsec, htouches, hresolve, Option.all_some, decide_eq_true_eq] at h
      rw [← h]
    | _ => exact trivial
  | _ => exact trivial

/-- As long as lifecycle and tool events keep the time of their session, a renderer has the
time of the last event of every session. -/
theorem activity_follows {cfg : CoreConfig} {env₀ : Env} {settings : PublicSettings}
    {db : Database} {s₀ s₁ s₂ : CoreState} {acts₁ acts₂ : List CoreAct}
    (hstart : startCore cfg env₀ settings db = some s₀)
    (hok₁ : Guarded (coreStep cfg) (Returns cfg) s₀ acts₁)
    (hrun₁ : run (coreStep cfg) s₀ acts₁ = some s₁)
    (hok₂ : Guarded (coreStep cfg) (ReturnsOnTime cfg) s₁ acts₂)
    (hrun₂ : run (coreStep cfg) s₁ acts₂ = some s₂)
    (st : NativeState) (env : Env) (id : String) :
    let bootstrap := snapshotWithSequence env s₁.world
    ((((nativeReducer st (.applyBootstrap bootstrap.snapshot bootstrap.sequence
      bootstrap.events)).applyFrames
        (s₂.world.frames.filter fun f => bootstrap.sequence < f.sequence)).sessions.lookup
          id).map (·.lastEventAtMs)) =
      (s₂.world.registry.sessions.lookup id).map (·.lastEventAtMs) := by
  intro bootstrap
  obtain ⟨hsettled, hframes, hzero⟩ := settled_startCore hstart
  have hsent₁ := sent_run_face hsettled hok₁ hrun₁
  have hsent₂ : Sent AgentSession.timed s₁.world s₂.world :=
    sent_run metricBlind_timed hsent₁.1
      (hok₂.mono fun _ _ ha => ⟨ha.1, unseen_of_keepsTime ha.2⟩) hrun₂
  have hmirror := mirror_follows metricBlind_timed (keyed_run hstart hrun₁) hframes hzero hsent₁
    hsent₂ st env
  have hshown := congrArg (fun m : Mirror => (m.sessions id).map (·.lastEventAtMs)) hmirror
  simp only [NativeState.mirror, World.mirror, Option.map_map] at hshown
  exact hshown

/-- A renderer that starts from a snapshot of `s₁` and applies the frames up to `s₂`. -/
def rendered (s₁ s₂ : CoreState) : NativeState :=
  (nativeReducer (NativeState.createInitialNativeState .preview) (.applyBootstrap
    (snapshotWithSequence {} s₁.world).snapshot (snapshotWithSequence {} s₁.world).sequence
    (snapshotWithSequence {} s₁.world).events)).applyFrames
      (s₂.world.frames.filter fun f => (snapshotWithSequence {} s₁.world).sequence < f.sequence)

/-- A tool event of the session of `beforeSnapshot`, which started at time zero. -/
def toolAt (occurredAtMs : ℤ) : List CoreAct :=
  CoreAct.perform 1 (.ingest (.toolEvent
    ⟨.generic, "e", .info, "tool", none, occurredAtMs⟩)) { uuid := 2 }

/-- The states after `beforeSnapshot` and after a later run, if every operation returns. -/
def beforeAndAfter (later : List CoreAct) : Option (CoreState × CoreState) :=
  (startCore sampleCoreConfig {} sampleSettings { integrations := sampleIntegrations }).bind
    fun s₀ =>
      if checkRun (coreStep sampleCoreConfig) (returns sampleCoreConfig) s₀
          (beforeSnapshot ++ later) then
        (run (coreStep sampleCoreConfig) s₀ beforeSnapshot).bind fun s₁ =>
          (run (coreStep sampleCoreConfig) s₁ later).map fun s₂ => (s₁, s₂)
      else none

/-- A tool event at the time the session has is no exception. -/
theorem activity_follows_toolAt : ∃ s₀ s₁ s₂,
    startCore sampleCoreConfig {} sampleSettings { integrations := sampleIntegrations } =
      some s₀ ∧
    run (coreStep sampleCoreConfig) s₀ beforeSnapshot = some s₁ ∧
    run (coreStep sampleCoreConfig) s₁ (toolAt 0) = some s₂ ∧
    ((rendered s₁ s₂).sessions.lookup "Generic:e").map (·.lastEventAtMs) = some 0 := by
  have hrun : ((startCore sampleCoreConfig {} sampleSettings
      { integrations := sampleIntegrations }).bind fun s₀ =>
        (run (coreStep sampleCoreConfig) s₀ beforeSnapshot).bind fun s₁ =>
          (run (coreStep sampleCoreConfig) s₁ (toolAt 0)).map fun s₂ =>
            (checkRun (coreStep sampleCoreConfig) (returns sampleCoreConfig) s₀ beforeSnapshot,
              checkRun (coreStep sampleCoreConfig)
                (fun s a => decide (ReturnsOnTime sampleCoreConfig s a)) s₁ (toolAt 0),
              (s₂.world.registry.sessions.lookup "Generic:e").map (·.lastEventAtMs))) =
        some (true, true, some 0) := by
    decide
  obtain ⟨s₀, hs₀, hrun⟩ := Option.bind_eq_some_iff.1 hrun
  obtain ⟨s₁, hs₁, hrun⟩ := Option.bind_eq_some_iff.1 hrun
  obtain ⟨s₂, hs₂, hvalues⟩ := Option.map_eq_some_iff.1 hrun
  simp only [Prod.mk.injEq] at hvalues
  obtain ⟨hcheck₁, hcheck₂, htime⟩ := hvalues
  have hok₁ : Guarded (coreStep sampleCoreConfig) (Returns sampleCoreConfig) s₀ beforeSnapshot :=
    Guarded.of_sound _ (fun _ _ h => h) hcheck₁
  refine ⟨s₀, s₁, s₂, hs₀, hs₁, hs₂, ?_⟩
  exact (activity_follows hs₀ hok₁ hs₁ (Guarded.of_decide hcheck₂) hs₂ _ {} _).trans htime

/-- After a tool event at time five the core has time five and the renderer time zero. -/
theorem activity_missed : (beforeAndAfter (toolAt 5)).map (fun s =>
    (((rendered s.1 s.2).sessions.lookup "Generic:e").map (·.lastEventAtMs),
      (s.2.world.registry.sessions.lookup "Generic:e").map (·.lastEventAtMs))) =
    some (some 0, some 5) := by
  decide

end LlmNotch
