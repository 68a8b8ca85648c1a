import LlmNotch.IngestIsolation
import LlmNotch.SessionEffects
import LlmNotch.UniformState

/-!
# The identity of a session

A session is inserted under the identifier of its source and external id, and no operation
changes any of the three afterwards (`Named`, `named_step`). If identifiers are injective, no
start meets another session under its identifier, so the index stays inverse to the sessions
(`Identified`) and a source and external id belong to one session, in memory and in the
database (`OnePerKey`).

A start of a session that is there answers with it and leaves the sessions and their events
alone (`wp_replay`); like every operation that succeeds it sends what failed ones have left
in the queue. `session_identity` says both for every run from an empty database. A start that
was answered for its idempotency key has passed no check of its status, and may fail when it
is repeated under another key : `repeated_start_differs`.
-/

namespace LlmNotch

open AppCore

/-! ## Names -/

/-- The identifier is the one of the source and the external id. -/
def AgentSession.Named (cfg : CoreConfig) (s : AgentSession) : Prop :=
  s.id = cfg.sessionIdFor s.source s.externalSessionId

theorem AgentSession.Named.of_identity {cfg : CoreConfig} {s t : AgentSession}
    (h : s.Named cfg) (hi : t.identity = s.identity) : t.Named cfg := by
  simp only [AgentSession.identity, Prod.mk.injEq] at hi
  obtain ⟨hid, hsource, hext⟩ := hi
  rw [AgentSession.Named, hid, hsource, hext]
  exact h

/-- Every session is named, in memory and in the database. -/
structure Named (cfg : CoreConfig) (w : World) : Prop where
  memory : ∀ {id s}, w.registry.sessions.lookup id = some s → s.Named cfg
  rows : ∀ {row}, row ∈ w.db.sessions → row.Named cfg

theorem Named.uniform {cfg : CoreConfig} {w : World} (h : Named cfg w) :
    Uniform (AgentSession.Named cfg) (fun _ => True) w :=
  ⟨h.memory, h.rows, trivial⟩

theorem named_exec {cfg : CoreConfig} {env : Env} (sec : CoreSection) :
    Keeps (Named cfg) (sec.exec cfg env) := by
  have hP : Nominal (AgentSession.Named cfg) := fun _ _ h hi => h.of_identity hi
  have hA : SectionProof fun _ => True := by
    refine ⟨⟨?_, ?_, ?_⟩, ?_, ?_, ?_, ?_, ?_, ?_⟩
    all_goals simp
  have hmetrics : ∀ frame now, Keeps (Uniform (AgentSession.Named cfg) fun _ => True)
      (applyMetrics env frame now) := by
    intro frame now
    refine keeps_bind keeps_get fun w => ?_
    refine keeps_bind (keeps_forM fun id _ => uniform_refreshMetric hP hA.1 frame id) fun _ => ?_
    refine keeps_bind (keeps_modify fun _ h => h.congr rfl rfl trivial) fun _ => ?_
    refine keeps_bind (keeps_modify fun _ h => h.congr rfl rfl trivial) fun _ => ?_
    exact keeps_bind (uniform_queuePayload hA.1 _) fun _ => uniform_flushPending hA
  have hkeep : Keeps (Uniform (AgentSession.Named cfg) fun _ => True) (sec.exec cfg env) :=
    uniform_exec hP hA (fun _ => rfl) fun frame now _ => hmetrics frame now
  intro w hw
  exact wp_mono (hkeep w hw.uniform) (fun _ _ h => ⟨h.memory, h.rows⟩)
    fun _ _ h => ⟨h.memory, h.rows⟩

/-! ### Steps -/

theorem named_restarted {cfg : CoreConfig} {settings : PublicSettings} {w : World}
    {db : Database} (hrows : ∀ row ∈ db.sessions, row.Named cfg)
    (hinner : w.inner = restartedCore cfg settings db) (hdb : w.db = db) : Named cfg w := by
  refine ⟨fun {id s} hs => ?_, fun hrow => hrows _ (hdb ▸ hrow)⟩
  have hput : ∀ (rows : List AgentSession) (r : SessionRegistry),
      (∀ t ∈ rows, t.Named cfg) → (∀ {k t}, r.sessions.lookup k = some t → t.Named cfg) →
      ∀ {k t}, (rows.foldl SessionRegistry.putSession r).sessions.lookup k = some t →
        t.Named cfg := by
    intro rows
    induction rows with
    | nil => exact fun r _ hr => hr
    | cons t rows ih =>
      refine fun r ht hr => ih _ (fun u hu => ht u (List.mem_cons_of_mem t hu)) fun {k u} hu => ?_
      simp only [SessionRegistry.putSession, Dict.lookup_insert_ite] at hu
      split at hu
      · rw [← Option.some.inj hu]
        exact ht t List.mem_cons_self
      · exact hr hu
  rw [World.registry, hinner] at hs
  simp only [restartedCore, SessionRegistry.restoredRegistry,
    SessionRegistry.sessions_pushAll] at hs
  refine hput _ _ (fun t ht => ?_) (fun h => by cases h) hs
  obtain ⟨row, hrow, rfl⟩ := List.mem_map.1
    ((List.perm_insertionSort _ _).mem_iff.1 (List.mem_of_mem_take ht))
  have hmem := (List.perm_insertionSort _ _).mem_iff.1 (List.mem_of_mem_take hrow)
  exact (hrows row hmem).of_identity rfl

theorem named_step {cfg : CoreConfig} {s t : CoreState} {a : CoreAct} (h : Named cfg s.world)
    (hstep : coreStep cfg s a = some t) : Named cfg t.world := by
  cases a with
  | call tid call =>
    simp only [coreStep] at hstep
    split at hstep
    · cases hstep
      exact h
    · cases hstep
  | advance tid env =>
    simp only [coreStep] at hstep
    split at hstep
    · rename_i sec rest hsec
      cases hstep
      have hentered : Named cfg (s.world.entered env) := ⟨h.memory, h.rows⟩
      have hkeeps : Keeps (Named cfg) (sec.exec cfg env) := named_exec sec
      have hwp := hkeeps _ hentered
      cases hexec : sec.exec cfg env (s.world.entered env) with
      | ok more w =>
        have hnamed := wp_ok hwp hexec
        exact hnamed
      | error f w =>
        have hnamed := wp_error hwp hexec
        exact hnamed
    · cases hstep
      exact h
    · cases hstep
  | restart env settings =>
    obtain ⟨hinner, hdb⟩ := restart_spec hstep
    exact named_restarted (fun _ hrow => h.rows hrow) hinner hdb

/-! ## Keys -/

/-- At most one session has a source and external id, wherever sessions are kept. -/
structure OnePerKey (w : World) : Prop where
  memory : ∀ {i j s t}, w.registry.get i = some s → w.registry.get j = some t →
    s.source = t.source → s.externalSessionId = t.externalSessionId → i = j
  rows : (w.db.sessions.map fun row => (row.source, row.externalSessionId)).Nodup
  across : ∀ {id s row}, w.registry.get id = some s → row ∈ w.db.sessions →
    row.source = s.source → row.externalSessionId = s.externalSessionId → row.id = id

/-- A session of this source and external id is stored under the identifier, in memory or in
the database. -/
def World.Live (w : World) (source : AgentSource) (externalSessionId id : String) : Prop :=
  ∃ s, (w.registry.get id = some s ∨ s ∈ w.db.sessions ∧ s.id = id) ∧
    s.source = source ∧ s.externalSessionId = externalSessionId

/-- The invariant : names, a session in memory under every row, and the index. -/
structure Identified (cfg : CoreConfig) (w : World) : Prop where
  named : Named cfg w
  held : Held w
  indexed : Indexed w.registry

section Identified

variable {cfg : CoreConfig} {w : World}

theorem Identified.onePerKey (h : Identified cfg w) : OnePerKey w where
  memory {i j s t} hs ht hsource hext := by
    have hi := h.named.memory hs
    have hj := h.named.memory ht
    rw [AgentSession.Named, h.held.keyed.id hs] at hi
    rw [AgentSession.Named, h.held.keyed.id ht] at hj
    rw [hi, hj, hsource, hext]
  rows := h.held.distinct.keys
  across {id s row} hs hrow hsource hext := by
    have hi := h.named.memory hs
    have hrow' := h.named.rows hrow
    rw [AgentSession.Named, h.held.keyed.id hs] at hi
    rw [hrow', hi, hsource, hext]

variable (hinj : ∀ {a b x y}, cfg.sessionIdFor a x = cfg.sessionIdFor b y → a = b ∧ x = y)

include hinj

/-- Only the session itself has its identifier. -/
theorem Identified.ownId (h : Identified cfg w) (source : AgentSource)
    (externalSessionId : String) : Host.OwnId cfg w source externalSessionId := by
  intro s hs
  have hnamed := h.named.memory hs
  rw [AgentSession.Named, h.held.keyed.id hs] at hnamed
  obtain ⟨hsource, hext⟩ := hinj hnamed
  exact ⟨hsource.symm, hext.symm⟩

/-- A live session is the one the index resolves. -/
theorem Identified.resolve (h : Identified cfg w) {source : AgentSource}
    {externalSessionId id : String} (hlive : w.Live source externalSessionId id) :
    ∃ t, w.registry.resolveExternal source externalSessionId = some t ∧ t.id = id := by
  obtain ⟨s, hs, hsource, hext⟩ := hlive
  have hmemory : ∃ t, w.registry.get id = some t ∧ t.source = source ∧
      t.externalSessionId = externalSessionId := by
    rcases hs with hs | ⟨hrow, rfl⟩
    · exact ⟨s, hs, hsource, hext⟩
    · have hview : (w.sessionView s.id).row.isSome = true := by
        have hfind : (w.db.sessions.find? fun r => decide (r.id = s.id)).isSome = true :=
          List.find?_isSome.2 ⟨s, hrow, decide_eq_true rfl⟩
        simpa [World.sessionView, Database.standing] using hfind
      have hheld : (w.registry.get s.id).isSome = true := by
        simpa [World.sessionView] using h.held.rows s.id hview
      obtain ⟨t, ht⟩ := Option.isSome_iff_exists.1 hheld
      have hnamed : s.id = cfg.sessionIdFor source externalSessionId := by
        rw [← hsource, ← hext]
        exact h.named.rows hrow
      have hown := h.ownId hinj source externalSessionId t (by rw [← hnamed]; exact ht)
      exact ⟨t, ht, hown.1, hown.2⟩
  obtain ⟨t, ht, htsource, htext⟩ := hmemory
  have hkey : externalKey source externalSessionId = t.key := by
    rw [AgentSession.key, htsource, htext]
  refine ⟨t, ?_, h.held.keyed.id ht⟩
  rw [SessionRegistry.resolveExternal, hkey, h.indexed.reachable ht]
  exact ht

theorem identified_step {s t : CoreState} {a : CoreAct} (h : Identified cfg s.world)
    (hstep : coreStep cfg s a = some t) : Identified cfg t.world := by
  have hguard : NoOverwrite cfg s a := by
    cases a with
    | advance tid env =>
      intro cmd rest _ hnew
      exact Or.inl ((h.ownId hinj _ _).free h.indexed hnew.unknown)
    | _ => trivial
  have hindex := indexOk_step hguard ⟨h.indexed, h.held.distinct⟩ hstep
  exact ⟨named_step h.named hstep, held_step h.held hstep, hindex.1⟩

omit hinj in
theorem identified_start {env : Env} {settings : PublicSettings} {s : CoreState}
    (hstart : startCore cfg env settings {} = some s) : Identified cfg s.world := by
  obtain ⟨hinner, hdb⟩ := startCore_spec hstart
  have hempty : DistinctRows ({} : Database).sessions := ⟨List.nodup_nil, List.nodup_nil⟩
  refine ⟨named_restarted (fun _ h => by cases h) hinner hdb, held_start hstart, ?_⟩
  rw [World.registry, hinner]
  exact indexed_restartedCore hempty

theorem identified_run {s t : CoreState} {acts : List CoreAct} (h : Identified cfg s.world)
    (hrun : run (coreStep cfg) s acts = some t) : Identified cfg t.world :=
  Guarded.invariant (I := fun s => Identified cfg s.world)
    (fun _ _ _ _ h hstep => identified_step hinj h hstep) h (Guarded.trivial _ _ acts) hrun

end Identified

/-! ## Repeated starts -/

/-- The core knows the idempotency key of a start. -/
def KnowsKey (w : World) (key : Option String) : Prop :=
  ∃ k ∈ key, w.registry.checkIdempotency k = true ∨
    hasKey (·.1) k w.db.idempotencyKeys = true

/-- The store is not asked for the key, or answers. -/
def KeyStored (w : World) (key : Option String) : Prop :=
  ∀ k ∈ key, w.registry.checkIdempotency k = true ∨ w.store.faults.headD false = false

/-- Everything but the idempotency keys and the fate of the statements to come. -/
def World.withoutKeys (w : World) : World :=
  { w with
    inner := { w.inner with registry := { w.inner.registry with idempotency := [] } }
    store := ⟨{ w.store.db with idempotencyKeys := [] }, []⟩ }

theorem World.withoutKeys_flush (w : World) (env : Env) :
    (w.flush env).withoutKeys = w.withoutKeys.flush env := by
  unfold World.flush
  show (if w.inner.coalescer.isEmpty then _ else _ : World).withoutKeys =
    if w.inner.coalescer.isEmpty then _ else _
  split <;> rfl

/-- The fields of the start pass their checks. -/
structure FieldsValid (cmd : SessionStartCommand) : Prop where
  externalSessionId : validateExternalSessionId cmd.externalSessionId = .ok ()
  label : validateSessionLabel cmd.label = .ok ()
  workspaceLabel : validateOptional validateWorkspaceLabel cmd.workspaceLabel = .ok ()

section Replay

variable {cfg : CoreConfig} {env : Env} {w : World} {cmd : SessionStartCommand} {α : Type}

/-- A start that succeeds has passed the checks of its fields. -/
theorem fieldsValid_of_ok {more : List CoreSection} {w' : World}
    (hexec : CoreSection.exec cfg env (.ingest (.sessionStart cmd)) w = .ok more w') :
    FieldsValid cmd := by
  have hwp : wp (CoreSection.exec cfg env (.ingest (.sessionStart cmd))) w
      (fun _ _ => FieldsValid cmd) anyFault := by
    unfold CoreSection.exec ingest handleIngest sessionStart
    rw [wp_bind, wp_bind]
    refine wp_check_bind (fun _ _ => trivial) fun hext => ?_
    refine wp_check_bind (fun _ _ => trivial) fun hlabel => ?_
    refine wp_check_bind (fun _ _ => trivial) fun hworkspace => ?_
    exact wp_mono (wp_run _ _) (fun _ _ _ => wp_mono (wp_run _ _)
      (fun _ _ _ => ⟨hext, hlabel, hworkspace⟩) fun _ _ _ => trivial) fun _ _ _ => trivial
  exact wp_ok hwp hexec

theorem Repository.wp_statement_returns {sql : Database → Except String (α × Database)} {s : Store}
    {Q : α → Store → Prop} {E : Fault → Store → Prop} {a : α} {db : Database}
    (hfault : s.faults.headD false = false) (hsql : sql s.db = .ok (a, db))
    (hQ : Q a ⟨db, s.faults.tail⟩) : wp (statement sql) s Q E := by
  have hnot : ¬ s.faults.headD false = true := by
    rw [hfault]
    exact Bool.false_ne_true
  unfold wp statement
  simpa only [if_neg hnot, hsql] using hQ

theorem wp_knownKey_returns {key : String} {occurredAtMs : ℤ} (hstored : KeyStored w (some key)) :
    wp (knownKey key occurredAtMs) w
      (fun known w' => w'.withoutKeys = w.withoutKeys ∧ (known = false → ¬ KnowsKey w (some key)))
      fun _ _ => False := by
  unfold knownKey
  rw [wp_bind, wp_get]
  split
  · exact ⟨rfl, fun h => by cases h⟩
  · rename_i hmemory
    have hstored' := (hstored key rfl).resolve_left hmemory
    have hfault := (hstored key rfl).resolve_left hmemory
    unfold onStore Repository.storeIdempotencyKey
    rw [wp_zoom]
    by_cases hrow : hasKey (·.1) key w.store.db.idempotencyKeys = true
    · exact Repository.wp_statement_returns hfault (if_pos hrow) ⟨rfl, fun h => by cases h⟩
    · refine Repository.wp_statement_returns hfault (if_neg hrow) ⟨rfl, fun _ => ?_⟩
      rintro ⟨k, hk, hknows⟩
      cases hk
      exact hknows.elim hmemory hrow

/-- A start of a session that is there finds it, or its key is not known. -/
theorem wp_replayedStart_returns {t : AgentSession}
    (hres : w.registry.resolveExternal cmd.source cmd.externalSessionId = some t)
    (hstored : KeyStored w cmd.idempotencyKey) :
    wp (replayedStart cmd) w
      (fun r w' => w'.withoutKeys = w.withoutKeys ∧
        (r = some t ∨ r = none ∧ ¬ KnowsKey w cmd.idempotencyKey)) fun _ _ => False := by
  unfold replayedStart
  cases hkey : cmd.idempotencyKey with
  | none => exact ⟨rfl, .inr ⟨rfl, fun ⟨_, h, _⟩ => by cases h⟩⟩
  | some key =>
    rw [hkey] at hstored
    rw [wp_bind]
    refine wp_mono (wp_knownKey_returns hstored) (fun known w₁ hw₁ => ?_) fun _ _ h => h
    obtain ⟨hkeys, hunknown⟩ := hw₁
    have hres₁ : w₁.inner.registry.resolveExternal cmd.source cmd.externalSessionId = some t :=
      (congrArg (fun v : World => v.registry.resolveExternal cmd.source cmd.externalSessionId)
        hkeys).trans hres
    rw [wp_bind, wp_get, hres₁]
    cases known with
    | true => exact ⟨hkeys, .inl rfl⟩
    | false =>
      simp only [wp_bind, onRegistry, wp_zoom, SessionRegistry.recordIdempotency, wp_modify,
        wp_pure]
      exact ⟨hkeys, .inr ⟨trivial, hunknown rfl⟩⟩

/-- A start of a session that is there answers with it, and changes nothing but the known
keys and the queue. -/
theorem wp_replay {t : AgentSession} (hvalid : FieldsValid cmd)
    (hres : w.registry.resolveExternal cmd.source cmd.externalSessionId = some t)
    (hevents : (w.adapter cmd.source).any (·.events) = true)
    (hstatus : KnowsKey w cmd.idempotencyKey ∨ validateStartStatus cmd.status = .ok ())
    (hstored : KeyStored w cmd.idempotencyKey) :
    wp (ingest cfg env (.sessionStart cmd)) w
      (fun r w' => r = IngestResult.replay t ∧ w'.withoutKeys = (w.flush env).withoutKeys)
      fun _ _ => False := by
  have hstart : wp (sessionStart cfg env cmd) w
      (fun r w' => r = IngestResult.replay t ∧ w'.withoutKeys = w.withoutKeys)
      fun _ _ => False := by
    unfold sessionStart
    refine wp_check_bind (fun h => absurd hvalid.externalSessionId h) fun _ => ?_
    refine wp_check_bind (fun h => absurd hvalid.label h) fun _ => ?_
    refine wp_check_bind (fun h => absurd hvalid.workspaceLabel h) fun _ => ?_
    rw [wp_bind]
    refine wp_mono (wp_replayedStart_returns hres hstored) (fun r w₁ hw₁ => ?_) fun _ _ h => h
    obtain ⟨hkeys, rfl | ⟨rfl, hunknown⟩⟩ := hw₁
    · exact ⟨rfl, hkeys⟩
    · have hres₁ : w₁.inner.registry.resolveExternal cmd.source cmd.externalSessionId = some t :=
        (congrArg (fun v : World => v.registry.resolveExternal cmd.source cmd.externalSessionId)
          hkeys).trans hres
      have hadapter := congrArg (fun v : World => v.adapter cmd.source) hkeys
      replace hadapter : w₁.adapter cmd.source = w.adapter cmd.source := hadapter
      simp only [requireEvents, capabilitiesFor, wp_bind, wp_get, wp_okOr, wp_ensure, wp_check,
        hstatus.resolve_left hunknown, hres₁]
      refine ⟨fun c hc => ⟨fun _ => ⟨fun _ _ => ⟨rfl, hkeys⟩, fun _ h => by cases h⟩,
        fun hno => ?_⟩, fun hnone => ?_⟩
      · have hfind : w₁.adapter cmd.source = some c := hc
        rw [← hadapter, hfind, Option.any_some, hno] at hevents
        cases hevents
      · have hfind : w₁.adapter cmd.source = none := hnone
        rw [← hadapter, hfind] at hevents
        cases hevents
  unfold ingest handleIngest
  rw [wp_bind]
  refine wp_mono hstart (fun r w₁ hw₁ => ?_) fun _ _ h => h
  obtain ⟨rfl, hkeys⟩ := hw₁
  refine ⟨rfl, ?_⟩
  rw [World.withoutKeys_flush, World.withoutKeys_flush, hkeys]

end Replay

/-- In every run from an empty database a key has one session, and a start that succeeded once
and passes the check of its status is answered with the session of its key whenever there is
one, under any idempotency key the store takes. -/
theorem session_identity {cfg : CoreConfig}
    (hinj : ∀ {a b x y}, cfg.sessionIdFor a x = cfg.sessionIdFor b y → a = b ∧ x = y)
    {env : Env} {settings : PublicSettings} {s₀ s₁ : CoreState} {before : List CoreAct}
    (hstart : startCore cfg env settings {} = some s₀)
    (hbefore : run (coreStep cfg) s₀ before = some s₁) :
    OnePerKey s₁.world ∧
    ∀ {tid : ℕ} {env₁ : Env} {cmd : SessionStartCommand} {rest : List CoreSection}
      {later : List CoreAct} {s₂ : CoreState},
      s₁.calls.lookup tid = some (.ingest (.sessionStart cmd) :: rest) →
      sectionFault cfg s₁ tid env₁ = none →
      run (coreStep cfg) s₁ (.advance tid env₁ :: later) = some s₂ →
      ∀ {id : String} {key : Option String} {env₂ : Env},
        s₂.world.Live cmd.source cmd.externalSessionId id →
        (s₂.world.adapter cmd.source).any (·.events) = true →
        KnowsKey s₂.world key ∨ validateStartStatus cmd.status = .ok () →
        KeyStored (s₂.world.entered env₂) key →
        ∃ w, ingest cfg env₂ (.sessionStart { cmd with idempotencyKey := key })
            (s₂.world.entered env₂) = .ok ⟨some id, none, true⟩ w ∧
          w.withoutKeys = (s₂.world.flush env₂).withoutKeys ∧
          (s₂.world.inner.coalescer.isEmpty = true → w.withoutKeys = s₂.world.withoutKeys) := by
  have h₁ := identified_run hinj (identified_start hstart) hbefore
  refine ⟨h₁.onePerKey, ?_⟩
  intro tid env₁ cmd rest later s₂ hsec hok hlater id key env₂ hlive hevents hstatus hstored
  have hvalid : FieldsValid cmd := by
    simp only [sectionFault, hsec] at hok
    split at hok
    · rename_i hexec
      exact fieldsValid_of_ok hexec
    · cases hok
  have h₂ := identified_run hinj h₁ hlater
  obtain ⟨t, hres, rfl⟩ := h₂.resolve hinj hlive
  have hwp : wp (ingest cfg env₂ (.sessionStart { cmd with idempotencyKey := key }))
      (s₂.world.entered env₂) (fun r w => r = IngestResult.replay t ∧
        w.withoutKeys = ((s₂.world.entered env₂).flush env₂).withoutKeys) fun _ _ => False :=
    wp_replay ⟨hvalid.1, hvalid.2, hvalid.3⟩ hres hevents hstatus hstored
  obtain ⟨r, w, hrun, rfl, hw⟩ := exists_ok_of_wp hwp
  rw [World.withoutKeys_flush] at hw
  have hentered : (s₂.world.entered env₂).withoutKeys = s₂.world.withoutKeys := rfl
  rw [hentered, ← World.withoutKeys_flush] at hw
  refine ⟨w, hrun, hw, fun hempty => ?_⟩
  rw [hw, World.flush, if_pos hempty]

/-- An integration, before the first session of a run. -/
def sampleIntegration : List CoreAct :=
  CoreAct.perform 0 (.ingest (.integrationHealth
    ⟨AdapterCapabilities.template .generic, true, none, 0⟩)) {}

/-- A session is opened, and the same start under a new idempotency key finds it. -/
theorem session_identity_retried : ∃ s₀ s₁ s₂,
    startCore sampleCoreConfig {} sampleSettings {} = some s₀ ∧
    run (coreStep sampleCoreConfig) s₀ (sampleIntegration ++
      [.call 1 (.ingest (.sessionStart (sampleStart .generic "e")))]) = some s₁ ∧
    coreStep sampleCoreConfig s₁ (.advance 1 { uuid := 1 }) = some s₂ ∧ OnePerKey s₁.world ∧
    ∃ w, ingest sampleCoreConfig {}
        (.sessionStart { sampleStart .generic "e" with idempotencyKey := some "again" })
        (s₂.world.entered {}) = .ok ⟨some sampleId, none, true⟩ w ∧
      w.withoutKeys = s₂.world.withoutKeys := by
  have hrun : ((startCore sampleCoreConfig {} sampleSettings {}).bind fun s₀ =>
      (run (coreStep sampleCoreConfig) s₀ sampleIntegration).bind fun s =>
        (coreStep sampleCoreConfig s
          (.call 1 (.ingest (.sessionStart (sampleStart .generic "e"))))).bind fun s₁ =>
            (coreStep sampleCoreConfig s₁ (.advance 1 { uuid := 1 })).map fun s₂ =>
              (s.calls.lookup 1).isNone && (sectionFault sampleCoreConfig s₁ 1 { uuid := 1 }).isNone &&
                (s₂.world.registry.get sampleId).any (fun t =>
                  t.source = .generic ∧ t.externalSessionId = "e") &&
                (s₂.world.adapter .generic).any (·.events) &&
                s₂.world.inner.coalescer.isEmpty) = some true := by
    decide
  obtain ⟨s₀, hs₀, hrun⟩ := Option.bind_eq_some_iff.1 hrun
  obtain ⟨s, hs, hrun⟩ := Option.bind_eq_some_iff.1 hrun
  obtain ⟨s₁, hs₁, hrun⟩ := Option.bind_eq_some_iff.1 hrun
  obtain ⟨s₂, hs₂, hvalues⟩ := Option.map_eq_some_iff.1 hrun
  simp only [Bool.and_eq_true, Option.isNone_iff_eq_none] at hvalues
  obtain ⟨⟨⟨⟨hfree, hok⟩, hsession⟩, hevents⟩, hempty⟩ := hvalues
  obtain ⟨t, ht, hkey⟩ := (Option.any_eq_true _ _).1 hsession
  have hbefore : run (coreStep sampleCoreConfig) s₀ (sampleIntegration ++
      [.call 1 (.ingest (.sessionStart (sampleStart .generic "e")))]) = some s₁ :=
    run_append.2 ⟨s, hs, run_cons.2 ⟨s₁, hs₁, rfl⟩⟩
  have hsec : s₁.calls.lookup 1 = some [.ingest (.sessionStart (sampleStart .generic "e"))] := by
    simp only [coreStep, hfree] at hs₁
    cases hs₁
    exact AList.lookup_insert _
  obtain ⟨hone, hreplay⟩ := session_identity externalKey_inj.1 hs₀ hbefore
  refine ⟨s₀, s₁, s₂, hs₀, hbefore, hs₂, hone, ?_⟩
  have hlive : s₂.world.Live .generic "e" sampleId := ⟨t, .inl ht, by simpa using hkey⟩
  obtain ⟨w, hw, -, hsame⟩ := @hreplay 1 { uuid := 1 } _ _ [] s₂ hsec hok
    (run_cons.2 ⟨s₂, hs₂, rfl⟩) sampleId (some "again") {} hlive hevents (.inr rfl)
    fun _ _ => .inr rfl
  exact ⟨w, hw, hsame hempty⟩

/-! ## Where a repeated start differs -/

/-- A start of a session that waits. -/
def waitingStart (key : Option String) : CoreCall :=
  .ingest (.sessionStart { sampleStart .generic "e" with idempotencyKey := key, status := .waiting })

/-- A start under an idempotency key, and a second one that is answered for the key. -/
def answeredRun : List CoreAct :=
  sampleIntegration ++ CoreAct.perform 1 (.ingest (.sessionStart
    { sampleStart .generic "e" with idempotencyKey := some "k" })) { uuid := 1 } ++
      [.call 2 (waitingStart (some "k"))]

def openingRun : List CoreAct :=
  sampleIntegration ++ [.call 1 (.ingest (.sessionStart (sampleStart .generic "e")))]

/-- Another session; then a sweep marks both and fails between them. -/
def failingSweep : List CoreAct :=
  .advance 1 { uuid := 1 } ::
    CoreAct.perform 2 (.ingest (.sessionStart (sampleStart .generic "f"))) { uuid := 2 } ++
      CoreAct.perform 3 .tick { now := staleSessionMs, faults := [false, true] } ++
        [.call 4 (.ingest (.sessionStart (sampleStart .generic "e")))]

/-- The session is live and its integration reports events. -/
def retryable (s : CoreState) : Bool :=
  (s.world.registry.get sampleId).any (fun t =>
    t.source = .generic ∧ t.externalSessionId = "e") &&
      (s.world.adapter .generic).any (·.events)

theorem live_of_retryable {s : CoreState} (h : retryable s = true) :
    s.world.Live .generic "e" sampleId ∧ (s.world.adapter .generic).any (·.events) = true := by
  simp only [retryable, Bool.and_eq_true] at h
  obtain ⟨t, ht, hkey⟩ := (Option.any_eq_true _ _).1 h.1
  exact ⟨⟨t, .inl ht, by simpa using hkey⟩, h.2⟩

/-- A start that was answered for its key fails under no key, a repeated start sends what a
failed sweep has queued, and a repeated start fails if the store fails. -/
theorem repeated_start_differs : ∃ s₀,
    startCore sampleCoreConfig {} sampleSettings {} = some s₀ ∧
    (∃ s₁ s₂, run (coreStep sampleCoreConfig) s₀ answeredRun = some s₁ ∧
      sectionFault sampleCoreConfig s₁ 2 {} = none ∧
      run (coreStep sampleCoreConfig) s₁ [.advance 2 {}, .call 3 (waitingStart none)] = some s₂ ∧
      (s₂.world.Live .generic "e" sampleId ∧
        (s₂.world.adapter .generic).any (·.events) = true) ∧
      sectionFault sampleCoreConfig s₂ 3 {} =
        some (.err (.invalidTransition .starting .waiting))) ∧
    ∃ s₁, run (coreStep sampleCoreConfig) s₀ openingRun = some s₁ ∧
      sectionFault sampleCoreConfig s₁ 1 { uuid := 1 } = none ∧
      (∃ s₂ s₃, run (coreStep sampleCoreConfig) s₁ failingSweep = some s₂ ∧
        (s₂.world.Live .generic "e" sampleId ∧
          (s₂.world.adapter .generic).any (·.events) = true) ∧
        sectionFault sampleCoreConfig s₂ 4 {} = none ∧
        coreStep sampleCoreConfig s₂ (.advance 4 {}) = some s₃ ∧
        s₃.world.inner.streamSequence ≠ s₂.world.inner.streamSequence) ∧
      ∃ s₂, run (coreStep sampleCoreConfig) s₁ [.advance 1 { uuid := 1 }, .call 2 (.ingest
          (.sessionStart { sampleStart .generic "e" with idempotencyKey := some "k" }))] =
            some s₂ ∧
        (s₂.world.Live .generic "e" sampleId ∧
          (s₂.world.adapter .generic).any (·.events) = true) ∧
        sectionFault sampleCoreConfig s₂ 2 { faults := [true] } = some (.other diskError) := by
  have hanswered : ((startCore sampleCoreConfig {} sampleSettings {}).bind fun s₀ =>
      (run (coreStep sampleCoreConfig) s₀ answeredRun).bind fun s₁ =>
        (run (coreStep sampleCoreConfig) s₁ [.advance 2 {}, .call 3 (waitingStart none)]).map
          fun s₂ => (sectionFault sampleCoreConfig s₁ 2 {}, retryable s₂,
            sectionFault sampleCoreConfig s₂ 3 {})) =
      some (none, true, some (.err (.invalidTransition .starting .waiting))) := by
    decide
  obtain ⟨s₀, hs₀, hanswered⟩ := Option.bind_eq_some_iff.1 hanswered
  obtain ⟨s₁, hs₁, hanswered⟩ := Option.bind_eq_some_iff.1 hanswered
  obtain ⟨s₂, hs₂, hvalues⟩ := Option.map_eq_some_iff.1 hanswered
  simp only [Prod.mk.injEq] at hvalues
  refine ⟨s₀, hs₀, ⟨s₁, s₂, hs₁, hvalues.1, hs₂, live_of_retryable hvalues.2.1, hvalues.2.2⟩, ?_⟩
  have hswept : ((startCore sampleCoreConfig {} sampleSettings {}).bind fun s₀ =>
      (run (coreStep sampleCoreConfig) s₀ openingRun).bind fun s₁ =>
        (run (coreStep sampleCoreConfig) s₁ failingSweep).bind fun s₂ =>
          (coreStep sampleCoreConfig s₂ (.advance 4 {})).map fun s₃ =>
            ((sectionFault sampleCoreConfig s₁ 1 { uuid := 1 }).isNone &&
              (sectionFault sampleCoreConfig s₂ 4 {}).isNone, retryable s₂,
              decide (s₃.world.inner.streamSequence ≠ s₂.world.inner.streamSequence))) =
      some (true, true, true) := by
    decide +kernel
  obtain ⟨s₀', hs₀', hswept⟩ := Option.bind_eq_some_iff.1 hswept
  obtain rfl := Option.some.inj (hs₀.symm.trans hs₀')
  obtain ⟨s₃, hs₃, hswept⟩ := Option.bind_eq_some_iff.1 hswept
  obtain ⟨s₄, hs₄, hswept⟩ := Option.bind_eq_some_iff.1 hswept
  obtain ⟨s₅, hs₅, hvalues⟩ := Option.map_eq_some_iff.1 hswept
  simp only [Prod.mk.injEq, Bool.and_eq_true, Option.isNone_iff_eq_none,
    decide_eq_true_eq] at hvalues
  obtain ⟨⟨hopened, hreplayed⟩, hretryable, hsequence⟩ := hvalues
  refine ⟨s₃, hs₃, hopened, ⟨s₄, s₅, hs₄, live_of_retryable hretryable, hreplayed, hs₅,
    hsequence⟩, ?_⟩
  have hfailed : ((startCore sampleCoreConfig {} sampleSettings {}).bind fun s₀ =>
      (run (coreStep sampleCoreConfig) s₀ openingRun).bind fun s₁ =>
        (run (coreStep sampleCoreConfig) s₁ [.advance 1 { uuid := 1 }, .call 2 (.ingest
          (.sessionStart { sampleStart .generic "e" with idempotencyKey := some "k" }))]).map
            fun s₂ => (retryable s₂, sectionFault sampleCoreConfig s₂ 2 { faults := [true] })) =
      some (true, some (.other diskError)) := by
    decide
  obtain ⟨s₀', hs₀', hfailed⟩ := Option.bind_eq_some_iff.1 hfailed
  obtain rfl := Option.some.inj (hs₀.symm.trans hs₀')
  obtain ⟨s₃', hs₃', hfailed⟩ := Option.bind_eq_some_iff.1 hfailed
  obtain rfl := Option.some.inj (hs₃.symm.trans hs₃')
  obtain ⟨s₆, hs₆, hvalues⟩ := Option.map_eq_some_iff.1 hfailed
  simp only [Prod.mk.injEq] at hvalues
  exact ⟨s₆, hs₆, live_of_retryable hvalues.1, hvalues.2⟩

end LlmNotch
