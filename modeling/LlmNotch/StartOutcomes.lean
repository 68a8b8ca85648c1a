import LlmNotch.CoreOutcomes

/-!
# What a start comes to

The host starts a session if its snapshot has none with the source and the external identifier
of a payload. A start that passes its checks evicts a session that ended if the core is full,
and creates the session (`Created`). There are two exceptions, both for a key of the index whose
session was overwritten : if the entry leads to another session, the start is answered as a
replay of that one, and if it leads nowhere, the core panics.

`wp_startSession_outcome` : which of these a start comes to.
-/

namespace LlmNotch

open AppCore

/-! ## Evictions -/

/-- The sessions after an eviction. -/
def evicted (sessions : Dict String AgentSession) : Option String → Dict String AgentSession
  | none => sessions
  | some id => sessions.erase id

/-- No stored session has the key. -/
def NoneWith (r : SessionRegistry) (key : String) : Prop :=
  ∀ id s, r.sessions.lookup id = some s → s.key ≠ key

theorem Findable.noneWith {r : SessionRegistry} (hf : Findable r) {source : AgentSource}
    {externalSessionId : String} (h : r.resolveExternal source externalSessionId = none) :
    NoneWith r (externalKey source externalSessionId) := by
  intro id s hs hkey
  have hindex := hf _ _ hs
  rw [hkey] at hindex
  rw [SessionRegistry.resolveExternal, hindex, Option.bind_some, hs] at h
  cases h

/-- A session was evicted if the core was full. -/
structure MadeRoom (candidate : Option String) (w w' : World) : Prop where
  sessions : w'.registry.sessions = evicted w.registry.sessions candidate
  externalIndex : ∀ key, NoneWith w.registry key →
    w'.registry.externalIndex.lookup key = w.registry.externalIndex.lookup key
  integrations : w'.inner.integrations = w.inner.integrations
  room : w'.registry.len < maxSessions

section Evictions

variable {w : World} {env : Env}

/-- Deleting a stored session fails only if the repository does. -/
theorem wp_dropSession_outcome {id : String} {s : AgentSession} {Q : Unit → World → Prop}
    (hs : w.registry.sessions.lookup id = some s)
    (hQ : ∀ w', w'.registry.sessions = w.registry.sessions.erase id →
      w'.registry.externalIndex = w.registry.externalIndex.erase s.key →
      w'.inner.integrations = w.inner.integrations → Q () w') :
    wp (dropSession id) w Q fun f _ => StoreFails f := by
  unfold dropSession Repository.removeSession Repository.execute
  rw [wp_bind, onStore, wp_zoom]
  refine Repository.wp_statement (fun _ db _ => ?_) fun _ hd => execute_fails hd
  simp only [onRegistry, wp_bind, wp_zoom, SessionRegistry.removeSession, wp_get, wp_okOr,
    wp_modify]
  refine ⟨fun t ht => ?_, fun hnone => ?_⟩
  · have ht' : w.registry.sessions.lookup id = some t := ht
    obtain rfl := Option.some.inj (hs.symm.trans ht')
    exact hQ _ rfl rfl rfl
  · have hnone' : w.registry.sessions.lookup id = none := hnone
    rw [hs] at hnone'
    cases hnone'

/-- An eviction makes room, unless every session is still live. -/
theorem wp_evict_outcome {Q : Unit → World → Prop} {E : Fault → World → Prop}
    (hk : Keyed w.registry) (hE : ∀ f w', StoreFails f → E f w')
    (hfull : (∀ candidate, w.registry.capacityEvictionCandidate env.sessionsRank ≠
      .ok candidate) → ∀ e, E (.err e) w)
    (hQ : ∀ candidate, w.registry.capacityEvictionCandidate env.sessionsRank = .ok candidate →
      ∀ w', MadeRoom candidate w w' → Q () w') :
    wp (evict env) w Q E := by
  unfold evict
  simp only [wp_bind, wp_get, wp_check]
  refine ⟨fun candidate hc => ?_, fun e he => hfull (fun candidate hc => ?_) e⟩
  · cases candidate with
    | none =>
      refine hQ none hc w ⟨rfl, fun _ _ => rfl, rfl, ?_⟩
      unfold SessionRegistry.capacityEvictionCandidate at hc
      split at hc
      · assumption
      · split at hc <;> cases hc
    | some evictedId =>
      obtain ⟨hsome, hlen⟩ := lookup_candidate hk hc
      obtain ⟨s, hs⟩ := Option.isSome_iff_exists.1 hsome
      refine wp_mono (wp_dropSession_outcome hs fun w' hsessions hindex hi => ?_)
        (fun _ _ h => h) fun f w' hf => hE f w' hf
      refine hQ _ hc w' ⟨hsessions, fun key hkey => ?_, hi, ?_⟩
      · rw [hindex, Dict.lookup_erase_ite, if_neg fun he => hkey _ _ hs he.symm]
      · have hsize := Dict.size_erase_of_lookup hsome
        have hbound := hk.bounded
        show Dict.size w'.registry.sessions < maxSessions
        rw [hsessions]
        unfold SessionRegistry.len at hlen hbound
        omega
  · have hc' : w.inner.registry.capacityEvictionCandidate env.sessionsRank = .ok candidate := hc
    rw [hc'] at he
    cases he

theorem MadeRoom.keyed {candidate : Option String} {w' : World} (h : MadeRoom candidate w w')
    (hk : Keyed w.registry) : Keyed w'.registry := by
  refine ⟨fun {id s} hs => ?_, h.room.le⟩
  rw [h.sessions] at hs
  cases candidate with
  | none => exact hk.id hs
  | some evictedId =>
    have hs' : (w.registry.sessions.erase evictedId).lookup id = some s := hs
    rw [Dict.lookup_erase_ite] at hs'
    split at hs'
    · cases hs'
    · exact hk.id hs'

end Evictions

/-! ## Created sessions -/

theorem lookup_evicted {sessions : Dict String AgentSession} {candidate : Option String}
    {id : String} (h : sessions.lookup id = none) :
    (evicted sessions candidate).lookup id = none := by
  cases candidate with
  | none => exact h
  | some evictedId =>
    show (sessions.erase evictedId).lookup id = none
    rw [Dict.lookup_erase_ite, h, ite_self]

/-- Session `s` was created. -/
structure Created (candidate : Option String) (s : AgentSession) (w w' : World) : Prop where
  sessions : w'.registry.sessions = (evicted w.registry.sessions candidate).insert s.id s
  index : w'.registry.externalIndex.lookup s.key = some s.id
  integrations : w'.inner.integrations = w.inner.integrations
  keyed : Keyed w'.registry

namespace Created

variable {candidate : Option String} {s : AgentSession} {w w' : World}

theorem lookup (h : Created candidate s w w') : w'.registry.sessions.lookup s.id = some s := by
  rw [h.sessions]
  exact AList.lookup_insert _

/-- A command reaches the session. -/
theorem resolve (h : Created candidate s w w') :
    w'.registry.resolveExternal s.source s.externalSessionId = some s := by
  have hindex : w'.registry.externalIndex.lookup (externalKey s.source s.externalSessionId) =
      some s.id := h.index
  rw [SessionRegistry.resolveExternal, hindex]
  exact h.lookup

theorem flush (h : Created candidate s w w') (env : Env) : Created candidate s w (w'.flush env) :=
  ⟨by rw [registry_flush]; exact h.sessions, by rw [registry_flush]; exact h.index,
    (integrations_flush w' env).trans h.integrations, by rw [registry_flush]; exact h.keyed⟩

end Created

section Starts

variable {w w₁ : World} {env : Env} {cfg : CoreConfig} {candidate : Option String}

variable {cmd : SessionStartCommand} {Q : IngestResult → World → Prop} {E : Fault → World → Prop}

theorem wp_openSession_outcome {id : String}
    (hext : validateExternalSessionId cmd.externalSessionId = .ok ())
    (hw : Created candidate (newSession cmd id) w w₁) :
    wp (openSession env cmd (newSession cmd id)) w₁
      (fun r w' => r.sessionId = some id ∧ Created candidate (newSession cmd id) w w')
      fun f _ => StoreFails f := by
  unfold openSession
  rw [wp_bind]
  refine wp_storeSession_outcome fun store _ => ?_
  rw [wp_bind]
  refine wp_appendEvent_outcome (Option.isSome_iff_exists.2 ⟨_, hw.lookup⟩) fun e w₂ he h₂ => ?_
  rw [wp_bind, onRegistry, wp_zoom, SessionRegistry.upsertSession, wp_bind, wp_check]
  refine ⟨fun _ _ => ?_, fun err herr => ?_⟩
  · rw [wp_modify, wp_bind]
    refine wp_storeSession_outcome fun store' _ => ?_
    have hsessions : w₂.registry.sessions.insert id (newSession cmd id) =
        (evicted w.registry.sessions candidate).insert id (newSession cmd id) := by
      rw [h₂.sessions]
      show w₁.registry.sessions.insert _ _ = _
      rw [hw.sessions]
      exact AList.insert_insert ..
    refine ⟨congrArg some he, hsessions, AList.lookup_insert _,
      h₂.integrations.trans hw.integrations, ?_⟩
    refine hw.keyed.of_eq ?_
    exact hsessions.trans hw.sessions.symm
  · rw [show (newSession cmd id).externalSessionId = cmd.externalSessionId from rfl, hext] at herr
    cases herr

/-- A session is created, unless the core is full or an index entry leads nowhere. -/
theorem wp_createSession_outcome (hk : Keyed w.registry) (hf : Findable w.registry)
    (hext : validateExternalSessionId cmd.externalSessionId = .ok ())
    (hres : w.registry.resolveExternal cmd.source cmd.externalSessionId = none)
    (hE : ∀ f w', StoreFails f → E f w')
    (hfull : (∀ candidate, w.registry.capacityEvictionCandidate env.sessionsRank ≠
      .ok candidate) → ∀ e, E (.err e) w)
    (hlost : w.registry.externalIndex.lookup (externalKey cmd.source cmd.externalSessionId) ≠
      none → ∀ message w', E (.panic message) w')
    (hQ : w.registry.externalIndex.lookup (externalKey cmd.source cmd.externalSessionId) = none →
      ∀ candidate, w.registry.capacityEvictionCandidate env.sessionsRank = .ok candidate →
      ∀ r w', r.sessionId = some (cfg.sessionIdFor cmd.source cmd.externalSessionId) →
        Created candidate (newSession cmd (cfg.sessionIdFor cmd.source cmd.externalSessionId))
          w w' → Q r w') : wp (createSession cfg env cmd) w Q E := by
  have hnone := hf.noneWith hres
  unfold createSession
  rw [wp_bind]
  refine wp_evict_outcome hk hE hfull fun candidate hc w₁ h₁ => ?_
  have hindex := h₁.externalIndex _ hnone
  rw [wp_bind, onRegistry, wp_zoom, SessionRegistry.insertNewSession, wp_bind, wp_check, hext]
  refine ⟨fun _ _ => ?_, fun err herr => by cases herr⟩
  rw [wp_bind, wp_get]
  split
  · rename_i id hid
    have hthere : w.registry.externalIndex.lookup
        (externalKey cmd.source cmd.externalSessionId) ≠ none := by
      have hid' : w₁.registry.externalIndex.lookup
          (externalKey cmd.source cmd.externalSessionId) = some id := hid
      rw [← hindex, hid']
      exact Option.some_ne_none id
    have hnowhere : w₁.registry.sessions.lookup id = none := by
      rw [h₁.sessions]
      refine lookup_evicted ?_
      have hid' : w.registry.externalIndex.lookup
          (externalKey cmd.source cmd.externalSessionId) = some id := hindex.symm.trans hid
      rw [SessionRegistry.resolveExternal, hid'] at hres
      exact hres
    simp only [wp_bind, wp_expect, wp_pure]
    refine ⟨fun t ht => ?_, fun _ => hlost hthere _ _⟩
    have ht' : w₁.registry.sessions.lookup id = some t := ht
    rw [hnowhere] at ht'
    cases ht'
  · rename_i hfresh
    have hfresh' : w.registry.externalIndex.lookup
        (externalKey cmd.source cmd.externalSessionId) = none := hindex.symm.trans hfresh
    simp only [wp_bind, wp_ensure, wp_pure, SessionRegistry.upsertSession, wp_check, wp_modify,
      decide_eq_true_eq, decide_eq_false_iff_not]
    refine ⟨fun _ => ⟨fun _ _ => ?_, fun err herr => ?_⟩, fun hno => absurd h₁.room hno⟩
    · rw [if_neg Bool.false_ne_true]
      set s := newSession cmd (cfg.sessionIdFor cmd.source cmd.externalSessionId)
      set w₂ : World := w₁.setRegistry { w₁.registry with
        externalIndex := w₁.registry.externalIndex.insert s.key s.id
        sessions := w₁.registry.sessions.insert s.id s } with hw₂
      have hcreated : Created candidate s w w₂ := by
        refine ⟨?_, AList.lookup_insert _, h₁.integrations, (h₁.keyed hk).insert rfl ?_⟩
        · show w₁.registry.sessions.insert _ _ = _
          rw [h₁.sessions]
        · refine (Dict.size_insert_le _ _ _).trans ?_
          exact h₁.room
      exact wp_mono (wp_openSession_outcome hext hcreated)
        (fun r w' hw' => hQ hfresh' candidate hc r w' hw'.1 hw'.2) hE
    · rw [show (newSession cmd _).externalSessionId = cmd.externalSessionId from rfl, hext] at herr
      cases herr

/-- The start passes its checks. -/
structure Startable (w : World) (cmd : SessionStartCommand) : Prop where
  reports : Reporting w cmd.source cmd.externalSessionId
  label : validateSessionLabel cmd.label = .ok ()
  workspaceLabel : validateOptional validateWorkspaceLabel cmd.workspaceLabel = .ok ()
  status : validateStartStatus cmd.status = .ok ()

/-- A start without an idempotency key. -/
theorem wp_sessionStart_outcome (cmd : SessionStartCommand) (hk : Keyed w.registry)
    (hf : Findable w.registry) (hplain : cmd.idempotencyKey = none)
    (hE : ∀ f w', StoreFails f → E f w') (hbad : ¬ Startable w cmd → ∀ e, E (.err e) w)
    (hreplay : Startable w cmd → ∀ s,
      w.registry.resolveExternal cmd.source cmd.externalSessionId = some s →
      Q (IngestResult.replay s) w)
    (hfull : w.registry.resolveExternal cmd.source cmd.externalSessionId = none →
      (∀ candidate, w.registry.capacityEvictionCandidate env.sessionsRank ≠ .ok candidate) →
      ∀ e, E (.err e) w)
    (hlost : w.registry.resolveExternal cmd.source cmd.externalSessionId = none →
      w.registry.externalIndex.lookup (externalKey cmd.source cmd.externalSessionId) ≠ none →
      ∀ message w', E (.panic message) w') (hQ : Startable w cmd →
      w.registry.externalIndex.lookup (externalKey cmd.source cmd.externalSessionId) = none →
      ∀ candidate, w.registry.capacityEvictionCandidate env.sessionsRank = .ok candidate →
      ∀ r w', r.sessionId = some (cfg.sessionIdFor cmd.source cmd.externalSessionId) →
        Created candidate (newSession cmd (cfg.sessionIdFor cmd.source cmd.externalSessionId))
          w w' → Q r w') : wp (sessionStart cfg env cmd) w Q E := by
  refine wp_check_bind (fun hno => hbad fun hc => hno hc.reports.valid) fun hext =>
    wp_check_bind (fun hno => hbad fun hc => hno hc.label) fun hlabel =>
    wp_check_bind (fun hno => hbad fun hc => hno hc.workspaceLabel) fun hworkspace => ?_
  have hreplayed : replayedStart cmd = pure none := by
    simp only [replayedStart, hplain]
  rw [hreplayed, pure_bind]
  dsimp only
  rw [requireEvents, bind_assoc, wp_bind]
  refine wp_capabilitiesFor_outcome (fun hno => hbad fun hc => ?_) fun c hc => ?_
  · obtain ⟨c, hc, -⟩ := hc.reports.events
    rw [hno] at hc
    cases hc
  rw [wp_bind, wp_ensure]
  refine ⟨fun hevents => ?_, fun hno => hbad (fun hstart => ?_) _⟩
  · refine wp_check_bind (fun hno => hbad fun hstart => hno hstart.status) fun hstatus => ?_
    have hstart : Startable w cmd :=
      ⟨⟨hext, c, hc, hevents⟩, hlabel, hworkspace, hstatus⟩
    rw [wp_bind, wp_get]
    split
    · rename_i s hres
      exact hreplay hstart s hres
    · rename_i hres
      exact wp_createSession_outcome hk hf hext hres hE (hfull hres) (hlost hres) (hQ hstart)
  · obtain ⟨c', hc', hevents⟩ := hstart.reports.events
    rw [hc] at hc'
    cases hc'
    rw [hevents] at hno
    cases hno

end Starts

end LlmNotch
