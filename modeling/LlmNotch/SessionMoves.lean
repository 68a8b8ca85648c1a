import LlmNotch.SessionView

/-!
# What a command does to one session

A command is about the session it finds (`IngestCommand.target`), changes it if it passes
its checks (`IngestCommand.accepted`, `IngestCommand.edit`), and writes the row; if the write
fails the change in memory stays (`IngestCommand.applied`). `Move` lists everything a section
can do to the view of one identifier, and `moves_ingest` says that an ingest does nothing
else, whether it returns or fails.
-/

namespace LlmNotch

/-! ## Commands -/

/-- The integration of a source. -/
def World.adapter (w : World) (source : AgentSource) : Option AdapterCapabilities :=
  w.inner.integrations.find? (·.source = source)

namespace IngestCommand

/-- When the command says it happened. -/
def occurredAtMs : IngestCommand → ℤ
  | sessionStart cmd => cmd.occurredAtMs
  | sessionUpdate cmd => cmd.occurredAtMs
  | sessionEnd cmd => cmd.occurredAtMs
  | lifecycleEvent cmd => cmd.occurredAtMs
  | toolEvent cmd => cmd.occurredAtMs
  | attention cmd => cmd.occurredAtMs
  | registerProcessRoot cmd => cmd.occurredAtMs
  | integrationHealth cmd => cmd.occurredAtMs
  | acknowledgeAttention cmd => cmd.occurredAtMs

/-- The stored session a command is about. -/
def target (r : SessionRegistry) : IngestCommand → Option AgentSession
  | sessionStart _ => none
  | sessionUpdate cmd => r.resolveExternal cmd.source cmd.externalSessionId
  | sessionEnd cmd => r.resolveExternal cmd.source cmd.externalSessionId
  | lifecycleEvent cmd => r.resolveExternal cmd.source cmd.externalSessionId
  | toolEvent cmd => r.resolveExternal cmd.source cmd.externalSessionId
  | attention cmd => r.resolveExternal cmd.source cmd.externalSessionId
  | registerProcessRoot cmd => r.resolveExternal cmd.source cmd.externalSessionId
  | integrationHealth _ => none
  | acknowledgeAttention cmd => r.get cmd.sessionId

/-- Whether the command passes the checks before it changes its session. -/
def accepted (w : World) (s : AgentSession) : IngestCommand → Bool
  | sessionStart _ => false
  | sessionUpdate cmd =>
    (validateExternalSessionId cmd.externalSessionId).isOk &&
      (w.adapter cmd.source).any (·.events) &&
      (AppCore.validateOptional validateSessionLabel cmd.label).isOk &&
      (AppCore.validateOptional validateWorkspaceLabel cmd.workspaceLabel).isOk &&
      cmd.status.all (isValidTransition s.status)
  | sessionEnd cmd =>
    (validateExternalSessionId cmd.externalSessionId).isOk &&
      (w.adapter cmd.source).any (·.events) &&
      (cmd.status = .completed || cmd.status = .failed) &&
      isValidTransition s.status cmd.status
  | lifecycleEvent cmd =>
    (validateExternalSessionId cmd.externalSessionId).isOk &&
      (validateEventSummary cmd.summary).isOk &&
      (w.adapter cmd.source).any (·.events)
  | toolEvent cmd =>
    (validateExternalSessionId cmd.externalSessionId).isOk &&
      (validateEventSummary cmd.summary).isOk &&
      (AppCore.validateOptional validateToolName cmd.toolName).isOk &&
      (w.adapter cmd.source).any (·.events)
  | attention cmd =>
    (validateExternalSessionId cmd.externalSessionId).isOk &&
      (validateEventSummary cmd.summary).isOk &&
      (w.adapter cmd.source).any (AppCore.supportsAttention · cmd.attention)
  | registerProcessRoot cmd =>
    (validateExternalSessionId cmd.externalSessionId).isOk &&
      (w.adapter cmd.source).any (·.processAttribution ≠ .unknown)
  | integrationHealth _ => false
  | acknowledgeAttention cmd => (validateSessionId cmd.sessionId).isOk

/-- What the command makes of its session. -/
def edit (command : IngestCommand) (s : Standing) : Standing :=
  match command with
  | sessionUpdate cmd =>
    { s with status := cmd.status.getD s.status, lastEventAtMs := cmd.occurredAtMs }
  | sessionEnd cmd =>
    { s with
      status := cmd.status
      endedAtMs := some cmd.occurredAtMs
      lastEventAtMs := cmd.occurredAtMs
      attention := .none }
  | lifecycleEvent cmd => { s with lastEventAtMs := cmd.occurredAtMs }
  | toolEvent cmd => { s with lastEventAtMs := cmd.occurredAtMs }
  | attention cmd => { s with attention := cmd.attention, lastEventAtMs := cmd.occurredAtMs }
  | registerProcessRoot cmd =>
    { s with processRoot := some cmd.processRoot, lastEventAtMs := cmd.occurredAtMs }
  | acknowledgeAttention cmd => { s with attention := .none, lastEventAtMs := cmd.occurredAtMs }
  | sessionStart _ => s
  | integrationHealth _ => s

/-- What the command makes of the alerts of its session. -/
def alert (command : IngestCommand) (v : SessionView) : SessionView :=
  match command with
  | attention cmd => v.asked cmd.attention
  | acknowledgeAttention _ => v.acknowledged
  | _ => v

/-- The view of its session after an accepted command, whose write succeeds or fails. -/
def applied (command : IngestCommand) (writes : Bool) (s : Standing) (v : SessionView) :
    SessionView :=
  if writes then
    command.alert { v with memory := some (command.edit s), row := some (command.edit s) }
  else { v with memory := some (command.edit s) }

end IngestCommand

theorem SessionView.asked_memory (v : SessionView) (attention : AttentionKind) :
    (v.asked attention).memory = v.memory := by
  unfold SessionView.asked
  split
  · rfl
  · split <;> rfl

theorem SessionView.asked_row (v : SessionView) (attention : AttentionKind) :
    (v.asked attention).row = v.row := by
  unfold SessionView.asked
  split
  · rfl
  · split <;> rfl

namespace IngestCommand

variable (command : IngestCommand) (writes : Bool) (s : Standing) (v : SessionView)

@[simp] theorem applied_memory :
    (command.applied writes s v).memory = some (command.edit s) := by
  cases writes with
  | false => rfl
  | true =>
    cases command with
    | attention cmd => exact SessionView.asked_memory _ _
    | _ => rfl

@[simp] theorem applied_row :
    (command.applied writes s v).row = if writes then some (command.edit s) else v.row := by
  cases writes with
  | false => rfl
  | true =>
    cases command with
    | attention cmd => exact SessionView.asked_row _ _
    | _ => rfl

end IngestCommand

/-- The result reports an event of this session that is not a replay. -/
def Reports (result : Option IngestResult) (id : String) : Prop :=
  ∃ r, result = some r ∧ r.sessionId = some id ∧ r.idempotentReplay = false

/-! ## Moves -/

/-- The session of a start. -/
def opened (cmd : SessionStartCommand) : Standing :=
  ⟨cmd.status, .none, cmd.occurredAtMs, none, none⟩

/-- The session has not ended and had no event for too long. -/
def Due (now : ℤ) (s : Standing) : Prop :=
  isTerminal s.status = false ∧ staleSessionMs ≤ saturatingSubI64 now s.lastEventAtMs

/-- The session after it is marked as stale. -/
def Standing.staled (s : Standing) (now : ℤ) : Standing :=
  { s with status := .stale, lastEventAtMs := now }

def Standing.unrooted (s : Standing) : Standing :=
  { s with processRoot := none }

/-- What a section that gives this result can do to the view of one identifier. -/
inductive Move (cfg : CoreConfig) (env : Env) (w : World) (id : String) :
    CoreSection → Option IngestResult → SessionView → Prop
  | stays {sec : CoreSection} {result : Option IngestResult} (hresult : ¬ Reports result id) :
      Move cfg env w id sec result (w.sessionView id)
  | saved {sec : CoreSection} {s : Standing} (hs : (w.sessionView id).memory = some s) :
      Move cfg env w id sec none { w.sessionView id with row := some s }
  | unrooted {s : Standing} (hs : (w.sessionView id).memory = some s) :
      Move cfg env w id (.clearProcessRoot id) none
        { w.sessionView id with memory := some s.unrooted }
  | unrootedSaved {s : Standing} (hs : (w.sessionView id).memory = some s) :
      Move cfg env w id (.clearProcessRoot id) none
        { w.sessionView id with memory := some s.unrooted, row := some s.unrooted }
  | applied {command : IngestCommand} {s : AgentSession} {result : Option IngestResult}
      (ht : command.target w.registry = some s) (hid : s.id = id)
      (hs : (w.sessionView id).memory = some s.standing) (ha : command.accepted w s = true)
      (hresult : result = none ∨ Reports result id ∧ w.writes s = true) :
      Move cfg env w id (.ingest command) result
        (command.applied (w.writes s) s.standing (w.sessionView id))
  | evicted {cmd : SessionStartCommand} {result : Option IngestResult} (hnew : StartsNew w cmd)
      (hc : w.registry.capacityEvictionCandidate env.sessionsRank = .ok (some id))
      (hresult : ¬ Reports result id) :
      Move cfg env w id (.ingest (.sessionStart cmd)) result (w.sessionView id).dropped
  | opened {cmd : SessionStartCommand} {v : SessionView} (hnew : StartsNew w cmd)
      (hid : cfg.sessionIdFor cmd.source cmd.externalSessionId = id)
      (hv : v = w.sessionView id ∨ v = (w.sessionView id).dropped ∧
        w.registry.capacityEvictionCandidate env.sessionsRank = .ok (some id)) :
      Move cfg env w id (.ingest (.sessionStart cmd)) none
        { v with memory := some (opened cmd) }
  | created {cmd : SessionStartCommand} {v : SessionView} {result : Option IngestResult}
      (hnew : StartsNew w cmd)
      (hid : cfg.sessionIdFor cmd.source cmd.externalSessionId = id)
      (hv : v = w.sessionView id ∨ v = (w.sessionView id).dropped ∧
        w.registry.capacityEvictionCandidate env.sessionsRank = .ok (some id))
      (hresult : result = none ∨ Reports result id) :
      Move cfg env w id (.ingest (.sessionStart cmd)) result
        { v with memory := some (opened cmd), row := some (opened cmd) }
  | marked {s : Standing} (hs : (w.sessionView id).memory = some s) (hdue : Due env.now s) :
      Move cfg env w id .tick none
        { w.sessionView id with memory := some (s.staled env.now) }
  | markedSaved {s : Standing} (hs : (w.sessionView id).memory = some s)
      (hdue : Due env.now s) :
      Move cfg env w id .tick none
        { w.sessionView id with
          memory := some (s.staled env.now)
          row := some (s.staled env.now) }
  | removed (hs : (w.sessionView id).memory.isSome = true) :
      Move cfg env w id (.removeSession id) none (w.sessionView id).dropped

/-- The views after a section. -/
def Moves (cfg : CoreConfig) (env : Env) (w : World) (sec : CoreSection)
    (result : Option IngestResult) (w' : World) : Prop :=
  ∀ id, Move cfg env w id sec result (w'.sessionView id)

section Ingest

open AppCore

variable {cfg : CoreConfig} {env : Env} {w : World} {α β : Type}

theorem not_reports_none (id : String) : ¬ Reports none id := by
  rintro ⟨r, h, -⟩
  cases h

variable {result : Option IngestResult} {id : String} {sec : CoreSection} {v : SessionView}
  {w₁ w₂ : World} {s t : AgentSession} {command : IngestCommand} {kind : SessionEventKind}
  {label toolName : Option String} {cmd : SessionStartCommand} {f : AgentSession → CoreM β}
  {Q : β → World → Prop} {E : Fault → World → Prop}

theorem reports_iff {result : IngestResult} {k : String} (hid : result.sessionId = some id)
    (hreplay : result.idempotentReplay = false) : Reports (some result) k ↔ k = id := by
  constructor
  · rintro ⟨r, hr, hk, -⟩
    cases hr
    rw [hid] at hk
    exact (Option.some.inj hk).symm
  · rintro rfl
    exact ⟨result, rfl, hid, hreplay⟩

theorem Moves.stay {w' : World} (hw : w'.sessionView = w.sessionView)
    (hresult : ∀ id, ¬ Reports result id) : Moves cfg env w sec result w' := by
  intro id
  rw [hw]
  exact .stays (hresult id)

/-- A move of one view, while the others stay. -/
theorem Moves.one {w' : World} (hw : w'.sessionView = setView w.sessionView id v)
    (hv : Move cfg env w id sec result v) (hresult : ∀ k, k ≠ id → ¬ Reports result k) :
    Moves cfg env w sec result w' := by
  intro k
  rw [hw]
  by_cases hk : k = id
  · subst hk
    rwa [setView, Function.update_self]
  · rw [setView, Function.update_of_ne hk]
    exact .stays (hresult k hk)

/-- One more view moves. -/
theorem Moves.set (h : Moves cfg env w sec none w₁)
    (hw₂ : w₂.sessionView = setView w₁.sessionView id v) (hv : Move cfg env w id sec none v) :
    Moves cfg env w sec none w₂ := by
  intro k
  rw [hw₂]
  by_cases hk : k = id
  · subst hk
    rwa [setView, Function.update_self]
  · rw [setView, Function.update_of_ne hk]
    exact h k

/-! ### Checks -/

section Checks

variable {Q : β → World → Prop} {E : Fault → World → Prop}

theorem wp_check_view {x : Except CoreError α} {f : α → CoreM β} (hE : ∀ g, E g w)
    (hQ : ∀ a, x.isOk = true → wp (f a) w Q E) : wp (check x >>= f) w Q E := by
  rw [wp_bind, wp_check]
  refine ⟨fun a ha => hQ a ?_, fun _ _ => hE _⟩
  rw [ha]
  rfl

theorem wp_ensure_view {c : Bool} {e : CoreError} {f : Unit → CoreM β} (hE : ∀ g, E g w)
    (hQ : c = true → wp (f ()) w Q E) : wp (ensure c e >>= f) w Q E := by
  rw [wp_bind, wp_ensure]
  exact ⟨hQ, fun _ => hE _⟩

variable {source : AgentSource}

theorem wp_capabilitiesFor_view {f : AdapterCapabilities → CoreM β} (hE : ∀ g, E g w)
    (hQ : ∀ c, w.adapter source = some c → wp (f c) w Q E) :
    wp (capabilitiesFor source >>= f) w Q E := by
  unfold capabilitiesFor
  simp only [wp_bind, wp_get, wp_okOr]
  exact ⟨fun c hc => hQ c hc, fun _ => hE _⟩

theorem wp_requireEvents_view {f : Unit → CoreM β} (hE : ∀ g, E g w)
    (hQ : (w.adapter source).any (·.events) = true → wp (f ()) w Q E) :
    wp (requireEvents source >>= f) w Q E := by
  unfold requireEvents
  rw [bind_assoc]
  refine wp_capabilitiesFor_view hE fun c hc => wp_ensure_view hE fun hevents => hQ ?_
  rw [hc]
  exact hevents

/-- The session a command names is stored under its identifier. -/
theorem wp_resolve_view {externalSessionId : String} {f : String → CoreM β} (hk : Keyed w.registry)
    (hE : ∀ g, E g w) (hQ : ∀ s, w.registry.resolveExternal source externalSessionId = some s →
      w.registry.sessions.lookup s.id = some s → wp (f s.id) w Q E) :
    wp (resolveSessionId source externalSessionId >>= f) w Q E := by
  simp only [resolveSessionId, wp_bind, wp_get, wp_okOr, wp_pure]
  refine ⟨fun s hs => hQ s hs ?_, fun _ => hE _⟩
  obtain ⟨id, -, hid⟩ := Option.bind_eq_some_iff.1 hs
  rwa [hk.id hid]

theorem wp_resolvedSession_view {id : String} {s : AgentSession} {f : AgentSession → CoreM β}
    (hs : w.registry.sessions.lookup id = some s) (hQ : wp (f s) w Q E) :
    wp (resolvedSession id >>= f) w Q E := by
  simp only [resolvedSession, SessionRegistry.get, wp_bind, wp_get, wp_expect, hs]
  exact ⟨fun t ht => Option.some.inj ht ▸ hQ, fun h => by cases h⟩

end Checks

/-! ### Editing a session -/

theorem memory_of_lookup (hs : w.registry.sessions.lookup id = some s) :
    (w.sessionView id).memory = some s.standing := by
  simp only [World.sessionView, SessionRegistry.get, hs, Option.map_some]

/-- Assigning what the command makes of its session, writing it, and what follows. -/
theorem moves_edit {s' : AgentSession} {rest : AgentSession → CoreM IngestResult}
    (ht : command.target w.registry = some s) (ha : command.accepted w s = true)
    (hs : w.registry.sessions.lookup s.id = some s) (hviews : w₁.sessionView = w.sessionView)
    (hstore : w₁.store = w.store) (hs' : w₁.registry.sessions.lookup s.id = some s')
    (hidentity : t.identity = s.identity) (hstanding : t.standing = command.edit s.standing)
    (hrest : ∀ w₂, w₂.sessionView = setView w.sessionView s.id
        { w.sessionView s.id with memory := some t.standing, row := some t.standing } →
      wp (rest t) w₂ (fun r w₃ => r.sessionId = some s.id ∧ r.idempotentReplay = false ∧
          w₃.sessionView = setView w.sessionView s.id
            (command.applied true s.standing (w.sessionView s.id)))
        (fun _ w₃ => w₃.sessionView = setView w.sessionView s.id
          (command.applied true s.standing (w.sessionView s.id)))) :
    wp (do
      let session ← assign s.id t
      onStore (Repository.upsertSession session)
      rest session) w₁ (fun r w' => Moves cfg env w (.ingest command) (some r) w')
      (fun _ w' => Moves cfg env w (.ingest command) none w') := by
  have hid : t.id = s.id := (Prod.mk.inj hidentity).1
  have hmemory := memory_of_lookup hs
  have hw₂ : (w₁.withSession s.id t).sessionView = setView w.sessionView s.id
      { w.sessionView s.id with memory := some t.standing } := by
    rw [sessionView_withSession t hs', hviews]
  have hwrites : (w₁.withSession s.id t).writes t = w.writes s :=
    writes_congr hidentity hstore
  rw [wp_bind, wp_assign_iff, wp_bind]
  refine wp_save_view (fun w₃ hw₃ _ hwrite => ?_) fun _ w₃ hw₃ hwrite => ?_
  · rw [hwrites] at hwrite
    have hsaved : w₃.sessionView = setView w.sessionView s.id
        { w.sessionView s.id with memory := some t.standing, row := some t.standing } := by
      rw [hw₃, hw₂, hid]
      simp only [setView, Function.update_self, Function.update_idem]
    refine wp_mono (hrest w₃ hsaved) (fun r w₄ h => ?_) fun _ w₄ h => ?_
    · obtain ⟨hr, hreplay, hw₄⟩ := h
      refine .one (hwrite ▸ hw₄) (.applied ht rfl hmemory ha (Or.inr ⟨?_, hwrite⟩)) ?_
      · exact (reports_iff hr hreplay).2 rfl
      · exact fun k hk hreports => hk ((reports_iff hr hreplay).1 hreports)
    · exact .one (hwrite ▸ h) (.applied ht rfl hmemory ha (Or.inl rfl))
        fun k _ => not_reports_none k
  · rw [hwrites] at hwrite
    have hunsaved : w₃.sessionView = setView w.sessionView s.id
        (command.applied (w.writes s) s.standing (w.sessionView s.id)) := by
      rw [hw₃, hw₂, hwrite, hstanding]
      rfl
    exact .one hunsaved (.applied ht rfl hmemory ha (Or.inl rfl)) fun k _ => not_reports_none k

/-- The end of a handler announces the session and answers. -/
theorem wp_announce_view {level : EventLevel} {summary : String} {occurredAtMs : ℤ}
    {views : String → SessionView} (hw : w.sessionView = views) :
    wp (do
      let event ← appendEvent env id kind level summary toolName occurredAtMs
      queuePayload (.sessionUpsert s)
      pure (⟨some id, some event.id, false⟩ : IngestResult)) w
      (fun r w' => r.sessionId = some id ∧ r.idempotentReplay = false ∧ w'.sessionView = views)
      (fun _ w' => w'.sessionView = views) := by
  rw [wp_bind]
  refine wp_mono (wp_appendEvent_view hw) (fun e w' hw' => ?_) fun _ _ h => h
  rw [wp_bind]
  refine wp_mono (silent_queuePayload _ views w' hw'.2) (fun _ w'' hw'' => ?_) fun _ _ h => h
  rw [wp_pure]
  exact ⟨rfl, rfl, hw''⟩

/-! ### Handlers -/

/-- What is to show of the handler of a command. -/
abbrev HandlerMoves (cfg : CoreConfig) (env : Env) (w : World) (command : IngestCommand)
    (m : CoreM IngestResult) : Prop :=
  wp m w (fun r w' => Moves cfg env w (.ingest command) (some r) w')
    (fun _ w' => Moves cfg env w (.ingest command) none w')

theorem moves_none (_f : Fault) : Moves cfg env w sec none w :=
  .stay rfl not_reports_none

theorem isOk_validateTransition (source target : SessionStatus) :
    (validateTransition source target).isOk = isValidTransition source target := by
  unfold validateTransition
  cases isValidTransition source target <;> rfl

theorem moves_sessionEnd {cmd : SessionEndCommand} (hk : Keyed w.registry) :
    HandlerMoves cfg env w (.sessionEnd cmd) (sessionEnd env cmd) := by
  unfold HandlerMoves sessionEnd
  refine wp_check_view moves_none fun _ hext => wp_requireEvents_view moves_none fun hevents => ?_
  refine wp_resolve_view hk moves_none fun s hresolve hs => wp_resolvedSession_view hs ?_
  refine wp_ensure_view moves_none fun hstatus => wp_check_view moves_none fun _ hvalid => ?_
  have ha : IngestCommand.accepted w s (.sessionEnd cmd) = true := by
    rw [isOk_validateTransition] at hvalid
    simpa [IngestCommand.accepted, hext, hevents, hvalid] using hstatus
  refine moves_edit hresolve ha hs rfl rfl hs rfl rfl fun w₂ hw₂ => ?_
  rw [wp_bind, wp_check]
  exact ⟨fun _ _ => wp_announce_view hw₂, fun _ _ => hw₂⟩

theorem moves_registerProcessRoot {cmd : ProcessRootCommand} (hk : Keyed w.registry) :
    HandlerMoves cfg env w (.registerProcessRoot cmd) (registerProcessRoot env cmd) := by
  unfold HandlerMoves registerProcessRoot
  refine wp_check_view moves_none fun _ hext => ?_
  refine wp_capabilitiesFor_view moves_none fun c hc => wp_ensure_view moves_none fun hroot => ?_
  refine wp_resolve_view hk moves_none fun s hresolve hs => wp_resolvedSession_view hs ?_
  have ha : IngestCommand.accepted w s (.registerProcessRoot cmd) = true := by
    simp only [IngestCommand.accepted, hext, hc, Bool.true_and]
    exact hroot
  exact moves_edit hresolve ha hs rfl rfl hs rfl rfl fun w₂ hw₂ => wp_announce_view hw₂

/-- Recording the time of an event in its session, and adding the event. -/
theorem moves_record (command : IngestCommand) {level : EventLevel} {summary : String}
    (ht : command.target w.registry = some s) (ha : command.accepted w s = true)
    (hs : w.registry.sessions.lookup s.id = some s)
    (hedit : command.edit s.standing = { s.standing with lastEventAtMs := command.occurredAtMs })
    (halert : ∀ v, command.alert v = v) :
    HandlerMoves cfg env w command (do
      touchSession s.id command.occurredAtMs
      let event ← appendEvent env s.id kind level summary toolName command.occurredAtMs
      pure ⟨some s.id, some event.id, false⟩) := by
  unfold HandlerMoves touchSession
  simp only [bind_assoc]
  rw [wp_bind, wp_get]
  have hget : w.registry.get s.id = some s := hs
  simp only [hget, bind_assoc]
  refine moves_edit ht ha hs rfl rfl hs rfl hedit.symm fun w₂ hw₂ => ?_
  have happlied : w₂.sessionView = setView w.sessionView s.id
      (command.applied true s.standing (w.sessionView s.id)) := by
    rw [hw₂, IngestCommand.applied, if_pos rfl, halert, hedit]
    rfl
  rw [wp_bind]
  exact wp_mono (wp_appendEvent_view happlied) (fun _ _ h => ⟨rfl, rfl, h.2⟩) fun _ _ h => h

theorem moves_lifecycleEvent {cmd : LifecycleEventCommand} (hk : Keyed w.registry) :
    HandlerMoves cfg env w (.lifecycleEvent cmd) (lifecycleEvent env cmd) := by
  unfold HandlerMoves lifecycleEvent
  refine wp_check_view moves_none fun _ hext => wp_check_view moves_none fun _ hsummary => ?_
  refine wp_requireEvents_view moves_none fun hevents => ?_
  refine wp_resolve_view hk moves_none fun s hresolve hs => ?_
  have ha : IngestCommand.accepted w s (.lifecycleEvent cmd) = true := by
    simp only [IngestCommand.accepted, hext, hsummary, hevents, Bool.and_self]
  exact moves_record (.lifecycleEvent cmd) hresolve ha hs rfl fun _ => rfl

theorem moves_toolEvent {cmd : ToolEventCommand} (hk : Keyed w.registry) :
    HandlerMoves cfg env w (.toolEvent cmd) (toolEvent env cmd) := by
  unfold HandlerMoves toolEvent
  refine wp_check_view moves_none fun _ hext => wp_check_view moves_none fun _ hsummary => ?_
  refine wp_check_view moves_none fun _ htool => wp_requireEvents_view moves_none fun hevents => ?_
  refine wp_resolve_view hk moves_none fun s hresolve hs => ?_
  have ha : IngestCommand.accepted w s (.toolEvent cmd) = true := by
    simp only [IngestCommand.accepted, hext, hsummary, htool, hevents, Bool.and_self]
  exact moves_record (.toolEvent cmd) hresolve ha hs rfl fun _ => rfl

theorem moves_attention {cmd : AttentionCommand} (hk : Keyed w.registry) :
    HandlerMoves cfg env w (.attention cmd) (attention env cmd) := by
  unfold HandlerMoves attention ensureAttentionCapability
  refine wp_check_view moves_none fun _ hext => wp_check_view moves_none fun _ hsummary => ?_
  refine wp_capabilitiesFor_view moves_none fun c hc => ?_
  refine wp_ensure_view moves_none fun hsupports => ?_
  refine wp_resolve_view hk moves_none fun s hresolve hs => wp_resolvedSession_view hs ?_
  have ha : IngestCommand.accepted w s (.attention cmd) = true := by
    simp only [IngestCommand.accepted, hext, hsummary, hc, Bool.true_and]
    exact hsupports
  refine moves_edit hresolve ha hs rfl rfl hs rfl rfl fun w₂ hw₂ => ?_
  rw [wp_bind, wp_modify]
  refine wp_announce_view ?_
  rw [sessionView_evaluateAttention, hw₂]
  simp only [setView, Function.update_self, Function.update_idem]
  rfl

theorem moves_acknowledgeAttention {cmd : AcknowledgeAttentionCommand} (hk : Keyed w.registry) :
    HandlerMoves cfg env w (.acknowledgeAttention cmd) (acknowledgeAttention cmd) := by
  unfold HandlerMoves acknowledgeAttention storedSession
  refine wp_check_view moves_none fun _ hid => ?_
  simp only [bind_assoc]
  rw [wp_bind, wp_get, wp_bind, wp_okOr]
  refine ⟨fun s hs => ?_, fun _ => moves_none (.err (.sessionNotFound cmd.sessionId))⟩
  have hs' : w.registry.sessions.lookup cmd.sessionId = some s := hs
  have hsid : s.id = cmd.sessionId := hk.id hs'
  rw [← hsid] at hs' hid ⊢
  have ha : IngestCommand.accepted w s (.acknowledgeAttention cmd) = true := by
    rwa [hsid] at hid
  refine moves_edit hs ha hs' rfl rfl hs' rfl rfl fun w₂ hw₂ => ?_
  have hviews : (w₂.setAlerts (w₂.inner.alerts.clearLocalAcknowledgement s.id)).sessionView =
      setView w.sessionView s.id ((IngestCommand.acknowledgeAttention cmd).applied true
        s.standing (w.sessionView s.id)) := by
    rw [sessionView_clearLocalAcknowledgement, hw₂]
    simp only [setView, Function.update_self, Function.update_idem]
    rfl
  rw [wp_bind, wp_modify, wp_bind]
  exact wp_mono (silent_queuePayload _ _ _ hviews) (fun _ _ h => ⟨rfl, rfl, h⟩) fun _ _ h => h

theorem moves_integrationHealth {cmd : IntegrationHealthCommand} :
    HandlerMoves cfg env w (.integrationHealth cmd) (integrationHealth cmd) := by
  have hstore : SilentStore (Repository.upsertIntegration
      ⟨cmd.capabilities, cmd.healthy, cmd.message, cmd.occurredAtMs⟩) :=
    silent_execute fun _ => rfl
  unfold HandlerMoves integrationHealth
  rw [wp_bind]
  refine wp_mono (silent_onStore hstore _ w rfl) (fun _ w₁ hw₁ => ?_)
    fun _ w₁ hw₁ => .stay hw₁ not_reports_none
  rw [wp_bind, wp_modify, wp_bind]
  refine wp_mono (silent_queuePayload _ _ _ rfl) (fun _ w₂ hw₂ => ?_)
    fun _ w₂ hw₂ => .stay (hw₂.trans hw₁) not_reports_none
  refine Moves.stay (hw₂.trans hw₁) fun id => ?_
  rintro ⟨r, hr, hid, -⟩
  cases hr
  cases hid

/-! ### Updates -/

/-- The session got other labels, which no view shows. -/
structure Relabelled (w : World) (s : AgentSession) (w₁ : World) (t : AgentSession) : Prop where
  views : w₁.sessionView = w.sessionView
  store : w₁.store = w.store
  stored : w₁.registry.sessions.lookup s.id = some t
  identity : t.identity = s.identity
  standing : t.standing = s.standing

theorem Relabelled.assign {u : AgentSession} (h : Relabelled w s w₁ t)
    (hidentity : u.identity = t.identity) (hstanding : u.standing = t.standing) :
    Relabelled w s (w₁.withSession s.id u) u where
  views := (sessionView_withSession_same h.stored hstanding).trans h.views
  store := h.store
  stored := lookup_withSession u h.stored
  identity := hidentity.trans h.identity
  standing := hstanding.trans h.standing

theorem wp_updateLabel_view (h : Relabelled w s w₁ t) (hE : ∀ g, E g w₁)
    (hf : ∀ u w₂, Relabelled w s w₂ u → (validateOptional validateSessionLabel label).isOk = true →
      wp (f u) w₂ Q E) : wp (updateLabel s.id t label >>= f) w₁ Q E := by
  cases label with
  | none => exact hf t w₁ h rfl
  | some label =>
    unfold updateLabel
    rw [bind_assoc]
    refine wp_check_view hE fun _ hok => ?_
    rw [wp_bind, wp_assign_iff]
    exact hf _ _ (h.assign rfl rfl) hok

theorem wp_updateWorkspaceLabel_view (h : Relabelled w s w₁ t) (hE : ∀ g, E g w₁)
    (hf : ∀ u w₂, Relabelled w s w₂ u →
      (validateOptional validateWorkspaceLabel label).isOk = true → wp (f u) w₂ Q E) :
    wp (updateWorkspaceLabel s.id t label >>= f) w₁ Q E := by
  cases label with
  | none => exact hf t w₁ h rfl
  | some label =>
    unfold updateWorkspaceLabel
    rw [bind_assoc]
    refine wp_check_view hE fun _ hok => ?_
    rw [wp_bind, wp_assign_iff]
    exact hf _ _ (h.assign rfl rfl) hok

/-- The end of an update, whose session has its labels. -/
theorem moves_update (cfg : CoreConfig) (env : Env) {cmd : SessionUpdateCommand}
    {status : SessionStatus}
    (hresolve : w.registry.resolveExternal cmd.source cmd.externalSessionId = some s)
    (ha : IngestCommand.accepted w s (.sessionUpdate cmd) = true)
    (hs : w.registry.sessions.lookup s.id = some s) (h : Relabelled w s w₁ t)
    (hstatus : cmd.status.getD t.status = status) :
    wp (do
      let session ← assign s.id { t with status := status, lastEventAtMs := cmd.occurredAtMs }
      onStore (Repository.upsertSession session)
      let event ← appendEvent env s.id .status .info "Session updated" none cmd.occurredAtMs
      queuePayload (.sessionUpsert session)
      pure (⟨some s.id, some event.id, false⟩ : IngestResult)) w₁
      (fun r w' => Moves cfg env w (.ingest (.sessionUpdate cmd)) (some r) w')
      (fun _ w' => Moves cfg env w (.ingest (.sessionUpdate cmd)) none w') := by
  have hedit : { t with status := status, lastEventAtMs := cmd.occurredAtMs }.standing =
      (IngestCommand.sessionUpdate cmd).edit s.standing := by
    rw [← hstatus]
    simp only [IngestCommand.edit, ← h.standing]
    rfl
  refine moves_edit hresolve ha hs h.views h.store h.stored h.identity hedit fun w₂ hw₂ => ?_
  refine wp_announce_view ?_
  rw [hw₂, hedit]
  rfl

theorem moves_sessionUpdate {cmd : SessionUpdateCommand} (hk : Keyed w.registry) :
    HandlerMoves cfg env w (.sessionUpdate cmd) (sessionUpdate env cmd) := by
  unfold HandlerMoves sessionUpdate
  refine wp_check_view moves_none fun _ hext => wp_requireEvents_view moves_none fun hevents => ?_
  refine wp_resolve_view hk moves_none fun s hresolve hs => wp_resolvedSession_view hs ?_
  have h : Relabelled w s w s := ⟨rfl, rfl, hs, rfl, rfl⟩
  refine wp_updateLabel_view h moves_none fun t₁ w₁ h₁ hlabel => ?_
  refine wp_updateWorkspaceLabel_view h₁ (fun _ => .stay h₁.views not_reports_none)
    fun t w₂ h₂ hworkspace => ?_
  have hstatus : t.status = s.status := congrArg Standing.status h₂.standing
  cases hcmd : cmd.status with
  | none =>
    have ha : IngestCommand.accepted w s (.sessionUpdate cmd) = true := by
      simp [IngestCommand.accepted, hext, hevents, hlabel, hworkspace, hcmd]
    exact moves_update cfg env hresolve ha hs h₂ (by rw [hcmd]; rfl)
  | some status =>
    simp only [updateStatus, bind_assoc]
    refine wp_check_view (fun _ => .stay h₂.views not_reports_none) fun _ hvalid => ?_
    rw [isOk_validateTransition, hstatus] at hvalid
    have ha : IngestCommand.accepted w s (.sessionUpdate cmd) = true := by
      simp [IngestCommand.accepted, hext, hevents, hlabel, hworkspace, hcmd, hvalid]
    have hwp := moves_update cfg env hresolve ha hs h₂ (by rw [hcmd, Option.getD_some])
    -- the status and the time are two assignments, and the second one counts
    rw [wp_bind, wp_assign_iff, wp_bind, wp_assign_iff, withSession_withSession]
    rw [wp_bind, wp_assign_iff] at hwp
    exact hwp

/-! ### Starts -/

/-- At most the session a start evicts is gone. -/
def Evicted (env : Env) (w w₁ : World) : Prop :=
  ∀ id, w₁.sessionView id = w.sessionView id ∨
    w₁.sessionView id = (w.sessionView id).dropped ∧
      w.registry.capacityEvictionCandidate env.sessionsRank = .ok (some id)

theorem Evicted.moves (h : Evicted env w w₁) (hnew : StartsNew w cmd)
    (hviews : w₂.sessionView = w₁.sessionView) (hresult : ∀ id, ¬ Reports result id) :
    Moves cfg env w (.ingest (.sessionStart cmd)) result w₂ := by
  intro id
  rw [hviews]
  rcases h id with hid | ⟨hid, hc⟩
  · rw [hid]
    exact .stays (hresult id)
  · rw [hid]
    exact .evicted hnew hc (hresult id)

/-- A move of the new session, after an eviction. -/
theorem Evicted.one (h : Evicted env w w₁) (hnew : StartsNew w cmd)
    (hviews : w₂.sessionView = setView w₁.sessionView id v)
    (hv : Move cfg env w id (.ingest (.sessionStart cmd)) result v)
    (hresult : ∀ k, k ≠ id → ¬ Reports result k) :
    Moves cfg env w (.ingest (.sessionStart cmd)) result w₂ := by
  intro k
  rw [hviews]
  by_cases hk : k = id
  · subst hk
    rwa [setView, Function.update_self]
  · rw [setView, Function.update_of_ne hk]
    rcases h k with hk' | ⟨hk', hc⟩
    · rw [hk']
      exact .stays (hresult k hk)
    · rw [hk']
      exact .evicted hnew hc (hresult k hk)

theorem wp_dropSession_view {Q : Unit → World → Prop} (hs : w.registry.sessions.lookup id = some s)
    (hQ : ∀ w', w'.sessionView = setView w.sessionView id (w.sessionView id).dropped → Q () w')
    (hE : ∀ f w', w'.sessionView = w.sessionView → E f w') : wp (dropSession id) w Q E := by
  unfold dropSession
  rw [wp_bind, onStore, wp_zoom, Repository.removeSession]
  refine Repository.wp_statement (fun _ db hdb => ?_) fun _ _ => hE _ _ rfl
  obtain rfl := (Prod.mk.inj (Except.ok.inj hdb)).2
  rw [wp_bind, onRegistry, wp_zoom, SessionRegistry.removeSession]
  simp only [wp_bind, wp_get, wp_okOr, wp_modify]
  refine ⟨fun t _ => hQ _ ?_, fun hnone => ?_⟩
  · exact sessionView_drop (w := w)
  · have hlookup : w.registry.sessions.lookup id = none := hnone
    rw [hs] at hlookup
    cases hlookup

/-- The session to evict depends on the stored sessions. -/
theorem capacityEvictionCandidate_congr {r r' : SessionRegistry} (rank : String → ℕ)
    (hs : r'.sessions = r.sessions) :
    r'.capacityEvictionCandidate rank = r.capacityEvictionCandidate rank := by
  obtain ⟨sessions, _, _, _⟩ := r
  obtain ⟨sessions', _, _, _⟩ := r'
  obtain rfl : sessions' = sessions := hs
  rfl

/-- A session to evict is stored. -/
theorem lookup_of_candidate {r : SessionRegistry} {rank : String → ℕ} (hk : Keyed r)
    (h : r.capacityEvictionCandidate rank = .ok (some id)) :
    ∃ s, r.sessions.lookup id = some s ∧ isTerminal s.status = true := by
  unfold SessionRegistry.capacityEvictionCandidate at h
  split at h
  · cases h
  · split at h
    · rename_i oldest ho
      obtain rfl : oldest = id := by simpa using h
      obtain ⟨s, hs, rfl⟩ := Option.map_eq_some_iff.1 ho
      obtain ⟨hmem, hterminal⟩ := List.mem_filter.1 (List.argmin_mem hs)
      obtain ⟨k, hlookup⟩ := Dict.mem_valuesBy.1 hmem
      exact ⟨s, by rwa [hk.id hlookup], hterminal⟩
    · cases h

theorem wp_evict_view {Q : Unit → World → Prop} (hk : Keyed w.registry)
    (hviews : w₁.sessionView = w.sessionView)
    (hsessions : w₁.registry.sessions = w.registry.sessions) (hQ : ∀ w₂, Evicted env w w₂ → Q () w₂)
    (hE : ∀ f w₂, w₂.sessionView = w.sessionView → E f w₂) : wp (evict env) w₁ Q E := by
  have hcandidate := capacityEvictionCandidate_congr env.sessionsRank hsessions
  unfold evict
  simp only [wp_bind, wp_get, wp_check]
  refine ⟨fun candidate hc => ?_, fun _ _ => hE _ _ hviews⟩
  cases candidate with
  | none => exact hQ _ fun id => Or.inl (congrFun hviews id)
  | some evictedId =>
    have hc' : w.registry.capacityEvictionCandidate env.sessionsRank = .ok (some evictedId) :=
      hcandidate ▸ hc
    obtain ⟨s, hs, -⟩ := lookup_of_candidate hk hc'
    refine wp_dropSession_view (hsessions ▸ hs) (fun w₂ hw₂ => hQ w₂ fun id => ?_)
      fun f w₂ hw₂ => hE f w₂ (hw₂.trans hviews)
    rw [hw₂, hviews]
    by_cases hid : id = evictedId
    · subst hid
      exact Or.inr ⟨Function.update_self .., hc'⟩
    · exact Or.inl (Function.update_of_ne hid ..)

/-- Persisting and announcing a session that was just inserted. -/
theorem moves_openSession (h : Evicted env w w₁) (hnew : StartsNew w cmd)
    (hid : cfg.sessionIdFor cmd.source cmd.externalSessionId = s.id) (hs : s.standing = opened cmd)
    (hviews : w₂.sessionView =
      setView w₁.sessionView s.id { w₁.sessionView s.id with memory := some (opened cmd) }) :
    wp (openSession env cmd s) w₂
      (fun r w' => Moves cfg env w (.ingest (.sessionStart cmd)) (some r) w')
      (fun _ w' => Moves cfg env w (.ingest (.sessionStart cmd)) none w') := by
  set views := setView w₁.sessionView s.id
    { w₁.sessionView s.id with memory := some (opened cmd), row := some (opened cmd) } with hsaved
  have hcreated : ∀ result w', (result = none ∨ Reports result s.id) →
      (∀ k, k ≠ s.id → ¬ Reports result k) → w'.sessionView = views →
      Moves cfg env w (.ingest (.sessionStart cmd)) result w' :=
    fun result w' hresult hothers hw' =>
      h.one hnew hw' (.created hnew hid (h s.id) hresult) hothers
  have hfailed : ∀ (_f : Fault) w', w'.sessionView = views →
      Moves cfg env w (.ingest (.sessionStart cmd)) none w' :=
    fun _ w' => hcreated none w' (Or.inl rfl) fun k _ => not_reports_none k
  unfold openSession
  rw [wp_bind]
  refine wp_save_view (fun w₃ hw₃ _ _ => ?_) fun _ w₃ hw₃ _ => ?_
  · have hw₃' : w₃.sessionView = views := by
      rw [hw₃, hviews, hs]
      simp only [setView, Function.update_self, Function.update_idem, hsaved]
    rw [wp_bind]
    refine wp_mono (wp_appendEvent_view hw₃') (fun e w₄ hw₄ => ?_) hfailed
    obtain ⟨he, hw₄⟩ := hw₄
    -- the session is inserted and written once more, with the same time
    have ht : { s with lastEventAtMs := cmd.occurredAtMs }.standing = opened cmd := by
      rw [← hs]
      have hlast : s.lastEventAtMs = cmd.occurredAtMs := congrArg Standing.lastEventAtMs hs
      rw [← hlast]
    rw [wp_bind, onRegistry, wp_zoom, SessionRegistry.upsertSession, wp_bind, wp_check]
    refine ⟨fun _ _ => ?_, fun err _ => hfailed (.err err) w₄ hw₄⟩
    rw [wp_modify, wp_bind]
    set u : AgentSession := { s with lastEventAtMs := cmd.occurredAtMs }
    set w₅ := w₄.setRegistry { w₄.registry with
      externalIndex := w₄.registry.externalIndex.insert u.key u.id
      sessions := w₄.registry.sessions.insert u.id u } with hw₅
    have hw₅' : w₅.sessionView = views := by
      rw [hw₅, sessionView_insert, hw₄, ht, hsaved]
      simp only [setView, u, Function.update_self, Function.update_idem]
    refine wp_save_view (fun w₆ hw₆ _ _ => ?_) fun f w₆ hw₆ _ => hfailed f w₆ (hw₆.trans hw₅')
    have hw₆' : w₆.sessionView = views := by
      rw [hw₆, hw₅', ht, hsaved]
      simp only [setView, u, Function.update_self, Function.update_idem]
    rw [wp_bind]
    refine wp_mono (silent_queuePayload _ views w₆ hw₆') (fun _ w₇ hw₇ => ?_) hfailed
    refine hcreated _ w₇ (Or.inr ?_) (fun k hk hreports => hk ?_) hw₇
    · exact (reports_iff (congrArg some he) rfl).2 rfl
    · exact (reports_iff (congrArg some he) rfl).1 hreports
  · refine h.one hnew (hw₃.trans hviews) (.opened hnew hid (h s.id)) fun k _ => ?_
    exact not_reports_none k

theorem not_reports_replay (s : AgentSession) (id : String) :
    ¬ Reports (some (IngestResult.replay s)) id := by
  rintro ⟨r, hr, -, hreplay⟩
  cases hr
  cases hreplay

theorem moves_createSession (hk : Keyed w.registry) (hnew : StartsNew w cmd)
    (hviews : w₁.sessionView = w.sessionView)
    (hsessions : w₁.registry.sessions = w.registry.sessions) :
    wp (createSession cfg env cmd) w₁
      (fun r w' => Moves cfg env w (.ingest (.sessionStart cmd)) (some r) w')
      (fun _ w' => Moves cfg env w (.ingest (.sessionStart cmd)) none w') := by
  unfold createSession
  rw [wp_bind]
  refine wp_evict_view hk hviews hsessions (fun w₂ h => ?_)
    fun _ w₂ hw₂ => .stay hw₂ not_reports_none
  have hfailed : Moves cfg env w (.ingest (.sessionStart cmd)) none w₂ :=
    h.moves hnew rfl not_reports_none
  rw [wp_bind, onRegistry, wp_zoom, SessionRegistry.insertNewSession]
  simp only [wp_bind, wp_check, wp_get]
  refine ⟨fun _ _ => ?_, fun _ _ => hfailed⟩
  cases w₂.inner.registry.externalIndex.lookup
      (externalKey cmd.source cmd.externalSessionId) with
  | some existingId =>
    simp only [wp_bind, wp_expect, wp_pure]
    exact ⟨fun s _ => h.moves hnew rfl (not_reports_replay s), fun _ => hfailed⟩
  | none =>
    simp only [wp_bind, wp_ensure, wp_pure, SessionRegistry.upsertSession, wp_check, wp_modify]
    refine ⟨fun _ => ⟨fun _ _ => ?_, fun _ _ => hfailed⟩, fun _ => hfailed⟩
    exact moves_openSession h hnew rfl rfl sessionView_insert

theorem wp_knownKey_view (key : String) (occurredAtMs : ℤ) :
    wp (knownKey key occurredAtMs) w
      (fun _ w' => w'.sessionView = w.sessionView ∧ w'.inner = w.inner)
      (fun _ w' => w'.sessionView = w.sessionView) := by
  have hstore : SilentStore (Repository.storeIdempotencyKey key occurredAtMs) := by
    refine silent_statement fun {db a db'} h => ?_
    split at h
    all_goals
      obtain ⟨-, rfl⟩ := Prod.mk.inj (Except.ok.inj h)
      rfl
  unfold knownKey
  rw [wp_bind, wp_get]
  split
  · exact ⟨rfl, rfl⟩
  · unfold onStore
    rw [wp_zoom]
    exact wp_mono (hstore w.db.standing w.store rfl)
      (fun _ _ h => ⟨sessionView_congr rfl h rfl, rfl⟩) fun _ _ h => sessionView_congr rfl h rfl

theorem wp_replayedStart_view (cmd : SessionStartCommand) :
    wp (replayedStart cmd) w
      (fun _ w' => w'.sessionView = w.sessionView ∧ SameRegistry w.registry w'.registry ∧
        w'.inner.integrations = w.inner.integrations)
      (fun _ w' => w'.sessionView = w.sessionView) := by
  unfold replayedStart
  cases cmd.idempotencyKey with
  | none => exact ⟨rfl, .refl _, rfl⟩
  | some key =>
    rw [wp_bind]
    refine wp_mono (wp_knownKey_view key _) (fun known w₁ hw₁ => ?_) fun _ _ h => h
    obtain ⟨hviews, hinner⟩ := hw₁
    have hr : w₁.registry = w.registry := congrArg AppCoreInner.registry hinner
    have hi := congrArg AppCoreInner.integrations hinner
    rw [wp_bind, wp_get]
    split
    · exact ⟨hviews, hr ▸ .refl _, hi⟩
    · simp only [wp_bind, onRegistry, wp_zoom, SessionRegistry.recordIdempotency, wp_modify,
        wp_pure]
      exact ⟨hviews, hr ▸ ⟨rfl, rfl, rfl⟩, hi⟩

theorem moves_sessionStart (hk : Keyed w.registry) :
    HandlerMoves cfg env w (.sessionStart cmd) (sessionStart cfg env cmd) := by
  unfold HandlerMoves sessionStart
  simp only [wp_bind, wp_check]
  have hrejected : Moves cfg env w (.ingest (.sessionStart cmd)) none w :=
    .stay rfl not_reports_none
  refine ⟨fun _ hext => ⟨fun _ hlabel => ⟨fun _ hworkspace => ?_, fun _ _ => hrejected⟩,
    fun _ _ => hrejected⟩, fun _ _ => hrejected⟩
  refine wp_mono (wp_replayedStart_view cmd) (fun replayed w₁ h => ?_)
    fun _ _ h => .stay h not_reports_none
  obtain ⟨hviews, hr, hi⟩ := h
  cases replayed with
  | some session => exact .stay hviews (not_reports_replay session)
  | none =>
    have hfailed : Moves cfg env w (.ingest (.sessionStart cmd)) none w₁ :=
      .stay hviews not_reports_none
    simp only [requireEvents, capabilitiesFor, wp_bind, wp_get, wp_okOr, wp_ensure, wp_check]
    refine ⟨fun c hc => ⟨fun hevents => ⟨fun _ hstatus => ?_, fun _ _ => hfailed⟩,
      fun _ => hfailed⟩, fun _ => hfailed⟩
    cases hres : w₁.inner.registry.resolveExternal cmd.source cmd.externalSessionId with
    | some existing => exact .stay hviews (not_reports_replay existing)
    | none =>
      have hsame := hr.resolveExternal cmd.source cmd.externalSessionId
      have hnew : StartsNew w cmd :=
        ⟨hext, hlabel, hworkspace, hstatus, ⟨c, hi ▸ hc, hevents⟩, hsame ▸ hres⟩
      exact moves_createSession hk hnew hviews hr.sessions

/-- What an ingest can do to the views. -/
theorem moves_ingest (hk : Keyed w.registry) :
    HandlerMoves cfg env w command (ingest cfg env command) := by
  unfold HandlerMoves ingest
  have h : HandlerMoves cfg env w command (handleIngest cfg env command) := by
    cases command with
    | sessionStart cmd => exact moves_sessionStart hk
    | sessionUpdate cmd => exact moves_sessionUpdate hk
    | sessionEnd cmd => exact moves_sessionEnd hk
    | lifecycleEvent cmd => exact moves_lifecycleEvent hk
    | toolEvent cmd => exact moves_toolEvent hk
    | attention cmd => exact moves_attention hk
    | registerProcessRoot cmd => exact moves_registerProcessRoot hk
    | integrationHealth cmd => exact moves_integrationHealth
    | acknowledgeAttention cmd => exact moves_acknowledgeAttention hk
  rw [wp_bind]
  refine wp_mono h (fun r w' hw' => ?_) fun _ _ h => h
  rw [wp_bind, flushPending, wp_modify, wp_pure]
  intro id
  rw [sessionView_flush]
  exact hw' id

end Ingest

end LlmNotch
