import LlmNotch.IngestErrors

/-!
# What becomes of other sessions

`Fates p evicted dead w₀ w` says what a sequence of calls did to the sessions whose identity
does not satisfy `p` : they are as they were, with their events, but those `dead` may have lost
their process root and those `evicted` may be gone. No such session was created.

The rules here follow the handlers that name a session by its key : if the session satisfies
`p`, they leave all others alone.
-/

namespace LlmNotch

open AppCore

/-- A session without its process root and the last sample of it. -/
def AgentSession.withoutRoot (s : AgentSession) : AgentSession :=
  { s with processRoot := none, latestMetric := none }

/-- Whether a session has one of the identities. -/
def AgentSession.Is (p : AgentSource → String → Prop) (s : AgentSession) : Prop :=
  p s.source s.externalSessionId

variable {p : AgentSource → String → Prop} {evicted : String → Prop} {dead : AgentSession → Prop}

/-- Session `s` is as it was, without its root, or gone. -/
inductive Fate (evicted : String → Prop) (dead : AgentSession → Prop) (id : String)
    (s : AgentSession) : Option AgentSession → Prop
  | same : Fate evicted dead id s (some s)
  | unrooted (h : dead s) : Fate evicted dead id s (some s.withoutRoot)
  | gone (h : evicted id) : Fate evicted dead id s none

structure Fates (p : AgentSource → String → Prop) (evicted : String → Prop)
    (dead : AgentSession → Prop) (w₀ w : World) : Prop where
  fate : ∀ {id s}, w₀.registry.sessions.lookup id = some s → ¬ s.Is p →
    Fate evicted dead id s (w.registry.sessions.lookup id)
  events : ∀ {id s}, w₀.registry.sessions.lookup id = some s → ¬ s.Is p →
    (w.registry.sessions.lookup id).isSome = true →
      w.registry.eventsFor id = w₀.registry.eventsFor id
  origin : ∀ {id t}, w.registry.sessions.lookup id = some t → ¬ t.Is p →
    ∃ s, w₀.registry.sessions.lookup id = some s ∧ (t = s ∨ t = s.withoutRoot)

namespace Fates

variable {w₀ w w' : World}

theorem refl (w : World) : Fates p evicted dead w w where
  fate h _ := h ▸ .same
  events _ _ _ := rfl
  origin h _ := ⟨_, h, Or.inl rfl⟩

/-- Nothing about the sessions and their events changes. -/
theorem congr (h : Fates p evicted dead w₀ w) (hr : SameRegistry w.registry w'.registry) :
    Fates p evicted dead w₀ w' where
  fate hs hp := by
    rw [hr.sessions]
    exact h.fate hs hp
  events hs hp hsome := by
    rw [hr.sessions] at hsome
    rw [SessionRegistry.eventsFor, hr.events]
    exact h.events hs hp hsome
  origin ht hp := by
    rw [hr.sessions] at ht
    exact h.origin ht hp

variable {id : String} {t : AgentSession}

theorem is_of_lookup (h : Fates p evicted dead w₀ w) {s : AgentSession}
    (hs : w₀.registry.sessions.lookup id = some s) (ht : w.registry.sessions.lookup id = some t)
    (hp : t.Is p) : s.Is p := by
  by_contra hn
  have hfate := h.fate hs hn
  rw [ht] at hfate
  cases hfate with
  | same => exact hn hp
  | unrooted => exact hn hp

/-- One of the sessions `p` is about is stored, changed or not, and its events may change. -/
theorem put (h : Fates p evicted dead w₀ w) (ht : t.Is p)
    (hid : ∀ s, w₀.registry.sessions.lookup id = some s → s.Is p)
    (hsessions : ∀ k, w'.registry.sessions.lookup k =
      if k = id then some t else w.registry.sessions.lookup k)
    (hevents : ∀ k, k ≠ id → w'.registry.eventsFor k = w.registry.eventsFor k) :
    Fates p evicted dead w₀ w' where
  fate {k s} hs hp := by
    have hk : k ≠ id := by
      rintro rfl
      exact hp (hid s hs)
    rw [hsessions, if_neg hk]
    exact h.fate hs hp
  events {k s} hs hp hsome := by
    have hk : k ≠ id := by
      rintro rfl
      exact hp (hid s hs)
    rw [hsessions, if_neg hk] at hsome
    rw [hevents k hk]
    exact h.events hs hp hsome
  origin {k s} hs hp := by
    rw [hsessions] at hs
    split at hs
    · cases hs
      exact absurd ht hp
    · exact h.origin hs hp

/-- A session is removed that may be : one `p` is about, or an evicted one. -/
theorem erase (h : Fates p evicted dead w₀ w)
    (hid : evicted id ∨ ∀ s, w₀.registry.sessions.lookup id = some s → s.Is p)
    (hsessions : w'.registry.sessions = w.registry.sessions.erase id)
    (hevents : w'.registry.events = w.registry.events.erase id) :
    Fates p evicted dead w₀ w' where
  fate {k s} hs hp := by
    rw [hsessions, Dict.lookup_erase_ite]
    split
    · rename_i hk
      subst hk
      exact .gone (hid.resolve_right fun hown => hp (hown s hs))
    · exact h.fate hs hp
  events {k s} hs hp hsome := by
    rw [hsessions, Dict.lookup_erase_ite] at hsome
    split at hsome
    · cases hsome
    · rename_i hk
      rw [SessionRegistry.eventsFor, hevents, Dict.lookup_erase_ite, if_neg hk]
      exact h.events hs hp hsome
  origin {k s} hs hp := by
    rw [hsessions, Dict.lookup_erase_ite] at hs
    split at hs
    · cases hs
    · exact h.origin hs hp

/-- A dead root is cleared. -/
theorem unroot (h : Fates p evicted dead w₀ w) (ht : w.registry.sessions.lookup id = some t)
    (hroot : t.processRoot.isSome = true)
    (hdead : ∀ s, w₀.registry.sessions.lookup id = some s → ¬ s.Is p →
      s.processRoot.isSome = true → dead s)
    (hr : SameRegistry (w.withSession id t.withoutRoot).registry w'.registry) :
    Fates p evicted dead w₀ w' := by
  have hlookup : ∀ k, w'.registry.sessions.lookup k =
      if k = id then some t.withoutRoot else w.registry.sessions.lookup k := by
    intro k
    rw [hr.sessions]
    show (w.registry.sessions.adjust id fun _ => t.withoutRoot).lookup k = _
    rw [Dict.lookup_adjust, ht]
    rfl
  have hevents : ∀ k, w'.registry.eventsFor k = w.registry.eventsFor k := by
    intro k
    rw [SessionRegistry.eventsFor, hr.events]
    rfl
  refine ⟨fun {k s} hs hp => ?_, fun {k s} hs hp hsome => ?_, fun {k s} hs hp => ?_⟩
  · have hfate := h.fate hs hp
    rw [hlookup]
    split
    · rename_i hk
      subst hk
      rw [ht] at hfate
      generalize hu : some t = u at hfate
      cases hfate with
      | same =>
        cases hu
        exact .unrooted (hdead t hs hp hroot)
      | unrooted hd =>
        cases hu
        cases hroot
      | gone => cases hu
    · exact hfate
  · rw [hevents]
    refine h.events hs hp ?_
    rw [hlookup] at hsome
    split at hsome
    · rename_i hk
      rw [hk, ht]
      rfl
    · exact hsome
  · rw [hlookup] at hs
    split at hs
    · rename_i hk
      cases hs
      obtain ⟨s, hs₀, hcases⟩ := h.origin ht hp
      refine ⟨s, hk ▸ hs₀, Or.inr ?_⟩
      rcases hcases with rfl | rfl <;> rfl
    · exact h.origin hs hp

end Fates

/-- The index finds a session of that identity, stored under its identifier. -/
theorem Indexed.resolved {r : SessionRegistry} {source : AgentSource} {externalSessionId : String}
    {s : AgentSession} (h : Indexed r)
    (hs : r.resolveExternal source externalSessionId = some s) :
    r.sessions.lookup s.id = some s ∧ s.source = source ∧
      s.externalSessionId = externalSessionId := by
  obtain ⟨id, hindex, hid⟩ := Option.bind_eq_some_iff.1 hs
  obtain ⟨t, ht, hkey⟩ := h.indexed hindex
  obtain rfl : t = s := Option.some.inj (ht.symm.trans hid)
  obtain ⟨hsource, hext⟩ := externalKey_inj.1 hkey
  exact ⟨h.keyed hid ▸ hid, hsource, hext⟩

/-! ## Handlers -/

section Handlers

variable {w₀ w : World} {env : Env} {α : Type}

/-- Besides, one of the sessions `p` is about is stored under the identifier. -/
structure Holds (p : AgentSource → String → Prop) (evicted : String → Prop)
    (dead : AgentSession → Prop) (w₀ : World) (id : String) (w : World) : Prop where
  fates : Fates p evicted dead w₀ w
  held : ∃ s, w.registry.sessions.lookup id = some s ∧ s.Is p

variable {id : String}

theorem Holds.congr {w' : World} (h : Holds p evicted dead w₀ id w)
    (hr : SameRegistry w.registry w'.registry) : Holds p evicted dead w₀ id w' :=
  ⟨h.fates.congr hr, hr.sessions ▸ h.held⟩

theorem Holds.setStore (h : Holds p evicted dead w₀ id w) (store : Store) :
    Holds p evicted dead w₀ id (w.setStore store) :=
  h.congr (SameRegistry.refl _)

variable {t : AgentSession} {Q : Unit → World → Prop} {kind : SessionEventKind} {level : EventLevel}
  {summary externalSessionId : String} {toolName : Option String} {occurredAtMs : ℤ}
  {source : AgentSource} {cmd : SessionStartCommand}

theorem Holds.put {w' : World} (h : Holds p evicted dead w₀ id w) (ht : t.Is p)
    (hsessions : ∀ k, w'.registry.sessions.lookup k =
      if k = id then some t else w.registry.sessions.lookup k)
    (hevents : ∀ k, k ≠ id → w'.registry.eventsFor k = w.registry.eventsFor k) :
    Holds p evicted dead w₀ id w' := by
  obtain ⟨s, hs, hp⟩ := h.held
  refine ⟨h.fates.put ht (fun s₀ hs₀ => h.fates.is_of_lookup hs₀ hs hp) hsessions hevents, t, ?_,
    ht⟩
  rw [hsessions, if_pos rfl]

theorem Holds.assign (h : Holds p evicted dead w₀ id w) (ht : t.Is p) :
    Holds p evicted dead w₀ id (w.withSession id t) := by
  obtain ⟨s, hs, -⟩ := h.held
  refine h.put ht (fun k => ?_) fun _ _ => rfl
  show (w.registry.sessions.adjust id fun _ => t).lookup k = _
  rw [Dict.lookup_adjust, hs]
  rfl

theorem wp_assign_holds {Q : AgentSession → World → Prop} {E : Fault → World → Prop}
    (h : Holds p evicted dead w₀ id w) (ht : t.Is p)
    (hQ : ∀ w', Holds p evicted dead w₀ id w' → Q t w') : wp (assign id t) w Q E := by
  rw [wp_assign_iff]
  exact hQ _ (h.assign ht)

theorem wp_onStore_holds {m : StoreM α} {Q : α → World → Prop}
    (h : Holds p evicted dead w₀ id w)
    (hQ : ∀ a w', Holds p evicted dead w₀ id w' → Q a w') :
    wp (onStore m) w Q (fun _ => Fates p evicted dead w₀) := by
  unfold onStore
  rw [wp_zoom]
  unfold wp
  cases m w.store with
  | ok a store => exact hQ a _ (h.setStore store)
  | error f store => exact (h.setStore store).fates

theorem wp_appendEvent_holds {Q : SessionEvent → World → Prop} (h : Holds p evicted dead w₀ id w)
    (hQ : ∀ e w', Holds p evicted dead w₀ id w' → e.sessionId = id → Q e w') :
    wp (appendEvent env id kind level summary toolName occurredAtMs) w Q
      (fun _ => Fates p evicted dead w₀) := by
  obtain ⟨s, hs, hp⟩ := h.held
  unfold appendEvent
  rw [wp_bind, wp_get, wp_bind, onRegistry, wp_zoom]
  refine SessionRegistry.wp_appendEvent (Option.isSome_iff_exists.2 ⟨s, hs⟩) rfl ?_
  rw [wp_bind]
  have hpush : Holds p evicted dead w₀ id (w.setRegistry (w.registry.pushEvent
      ⟨env.uuid, id, w.registry.nextEventSequence id, occurredAtMs, kind, level, summary,
        toolName⟩)) := by
    refine h.put hp (fun k => ?_) fun k hk => ?_
    · show w.registry.sessions.lookup k = _
      split
      · rename_i hk
        rw [hk, hs]
      · rfl
    · show SessionRegistry.eventsFor (w.registry.pushEvent _) k = _
      rw [SessionRegistry.eventsFor_pushEvent, if_neg hk]
  refine wp_onStore_holds hpush fun _ w' hw' => ?_
  rw [wp_bind]
  exact hQ _ _ (hw'.congr ⟨rfl, rfl, rfl⟩) rfl

/-- The end of most handlers. -/
theorem wp_publish_holds {s : AgentSession} {result : SessionEvent → IngestResult}
    (h : Holds p evicted dead w₀ id w) :
    wp (do
      let event ← appendEvent env id kind level summary none occurredAtMs
      queuePayload (.sessionUpsert s)
      pure (result event)) w (fun _ => Fates p evicted dead w₀)
      (fun _ => Fates p evicted dead w₀) := by
  rw [wp_bind]
  exact wp_appendEvent_holds h fun _ _ hw' _ => hw'.fates.congr ⟨rfl, rfl, rfl⟩

/-- The session a command refers to, if `p` is about it. -/
theorem wp_resolve_holds {β : Type} {f : String → AgentSession → CoreM β} {Q : β → World → Prop}
    (h : Fates p evicted dead w₀ w) (hi : Indexed w.registry) (hp : p source externalSessionId)
    (hf : ∀ id s, Holds p evicted dead w₀ id w → s.Is p →
      wp (f id s) w Q (fun _ => Fates p evicted dead w₀)) :
    wp (do
      let id ← resolveSessionId source externalSessionId
      let s ← resolvedSession id
      f id s) w Q (fun _ => Fates p evicted dead w₀) := by
  simp only [resolveSessionId, resolvedSession, wp_bind, wp_get, wp_okOr, wp_pure, wp_expect]
  refine ⟨fun s hs => ⟨fun t ht => ?_, fun _ => h⟩, fun _ => h⟩
  obtain ⟨hid, his⟩ := hi.resolved hs
  have hst : w.registry.sessions.lookup s.id = some t := ht
  obtain rfl : s = t := Option.some.inj (hid.symm.trans hst)
  have hown : s.Is p := by
    unfold AgentSession.Is
    rw [his.1, his.2]
    exact hp
  exact hf _ _ ⟨h, s, hid, hown⟩ hown

variable (h : Fates p evicted dead w₀ w) (hi : Indexed w.registry)

include h hi

theorem fates_sessionUpdate {cmd : SessionUpdateCommand} (hp : p cmd.source cmd.externalSessionId) :
    wp (sessionUpdate env cmd) w (fun _ => Fates p evicted dead w₀)
      (fun _ => Fates p evicted dead w₀) := by
  refine wp_check_bind (fun _ _ => h) fun _ => ?_
  rw [wp_bind]
  refine wp_requireEvents_iff (fun _ => h) fun _ => wp_resolve_holds h hi hp fun id s hw hs => ?_
  refine wp_updates (I := fun t w' => Holds p evicted dead w₀ id w' ∧ t.Is p) ?_
    (fun _ _ _ hI => hI.1.fates) ⟨hw, hs⟩ ?_
  · rintro s t w' ⟨hw', hs'⟩ ht -
    have hown : t.Is p := by
      unfold AgentSession.Is
      rw [ht.source, ht.externalSessionId]
      exact hs'
    exact ⟨hw'.assign hown, hown⟩
  · rintro t w₁ ⟨hw₁, ht⟩
    rw [wp_bind]
    refine wp_assign_holds hw₁ ht fun w₂ hw₂ => ?_
    rw [wp_bind]
    exact wp_onStore_holds hw₂ fun _ w₃ hw₃ => wp_publish_holds hw₃

theorem fates_sessionEnd {cmd : SessionEndCommand} (hp : p cmd.source cmd.externalSessionId) :
    wp (sessionEnd env cmd) w (fun _ => Fates p evicted dead w₀)
      (fun _ => Fates p evicted dead w₀) := by
  refine wp_check_bind (fun _ _ => h) fun _ => ?_
  rw [wp_bind]
  refine wp_requireEvents_iff (fun _ => h) fun _ => wp_resolve_holds h hi hp fun id s hw hs => ?_
  refine wp_ensure_bind (fun _ => h) fun _ => wp_check_bind (fun _ _ => h) fun _ => ?_
  rw [wp_bind]
  refine wp_assign_holds hw hs fun w₁ hw₁ => ?_
  rw [wp_bind]
  refine wp_onStore_holds hw₁ fun _ w₂ hw₂ => ?_
  exact wp_check_bind (fun _ _ => hw₂.fates) fun _ => wp_publish_holds hw₂

/-- The end of the handlers that record an event only. -/
theorem fates_record (hp : p source externalSessionId) :
    wp (recordEvent env source externalSessionId kind level summary toolName occurredAtMs) w
      (fun _ => Fates p evicted dead w₀) (fun _ => Fates p evicted dead w₀) := by
  unfold recordEvent
  rw [wp_bind]
  refine wp_requireEvents_iff (fun _ => h) fun _ => ?_
  simp only [resolveSessionId, wp_bind, wp_get, wp_okOr, wp_pure]
  refine ⟨fun s hs => ?_, fun _ => h⟩
  obtain ⟨hid, hsource, hext⟩ := hi.resolved hs
  have hget : w.inner.registry.get s.id = some s := hid
  have hown : s.Is p := by
    unfold AgentSession.Is
    rw [hsource, hext]
    exact hp
  simp only [touchSession, wp_bind, wp_get, hget]
  refine wp_assign_holds ⟨h, s, hid, hown⟩ hown fun w₁ hw₁ => ?_
  refine wp_onStore_holds hw₁ fun _ w₂ hw₂ => ?_
  exact wp_appendEvent_holds hw₂ fun _ _ hw₃ _ => hw₃.fates

theorem fates_lifecycleEvent {cmd : LifecycleEventCommand}
    (hp : p cmd.source cmd.externalSessionId) :
    wp (lifecycleEvent env cmd) w (fun _ => Fates p evicted dead w₀)
      (fun _ => Fates p evicted dead w₀) :=
  wp_check_bind (fun _ _ => h) fun _ => wp_check_bind (fun _ _ => h) fun _ =>
    fates_record h hi hp

theorem fates_toolEvent {cmd : ToolEventCommand} (hp : p cmd.source cmd.externalSessionId) :
    wp (toolEvent env cmd) w (fun _ => Fates p evicted dead w₀)
      (fun _ => Fates p evicted dead w₀) :=
  wp_check_bind (fun _ _ => h) fun _ => wp_check_bind (fun _ _ => h) fun _ =>
    wp_check_bind (fun _ _ => h) fun _ => fates_record h hi hp

theorem fates_attention {cmd : AttentionCommand} (hp : p cmd.source cmd.externalSessionId) :
    wp (attention env cmd) w (fun _ => Fates p evicted dead w₀)
      (fun _ => Fates p evicted dead w₀) := by
  refine wp_check_bind (fun _ _ => h) fun _ => wp_check_bind (fun _ _ => h) fun _ => ?_
  rw [wp_bind]
  refine wp_capabilitiesFor_iff (fun _ => h) fun c => wp_ensure_bind (fun _ => h) fun _ => ?_
  refine wp_resolve_holds h hi hp fun id s hw hs => ?_
  rw [wp_bind]
  refine wp_assign_holds hw hs fun w₁ hw₁ => ?_
  rw [wp_bind]
  refine wp_onStore_holds hw₁ fun _ w₂ hw₂ => ?_
  rw [wp_bind, wp_modify]
  exact wp_publish_holds (hw₂.congr ⟨rfl, rfl, rfl⟩)

theorem fates_registerProcessRoot {cmd : ProcessRootCommand}
    (hp : p cmd.source cmd.externalSessionId) :
    wp (registerProcessRoot env cmd) w (fun _ => Fates p evicted dead w₀)
      (fun _ => Fates p evicted dead w₀) := by
  refine wp_check_bind (fun _ _ => h) fun _ => ?_
  rw [wp_bind]
  refine wp_capabilitiesFor_iff (fun _ => h) fun c => wp_ensure_bind (fun _ => h) fun _ => ?_
  refine wp_resolve_holds h hi hp fun id s hw hs => ?_
  rw [wp_bind]
  refine wp_assign_holds hw hs fun w₁ hw₁ => ?_
  rw [wp_bind]
  exact wp_onStore_holds hw₁ fun _ w₂ hw₂ => wp_publish_holds hw₂

omit hi in
theorem fates_integrationHealth {cmd : IntegrationHealthCommand} :
    wp (integrationHealth cmd) w (fun _ => Fates p evicted dead w₀)
      (fun _ => Fates p evicted dead w₀) := by
  unfold integrationHealth
  rw [wp_bind, onStore, wp_zoom]
  unfold wp
  cases Repository.upsertIntegration _ w.store with
  | ok a store => exact h.congr ⟨rfl, rfl, rfl⟩
  | error f store => exact h.congr ⟨rfl, rfl, rfl⟩

omit hi in
/-- A session goes that may go. -/
theorem fates_dropSession (hid : evicted id ∨ ∀ s, w₀.registry.sessions.lookup id = some s → s.Is p)
    (hQ : ∀ w', Fates p evicted dead w₀ w' →
      (∀ k, w.registry.externalIndex.lookup k = none →
        w'.registry.externalIndex.lookup k = none) → Q () w') :
    wp (dropSession id) w Q (fun _ => Fates p evicted dead w₀) := by
  unfold dropSession
  rw [wp_bind, onStore, wp_zoom]
  unfold Repository.removeSession
  refine Repository.wp_statement (fun _ db _ => ?_) fun _ _ => h.congr ⟨rfl, rfl, rfl⟩
  rw [wp_bind, onRegistry, wp_zoom, SessionRegistry.removeSession]
  simp only [wp_bind, wp_get, wp_okOr, wp_modify]
  refine ⟨fun s _ => hQ _ (h.erase hid rfl rfl) fun k hk => ?_, fun _ => h.congr ⟨rfl, rfl, rfl⟩⟩
  show (w.registry.externalIndex.erase s.key).lookup k = none
  rw [Dict.lookup_erase_ite, hk, ite_self]

omit hi in
theorem fates_evict
    (hE : ∀ id, w.registry.capacityEvictionCandidate env.sessionsRank = .ok (some id) → evicted id)
    (hQ : ∀ w', Fates p evicted dead w₀ w' →
      (∀ k, w.registry.externalIndex.lookup k = none →
        w'.registry.externalIndex.lookup k = none) → Q () w') :
    wp (evict env) w Q (fun _ => Fates p evicted dead w₀) := by
  unfold evict
  simp only [wp_bind, wp_get, wp_check]
  refine ⟨fun candidate hc => ?_, fun _ _ => h⟩
  cases candidate with
  | none => exact hQ w h fun _ hk => hk
  | some id => exact fates_dropSession h (Or.inl (hE id hc)) hQ

omit h hi in
theorem fates_openSession {s : AgentSession} (h : Holds p evicted dead w₀ s.id w) (hs : s.Is p) :
    wp (openSession env cmd s) w
      (fun r w' => Fates p evicted dead w₀ w' ∧ r.sessionId = some s.id)
      (fun _ => Fates p evicted dead w₀) := by
  unfold openSession
  rw [wp_bind]
  refine wp_onStore_holds h fun _ w₁ hw₁ => ?_
  rw [wp_bind]
  refine wp_appendEvent_holds hw₁ fun e w₂ hw₂ he => ?_
  rw [wp_bind, onRegistry, wp_zoom, SessionRegistry.upsertSession, wp_bind, wp_check]
  refine ⟨fun _ _ => ?_, fun _ _ => hw₂.fates.congr ⟨rfl, rfl, rfl⟩⟩
  rw [wp_modify, wp_bind]
  have hown : AgentSession.Is p { s with lastEventAtMs := cmd.occurredAtMs } := hs
  have hw₃ : Holds p evicted dead w₀ s.id (w₂.setRegistry { w₂.registry with
      externalIndex := w₂.registry.externalIndex.insert s.key s.id
      sessions := w₂.registry.sessions.insert s.id
        { s with lastEventAtMs := cmd.occurredAtMs } }) :=
    hw₂.put hown (fun k => Dict.lookup_insert_ite _ k _ _) fun _ _ => rfl
  refine wp_onStore_holds hw₃ fun _ _ hw₄ => ⟨hw₄.fates.congr ⟨rfl, rfl, rfl⟩, ?_⟩
  exact congrArg some he

omit hi in
theorem fates_createSession {cfg : CoreConfig} (hp : p cmd.source cmd.externalSessionId)
    (hnew : w.registry.externalIndex.lookup
      (externalKey cmd.source cmd.externalSessionId) = none)
    (hE : ∀ id, w.registry.capacityEvictionCandidate env.sessionsRank = .ok (some id) → evicted id)
    (hfree : ∀ s, w₀.registry.sessions.lookup
      (cfg.sessionIdFor cmd.source cmd.externalSessionId) = some s → s.Is p) :
    wp (createSession cfg env cmd) w (fun r w' => Fates p evicted dead w₀ w' ∧
        r.sessionId = some (cfg.sessionIdFor cmd.source cmd.externalSessionId))
      (fun _ => Fates p evicted dead w₀) := by
  unfold createSession
  rw [wp_bind]
  refine fates_evict h hE fun w₁ hw₁ hindex => ?_
  rw [wp_bind, onRegistry, wp_zoom, SessionRegistry.insertNewSession]
  have hsame : Fates p evicted dead w₀ (w₁.setRegistry w₁.registry) := hw₁.congr ⟨rfl, rfl, rfl⟩
  simp only [wp_bind, wp_check, wp_get]
  refine ⟨fun _ _ => ?_, fun _ _ => hsame⟩
  have hnone : w₁.inner.registry.externalIndex.lookup
      (externalKey cmd.source cmd.externalSessionId) = none := hindex _ hnew
  simp only [hnone, wp_bind, wp_ensure, wp_pure, SessionRegistry.upsertSession, wp_check,
    wp_modify, decide_eq_true_eq]
  refine ⟨fun _ => ⟨fun _ _ => ?_, fun _ _ => hsame⟩, fun _ => hsame⟩
  set s := newSession cmd (cfg.sessionIdFor cmd.source cmd.externalSessionId)
  have hown : s.Is p := hp
  have hput : Fates p evicted dead w₀ (w₁.setRegistry { w₁.registry with
      externalIndex := w₁.registry.externalIndex.insert s.key s.id
      sessions := w₁.registry.sessions.insert s.id s }) :=
    hw₁.put hown hfree (fun k => Dict.lookup_insert_ite _ k _ _) fun _ _ => rfl
  exact fates_openSession ⟨hput, s, AList.lookup_insert _, hown⟩ hown

omit h in
/-- No session has a key the index does not resolve. -/
theorem index_of_resolve_none (hres : w.registry.resolveExternal source externalSessionId = none) :
    w.registry.externalIndex.lookup (externalKey source externalSessionId) = none := by
  cases hindex : w.registry.externalIndex.lookup (externalKey source externalSessionId) with
  | none => rfl
  | some id =>
    obtain ⟨s, hs, -⟩ := hi.indexed hindex
    rw [SessionRegistry.resolveExternal, hindex, Option.bind_some, hs] at hres
    cases hres

omit hi in
/-- Looking for an earlier start changes nothing but keys. -/
theorem fates_replayedStart {Q : Option AgentSession → World → Prop}
    (hQ : ∀ r w', SameRegistry w.registry w'.registry →
      w'.inner.integrations = w.inner.integrations →
      (∀ s, r = some s →
        w.registry.resolveExternal cmd.source cmd.externalSessionId = some s) → Q r w') :
    wp (replayedStart cmd) w Q (fun _ => Fates p evicted dead w₀) := by
  unfold replayedStart
  cases cmd.idempotencyKey with
  | none => exact hQ none w (SameRegistry.refl _) rfl fun s hs => by cases hs
  | some key =>
    have hknown : wp (knownKey key cmd.occurredAtMs) w
        (fun _ w' => ∃ store, w' = w.setStore store) (fun _ => Fates p evicted dead w₀) := by
      unfold knownKey
      rw [wp_bind, wp_get]
      split
      · exact ⟨w.store, rfl⟩
      · unfold onStore
        rw [wp_zoom]
        unfold wp
        cases Repository.storeIdempotencyKey key cmd.occurredAtMs w.store with
        | ok a store => exact ⟨store, rfl⟩
        | error f store => exact h.congr (SameRegistry.refl _)
    simp only [wp_bind]
    refine wp_mono hknown ?_ fun _ _ h => h
    rintro known _ ⟨store, rfl⟩
    rw [wp_get]
    split
    · rename_i hs
      exact hQ _ _ (SameRegistry.refl _) rfl fun t ht => Option.some.inj ht ▸ hs
    · simp only [wp_bind, onRegistry, wp_zoom, SessionRegistry.recordIdempotency, wp_modify,
        wp_pure]
      exact hQ _ _ ⟨rfl, rfl, rfl⟩ rfl fun s hs => by cases hs

theorem fates_sessionStart {cfg : CoreConfig} (hp : p cmd.source cmd.externalSessionId)
    (hE : StartsNew w cmd → ∀ id,
      w.registry.capacityEvictionCandidate env.sessionsRank = .ok (some id) → evicted id)
    (hfree : ∀ s, w₀.registry.sessions.lookup
      (cfg.sessionIdFor cmd.source cmd.externalSessionId) = some s → s.Is p) :
    wp (sessionStart cfg env cmd) w
      (fun r w' => Fates p evicted dead w₀ w' ∧ ∀ id, r.sessionId = some id →
        ∀ s, w₀.registry.sessions.lookup id = some s → s.Is p)
      (fun _ => Fates p evicted dead w₀) := by
  -- a session the index resolves is one of `p`
  have hreplay : ∀ {t}, w.registry.resolveExternal cmd.source cmd.externalSessionId = some t →
      ∀ {w'}, SameRegistry w.registry w'.registry →
      Fates p evicted dead w₀ w' ∧ ∀ id, (IngestResult.replay t).sessionId = some id →
        ∀ s, w₀.registry.sessions.lookup id = some s → s.Is p := by
    intro t hres w' hr
    refine ⟨h.congr hr, fun id hid s hs => ?_⟩
    obtain rfl : t.id = id := Option.some.inj hid
    obtain ⟨hlookup, hsource, hexternal⟩ := hi.resolved hres
    refine h.is_of_lookup hs hlookup ?_
    unfold AgentSession.Is
    rw [hsource, hexternal]
    exact hp
  unfold sessionStart
  refine wp_check_bind (fun _ _ => h) fun hext => wp_check_bind (fun _ _ => h) fun hlabel => ?_
  refine wp_check_bind (fun _ _ => h) fun hworkspace => ?_
  rw [wp_bind]
  refine fates_replayedStart h fun replayed w' hr hintegrations hreplayed => ?_
  have hw' : Fates p evicted dead w₀ w' := h.congr hr
  cases replayed with
  | some t => exact hreplay (hreplayed t rfl) hr
  | none =>
    simp only [requireEvents, capabilitiesFor, wp_bind, wp_get, wp_okOr, wp_ensure, wp_check]
    refine ⟨fun c hc => ⟨fun hevents => ⟨fun _ hstatus => ?_, fun _ _ => hw'⟩, fun _ => hw'⟩,
      fun _ => hw'⟩
    have hsame := hr.resolveExternal cmd.source cmd.externalSessionId
    cases hres : w'.inner.registry.resolveExternal cmd.source cmd.externalSessionId with
    | some existing => exact hreplay (hsame ▸ hres) hr
    | none =>
      have hunknown : w.registry.resolveExternal cmd.source cmd.externalSessionId = none :=
        hsame ▸ hres
      have hindex := index_of_resolve_none hi hunknown
      have hnew : StartsNew w cmd :=
        ⟨hext, hlabel, hworkspace, hstatus, ⟨c, hintegrations ▸ hc, hevents⟩, hunknown⟩
      refine wp_mono (fates_createSession hw' hp (hr.externalIndex ▸ hindex) (fun id hid => ?_)
        hfree) ?_ fun _ _ hf => hf
      · refine hE hnew id ?_
        have hcandidate : w'.registry.capacityEvictionCandidate env.sessionsRank =
            w.registry.capacityEvictionCandidate env.sessionsRank := by
          unfold SessionRegistry.capacityEvictionCandidate SessionRegistry.len
            SessionRegistry.oldestTerminalSessionId
          rw [hr.sessions]
        exact hcandidate ▸ hid
      · rintro r w'' ⟨hf, hid⟩
        refine ⟨hf, fun id hr => ?_⟩
        obtain rfl := Option.some.inj (hid.symm.trans hr)
        exact hfree

omit hi in
theorem fates_removeSession (hid : ∀ s, w₀.registry.sessions.lookup id = some s → s.Is p) :
    wp (removeSession env id) w (fun _ => Fates p evicted dead w₀)
      (fun _ => Fates p evicted dead w₀) := by
  refine wp_check_bind (fun _ _ => h) fun _ => ?_
  rw [wp_bind]
  simp only [storedSession, wp_bind (m := get), wp_get, wp_okOr]
  refine ⟨fun _ _ => ?_, fun _ => h⟩
  rw [wp_bind]
  refine fates_dropSession h (Or.inr hid) fun w' hw' _ => hw'.congr ?_
  rw [registry_flush]
  exact SameRegistry.refl _

omit h hi in
/-- Assign to a stored session, persist it and announce it. -/
theorem wp_publishSession_registry {I : World → Prop}
    (hI : ∀ w', SameRegistry (w.withSession id t).registry w'.registry → I w') :
    wp (publish env id t) w (fun _ => I) (fun _ => I) := by
  unfold publish
  rw [wp_bind, wp_assign_iff, wp_bind, onStore, wp_zoom]
  unfold wp
  cases Repository.upsertSession t (w.withSession id t).store with
  | ok a store =>
    refine hI _ ?_
    rw [registry_flush]
    exact ⟨rfl, rfl, rfl⟩
  | error f store => exact hI _ ⟨rfl, rfl, rfl⟩

omit hi in
theorem fates_setVerifiedTerminal {terminal : VerifiedTerminalContext}
    (hid : ∀ s, w.registry.sessions.lookup id = some s → s.Is p) :
    wp (setVerifiedTerminal env id terminal) w (fun _ => Fates p evicted dead w₀)
      (fun _ => Fates p evicted dead w₀) := by
  refine wp_check_bind (fun _ _ => h) fun _ => ?_
  rw [wp_bind]
  simp only [storedSession, wp_bind, wp_get, wp_okOr]
  refine ⟨fun s hs => ?_, fun _ => h⟩
  have hown := hid s hs
  refine wp_publishSession_registry fun w' hw' => ?_
  refine h.put (t := { s with verifiedTerminal := some terminal }) hown
    (fun s₀ hs₀ => h.is_of_lookup hs₀ hs hown) (fun k => ?_) fun k _ => ?_
  · rw [hw'.sessions]
    show (w.registry.sessions.adjust id fun _ => _).lookup k = _
    have hstored : w.registry.sessions.lookup id = some s := hs
    rw [Dict.lookup_adjust, hstored]
    rfl
  · rw [SessionRegistry.eventsFor, hw'.events]
    rfl

omit hi in
theorem fates_clearProcessRoot (hdead : ∀ s, w₀.registry.sessions.lookup id = some s → ¬ s.Is p →
      s.processRoot.isSome = true → dead s) :
    wp (clearProcessRoot env id) w (fun _ => Fates p evicted dead w₀)
      (fun _ => Fates p evicted dead w₀) := by
  refine wp_check_bind (fun _ _ => h) fun _ => ?_
  rw [wp_bind]
  simp only [storedSession, wp_bind, wp_get, wp_okOr, wp_onlyIf]
  refine ⟨fun t ht => ⟨fun hroot => ?_, fun _ => h⟩, fun _ => h⟩
  exact wp_publishSession_registry fun w' hw' => h.unroot ht hroot hdead hw'

end Handlers

end LlmNotch
