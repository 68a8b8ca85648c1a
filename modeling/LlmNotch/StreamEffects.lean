import LlmNotch.StreamMirror
import LlmNotch.CoreChanges

/-!
# What the core sends

The core has a mirror too (`World.mirror`), and every section that returns hands the stream
frames that lead from the mirror before it to the mirror after it (`exec_sent`).

Within a section the coalescer stands for the payloads to come : `StreamCoalescer.pending`
is the mirror after a drain. Upserts are drained last, so a removal may only be queued for
an identifier without a pending upsert (`Pushable`); the core never does otherwise. Between
an assignment and the payload that announces it the core is ahead of the coalescer by that
payload (`Ahead`).

Only the events that touch a session change it without an upsert (`Unseen`) : they set the
time of its last event, which a face may leave out.
-/

namespace LlmNotch

variable {face : AgentSession → AgentSession}

def World.mirror (face : AgentSession → AgentSession) (w : World) : Mirror where
  sessions := fun id => (w.registry.sessions.lookup id).map face
  settings := some w.inner.settings
  adapters := Mirror.adapterOf w.inner.integrations

/-! ## The coalescer -/

namespace StreamCoalescer

/-- The mirror after a drain. -/
def pending (face : AgentSession → AgentSession) (c : StreamCoalescer) (m : Mirror) : Mirror :=
  let others := m.applyAll face c.pendingOther
  { others with sessions := fun id => match c.pendingSessionUpserts.lookup id with
      | some s => some (face s)
      | none => others.sessions id }

/-- A payload that may be queued now. -/
def Pushable (c : StreamCoalescer) : StreamPayload → Prop
  | .snapshot _ => False
  | .sessionRemove sessionId => c.pendingSessionUpserts.lookup sessionId = none
  | _ => True

/-- Every pending upsert is stored under the identifier of its session. -/
def UpsertsKeyed (c : StreamCoalescer) : Prop :=
  ∀ id s, c.pendingSessionUpserts.lookup id = some s → s.id = id

theorem pending_empty (m : Mirror) : pending face {} m = m := by
  simp [pending]

variable {c : StreamCoalescer}

/-- Queueing a payload means applying it last. -/
theorem pending_push {p : StreamPayload} (h : c.Pushable p) (m : Mirror) :
    (c.push p).pending face m = (c.pending face m).apply face p := by
  cases p with
  | snapshot snapshot => exact h.elim
  | sessionUpsert session =>
    refine Mirror.ext (funext fun id => ?_) rfl rfl
    by_cases hid : id = session.id
    · subst hid
      simp [pending, push, Mirror.apply]
    · simp [pending, push, Mirror.apply, hid]
  | sessionRemove sessionId =>
    have hnone : c.pendingSessionUpserts.lookup sessionId = none := h
    refine Mirror.ext (funext fun id => ?_) ?_ ?_
    · by_cases hid : id = sessionId
      · subst hid
        simp [pending, push, Mirror.apply, hnone]
      · simp [pending, push, Mirror.apply, hid]
    · simp [pending, push, Mirror.apply]
    · simp [pending, push, Mirror.apply]
  | sessionEvent event => simp [pending, push, Mirror.apply]
  | metrics metrics => rfl
  | settingsChanged settings => simp [pending, push, Mirror.apply]
  | integrationChanged integration => simp [pending, push, Mirror.apply]
  | heartbeat => simp [pending, push, Mirror.apply]
  | resyncRequired reason => simp [pending, push, Mirror.apply]

theorem UpsertsKeyed.push (h : c.UpsertsKeyed) (p : StreamPayload) : (c.push p).UpsertsKeyed := by
  intro id s hs
  cases p with
  | sessionUpsert session =>
    simp only [StreamCoalescer.push, Dict.lookup_insert_ite] at hs
    split at hs
    · rename_i hid
      rw [← Option.some.inj hs, hid]
    · exact h id s hs
  | _ => exact h id s hs

/-- The order in which upserts are drained does not matter. -/
theorem overlay_upserts (h : c.UpsertsKeyed) (rank : String → ℕ) (m : String → Option AgentSession)
    (id : String) :
    Mirror.overlay face m (c.pendingSessionUpserts.valuesBy rank) id =
      match c.pendingSessionUpserts.lookup id with
      | some s => some (face s)
      | none => m id := by
  have hmem : ∀ s, s ∈ c.pendingSessionUpserts.valuesBy rank →
      c.pendingSessionUpserts.lookup s.id = some s := by
    intro s hs
    obtain ⟨k, hk⟩ := Dict.mem_valuesBy.1 hs
    rw [h k s hk]
    exact hk
  cases hid : c.pendingSessionUpserts.lookup id with
  | none =>
    refine Mirror.overlay_of_notMem fun s hs he => ?_
    have hs' := hmem s hs
    rw [he, hid] at hs'
    cases hs'
  | some s =>
    obtain rfl := h id s hid
    refine Mirror.overlay_of_mem (Dict.mem_valuesBy.2 ⟨s.id, hid⟩) fun t ht he => ?_
    have ht' := hmem t ht
    rw [he, hid] at ht'
    exact (Option.some.inj ht').symm

/-- Draining applies what is pending. -/
theorem applyAll_drain (h : c.UpsertsKeyed) (rank : String → ℕ) (m : Mirror) :
    m.applyAll face (c.drain rank) = c.pending face m := by
  have hmetrics : ∀ n : Mirror, n.applyAll face (c.pendingMetrics.toList.map .metrics) = n := by
    intro n
    cases c.pendingMetrics <;> rfl
  unfold drain pending
  rw [Mirror.applyAll_append, Mirror.applyAll_append, hmetrics, Mirror.applyAll_upserts]
  refine Mirror.ext (funext fun id => ?_) rfl rfl
  exact overlay_upserts h rank _ id

theorem eq_empty_of_isEmpty (h : c.isEmpty = true) : c = {} := by
  obtain ⟨upserts, metrics, others⟩ := c
  simp only [isEmpty, Bool.and_eq_true, List.isEmpty_iff, Option.isNone_iff_eq_none] at h
  obtain ⟨⟨rfl, hupserts⟩, rfl⟩ := h
  obtain rfl : upserts = ∅ := AList.ext hupserts
  rfl

end StreamCoalescer

/-! ## Frames -/

theorem payloads_frame (sequence : ℕ) (emittedAtMs : ℤ) (payloads : List StreamPayload) :
    (frame sequence emittedAtMs payloads).map (·.payload) = payloads := by
  induction payloads generalizing sequence with
  | nil => rfl
  | cons p payloads ih => simp [frame, ih]

theorem sequences_frame (sequence : ℕ) (emittedAtMs : ℤ) (payloads : List StreamPayload) :
    (frame sequence emittedAtMs payloads).map (·.sequence) =
      List.range' (sequence + 1) payloads.length := by
  induction payloads generalizing sequence with
  | nil => rfl
  | cons p payloads ih => simp [frame, ih, List.range'_succ]

theorem length_frame (sequence : ℕ) (emittedAtMs : ℤ) (payloads : List StreamPayload) :
    (frame sequence emittedAtMs payloads).length = payloads.length := by
  have hlen := congrArg List.length (payloads_frame sequence emittedAtMs payloads)
  simpa using hlen

/-- From `w₀` to `w` the core hands the frames `fs` to the stream, numbered one after
another, and they lead from one mirror to the other. -/
structure Streams (face : AgentSession → AgentSession) (w₀ w : World) (fs : List StreamFrame) :
    Prop where
  frames : w.frames = w₀.frames ++ fs
  numbered : fs.map (·.sequence) = List.range' (w₀.inner.streamSequence + 1) fs.length
  sequence : w.inner.streamSequence = w₀.inner.streamSequence + fs.length
  mirror : (w.mirror face) = (w₀.mirror face).applyAll face (fs.map (·.payload))

theorem Streams.refl (w : World) : Streams face w w [] :=
  ⟨by simp, by simp, by simp, by simp⟩

theorem Streams.trans {w₀ w₁ w₂ : World} {fs gs : List StreamFrame} (h : Streams face w₀ w₁ fs)
    (h' : Streams face w₁ w₂ gs) : Streams face w₀ w₂ (fs ++ gs) := by
  refine ⟨?_, ?_, ?_, ?_⟩
  · rw [h'.frames, h.frames, List.append_assoc]
  · rw [List.map_append, h.numbered, h'.numbered, h.sequence, List.length_append]
    rw [← List.range'_append_1]
    congr 2
    omega
  · rw [h'.sequence, h.sequence, List.length_append]
    omega
  · rw [h'.mirror, h.mirror, List.map_append, Mirror.applyAll_append]

/-! ## Within a section -/

/-- Nothing is pending, and sessions are stored under their identifier. -/
structure Settled (w : World) : Prop where
  empty : w.inner.coalescer = {}
  ids : ∀ {id s}, w.registry.sessions.lookup id = some s → s.id = id

/-- Since `w₀` nothing was handed to the stream, and the core is ahead of what is pending by
the payloads `ps`. -/
structure Ahead (face : AgentSession → AgentSession) (ps : List StreamPayload) (w₀ w : World) :
    Prop where
  frames : w.frames = w₀.frames
  sequence : w.inner.streamSequence = w₀.inner.streamSequence
  ids : ∀ {id s}, w.registry.sessions.lookup id = some s → s.id = id
  upserts : w.inner.coalescer.UpsertsKeyed
  mirror : (w.mirror face) = (w.inner.coalescer.pending face (w₀.mirror face)).applyAll face ps

variable {t : AgentSession}

/-- Assigning to a stored session means upserting it. -/
theorem mirror_withSession {w : World} {id : String} {s : AgentSession}
    (hs : w.registry.sessions.lookup id = some s) (ht : t.id = id) :
    (w.withSession id t).mirror face = (w.mirror face).apply face (.sessionUpsert t) := by
  refine Mirror.ext (funext fun i => ?_) rfl rfl
  show ((w.registry.sessions.adjust id fun _ => t).lookup i).map face = _
  rw [Dict.lookup_adjust, hs]
  by_cases hi : i = id
  · simp [hi, Mirror.apply, ht]
  · simp [hi, Mirror.apply, World.mirror, ht]

theorem ids_withSession {w : World} {id : String} {s : AgentSession}
    (h : ∀ {i u}, w.registry.sessions.lookup i = some u → u.id = i)
    (hs : w.registry.sessions.lookup id = some s) (ht : t.id = id) {i : String} {u : AgentSession}
    (hu : (w.withSession id t).registry.sessions.lookup i = some u) : u.id = i := by
  have hu' : (w.registry.sessions.adjust id fun _ => t).lookup i = some u := hu
  rw [Dict.lookup_adjust, hs] at hu'
  split at hu'
  · rename_i hi
    rw [hi, ← ht, ← Option.some.inj hu']
  · exact h hu'

/-- The core is ahead by an upsert of the session `id`, if at all. -/
def AheadAt (face : AgentSession → AgentSession) (id : String) (w₀ w : World) : Prop :=
  Ahead face [] w₀ w ∨ ∃ u, u.id = id ∧ Ahead face [.sessionUpsert u] w₀ w

/-- The last of several assignments is to be announced. -/
theorem AheadAt.withSession {w₀ w : World} {id : String} {s : AgentSession}
    (h : AheadAt face id w₀ w) (hs : w.registry.sessions.lookup id = some s) (ht : t.id = id) :
    Ahead face [.sessionUpsert t] w₀ (w.withSession id t) := by
  rcases h with h | ⟨u, hu, h⟩
  · refine ⟨h.frames, h.sequence, ids_withSession h.ids hs ht, h.upserts, ?_⟩
    rw [mirror_withSession hs ht, h.mirror]
    rfl
  · refine ⟨h.frames, h.sequence, ids_withSession h.ids hs ht, h.upserts, ?_⟩
    rw [mirror_withSession hs ht, h.mirror]
    simp only [Mirror.applyAll_singleton, Mirror.apply, hu, ht, Function.update_idem]
    rfl

namespace Ahead

variable {ps : List StreamPayload} {w₀ w w' : World}

theorem start (face : AgentSession → AgentSession) (h : Settled w) : Ahead face [] w w where
  frames := rfl
  sequence := rfl
  ids := h.ids
  upserts := by
    intro id s hs
    rw [h.empty] at hs
    cases hs
  mirror := by rw [h.empty, StreamCoalescer.pending_empty, Mirror.applyAll_nil]

/-- A change that the mirror does not show. -/
theorem hidden (h : Ahead face ps w₀ w) (hframes : w'.frames = w.frames)
    (hsequence : w'.inner.streamSequence = w.inner.streamSequence)
    (hcoalescer : w'.inner.coalescer = w.inner.coalescer)
    (hids : ∀ {id s}, w'.registry.sessions.lookup id = some s → s.id = id)
    (hmirror : (w'.mirror face) = (w.mirror face)) : Ahead face ps w₀ w' := by
  refine ⟨hframes.trans h.frames, hsequence.trans h.sequence, hids, ?_, ?_⟩
  · rw [hcoalescer]
    exact h.upserts
  · rw [hmirror, h.mirror, hcoalescer]

theorem setStore (h : Ahead face ps w₀ w) (store : Store) : Ahead face ps w₀ (w.setStore store) :=
  h.hidden rfl rfl rfl h.ids rfl

theorem setAlerts (h : Ahead face ps w₀ w) (alerts : AlertEvaluator) :
    Ahead face ps w₀ (w.setAlerts alerts) :=
  h.hidden rfl rfl rfl h.ids rfl

/-- The registry with the same sessions. -/
theorem setRegistry (h : Ahead face ps w₀ w) {r : SessionRegistry}
    (hr : r.sessions = w.registry.sessions) : Ahead face ps w₀ (w.setRegistry r) := by
  have hsessions : (w.setRegistry r).registry.sessions = w.registry.sessions := hr
  refine h.hidden rfl rfl rfl (fun {id s} hs => h.ids (hsessions ▸ hs)) ?_
  exact Mirror.ext (by simp only [World.mirror, hsessions]) rfl rfl

/-- The pending payloads catch up. -/
theorem push {p : StreamPayload} (h : Ahead face [p] w₀ w) (hp : w.inner.coalescer.Pushable p) :
    Ahead face [] w₀ (w.push p) := by
  refine ⟨h.frames, h.sequence, h.ids, h.upserts.push p, ?_⟩
  have hmirror : (w.push p).mirror face = w.mirror face := rfl
  rw [hmirror, h.mirror, World.push_inner_coalescer, StreamCoalescer.pending_push hp]
  rfl

/-- A payload without meaning for the mirror. -/
theorem pushNeutral {p : StreamPayload} (h : Ahead face ps w₀ w)
    (hp : w.inner.coalescer.Pushable p) (hneutral : ∀ m : Mirror, m.apply face p = m) :
    Ahead face ps w₀ (w.push p) := by
  refine ⟨h.frames, h.sequence, h.ids, h.upserts.push p, ?_⟩
  have hmirror : (w.push p).mirror face = w.mirror face := rfl
  rw [hmirror, h.mirror, World.push_inner_coalescer, StreamCoalescer.pending_push hp, hneutral]

/-- An assignment that the mirror does not show. -/
theorem touch {id : String} {s t : AgentSession} (h : Ahead face ps w₀ w)
    (hs : w.registry.sessions.lookup id = some s) (hid : t.id = s.id) (ht : face t = face s) :
    Ahead face ps w₀ (w.withSession id t) := by
  refine h.hidden rfl rfl rfl (ids_withSession h.ids hs (hid.trans (h.ids hs)))
    (Mirror.ext (funext fun i => ?_) rfl rfl)
  · show ((w.registry.sessions.adjust id fun _ => t).lookup i).map face = _
    rw [Dict.lookup_adjust, hs]
    by_cases hi : i = id
    · simp [hi, World.mirror, hs, ht]
    · simp [hi, World.mirror]

/-- Draining ends the section. -/
theorem flush (h : Ahead face [] w₀ w) (env : Env) :
    Settled (w.flush env) ∧ ∃ fs, Streams face w₀ (w.flush env) fs := by
  have hmirror := h.mirror
  rw [Mirror.applyAll_nil] at hmirror
  unfold World.flush
  split
  · rename_i hempty
    have hc := StreamCoalescer.eq_empty_of_isEmpty hempty
    rw [hc, StreamCoalescer.pending_empty] at hmirror
    exact ⟨⟨hc, h.ids⟩, [], by simp [h.frames], by simp, by simp [h.sequence], hmirror⟩
  · refine ⟨⟨rfl, h.ids⟩, frame w.inner.streamSequence env.flushedAt
      (w.inner.coalescer.drain env.upsertsRank), ?_, ?_, ?_, ?_⟩
    · rw [h.frames]
    · rw [sequences_frame, length_frame, h.sequence]
    · rw [length_frame, h.sequence]
    · rw [payloads_frame, StreamCoalescer.applyAll_drain h.upserts]
      exact hmirror

end Ahead

/-! ## Programs that return -/

section Rules

open AppCore

variable {w₀ w : World} {ps : List StreamPayload} {α β : Type}

/-- An event does not change the sessions. -/
theorem returns_appendEvent {env : Env} {id : String} {kind : SessionEventKind}
    {level : EventLevel} {summary : String} {toolName : Option String} {occurredAtMs : ℤ}
    {Q : SessionEvent → World → Prop} (h : Ahead face ps w₀ w)
    (hQ : ∀ e w', Ahead face ps w₀ w' → w'.registry.sessions = w.registry.sessions → Q e w') :
    wp (appendEvent env id kind level summary toolName occurredAtMs) w Q anyFault := by
  unfold appendEvent
  rw [wp_bind, wp_get, wp_bind, onRegistry, wp_zoom, SessionRegistry.appendEvent]
  simp only [wp_bind, wp_get, wp_ensure, wp_modify, wp_check]
  refine ⟨fun _ => ⟨fun _ _ => ?_, fun _ _ => trivial⟩, fun _ => trivial⟩
  refine returns_onStore fun _ store => ?_
  refine hQ _ _ (Ahead.pushNeutral ?_ trivial fun _ => rfl) rfl
  refine Ahead.setStore (Ahead.setRegistry h ?_) store
  rfl

/-- The end of most handlers. -/
theorem returns_publish {env : Env} {id : String} {s : AgentSession} {kind : SessionEventKind}
    {level : EventLevel} {summary : String} {occurredAtMs : ℤ}
    {result : SessionEvent → IngestResult} (h : Ahead face [.sessionUpsert s] w₀ w) :
    wp (do
      let event ← appendEvent env id kind level summary none occurredAtMs
      queuePayload (.sessionUpsert s)
      pure (result event)) w (fun _ => Ahead face [] w₀) anyFault := by
  rw [wp_bind]
  exact returns_appendEvent h fun e w' hw' _ => hw'.push trivial

end Rules

/-! ## Ingest -/

section Ingest

open AppCore

variable {w₀ w : World} {env : Env} {cfg : CoreConfig}

/-- Removing a session announces it, if no upsert of it is pending. -/
theorem returns_dropSession {id : String} {Q : Unit → World → Prop} (h : Ahead face [] w₀ w)
    (hpending : w.inner.coalescer.pendingSessionUpserts.lookup id = none)
    (hQ : ∀ w', Ahead face [] w₀ w' → Q () w') : wp (dropSession id) w Q anyFault := by
  unfold dropSession
  rw [wp_bind]
  refine returns_onStore fun _ store => ?_
  rw [wp_bind, onRegistry, wp_zoom, SessionRegistry.removeSession]
  simp only [wp_bind, wp_get, wp_okOr, wp_modify]
  refine ⟨fun s _ => hQ _ (Ahead.push ⟨h.frames, h.sequence, ?_, h.upserts, ?_⟩ hpending),
    fun _ => trivial⟩
  · intro i t ht
    have ht' : (w.registry.sessions.erase id).lookup i = some t := ht
    rw [Dict.lookup_erase_ite] at ht'
    split at ht'
    · cases ht'
    · exact h.ids ht'
  · have hmirror := h.mirror
    rw [Mirror.applyAll_nil] at hmirror
    show _ = (w.inner.coalescer.pending face (w₀.mirror face)).apply face (.sessionRemove id)
    rw [← hmirror]
    refine Mirror.ext (funext fun i => ?_) rfl rfl
    show ((w.registry.sessions.erase id).lookup i).map face = _
    rw [Dict.lookup_erase_ite]
    by_cases hi : i = id
    · simp [hi, Mirror.apply]
    · simp [hi, Mirror.apply, World.mirror]

/-- Storing a session under its identifier, to be announced by an upsert. -/
theorem Ahead.insert {s : AgentSession} {r : SessionRegistry} (h : Ahead face [] w₀ w)
    (hr : r.sessions = w.registry.sessions.insert s.id s) :
    Ahead face [.sessionUpsert s] w₀ (w.setRegistry r) := by
  have hsessions : (w.setRegistry r).registry.sessions = w.registry.sessions.insert s.id s := hr
  refine ⟨h.frames, h.sequence, fun {i t} ht => ?_, h.upserts, ?_⟩
  · rw [hsessions, Dict.lookup_insert_ite] at ht
    split at ht
    · rename_i hi
      rw [hi, ← Option.some.inj ht]
    · exact h.ids ht
  · have hmirror := h.mirror
    rw [Mirror.applyAll_nil] at hmirror
    show _ = (w.inner.coalescer.pending face (w₀.mirror face)).apply face (.sessionUpsert s)
    rw [← hmirror]
    refine Mirror.ext (funext fun i => ?_) rfl rfl
    simp only [World.mirror, hsessions, Dict.lookup_insert_ite, Mirror.apply]
    by_cases hi : i = s.id
    · simp [hi]
    · simp [hi]

/-- Storing a session again before it is announced. -/
theorem Ahead.reinsert {s t : AgentSession} {r : SessionRegistry}
    (h : Ahead face [.sessionUpsert s] w₀ w) (hid : t.id = s.id)
    (hr : r.sessions = w.registry.sessions.insert t.id t) :
    Ahead face [.sessionUpsert t] w₀ (w.setRegistry r) := by
  have hsessions : (w.setRegistry r).registry.sessions = w.registry.sessions.insert t.id t := hr
  refine ⟨h.frames, h.sequence, fun {i u} hu => ?_, h.upserts, ?_⟩
  · rw [hsessions, Dict.lookup_insert_ite] at hu
    split at hu
    · rename_i hi
      rw [hi, ← Option.some.inj hu]
    · exact h.ids hu
  · have hmirror := h.mirror
    have hagain :
        (w.setRegistry r).mirror face = (w.mirror face).apply face (.sessionUpsert t) := by
      refine Mirror.ext (funext fun i => ?_) rfl rfl
      simp only [World.mirror, hsessions, Dict.lookup_insert_ite, Mirror.apply]
      by_cases hi : i = t.id
      · simp [hi]
      · simp [hi]
    rw [hagain, hmirror]
    simp only [Mirror.applyAll_singleton, Mirror.apply, hid, Function.update_idem]
    rfl

variable {cmd : SessionStartCommand}

theorem returns_openSession {s : AgentSession} (h : Ahead face [.sessionUpsert s] w₀ w) :
    wp (openSession env cmd s) w (fun _ => Ahead face [] w₀) anyFault := by
  unfold openSession
  rw [wp_bind]
  refine returns_onStore fun _ store => ?_
  rw [wp_bind]
  refine returns_appendEvent (h.setStore store) fun e w' hw' _ => ?_
  rw [wp_bind, onRegistry, wp_zoom, SessionRegistry.upsertSession, wp_bind, wp_check]
  refine ⟨fun _ _ => ?_, fun _ _ => trivial⟩
  rw [wp_modify, wp_bind]
  refine returns_onStore fun _ store' => ?_
  have hagain := hw'.reinsert (t := { s with lastEventAtMs := cmd.occurredAtMs })
    (r := { w'.registry with
      externalIndex := w'.registry.externalIndex.insert s.key s.id
      sessions := w'.registry.sessions.insert s.id { s with lastEventAtMs := cmd.occurredAtMs } })
    rfl rfl
  exact (hagain.setStore store').push trivial

theorem returns_evict {Q : Unit → World → Prop} (h : Ahead face [] w₀ w)
    (hpending : w.inner.coalescer.pendingSessionUpserts = ∅)
    (hQ : ∀ w', Ahead face [] w₀ w' → Q () w') : wp (evict env) w Q anyFault := by
  unfold evict
  rw [wp_bind, wp_get]
  refine returns_check fun candidate => ?_
  cases candidate with
  | none => exact hQ w h
  | some evictedId => exact returns_dropSession h (by rw [hpending]; rfl) hQ

theorem returns_createSession (h : Ahead face [] w₀ w)
    (hpending : w.inner.coalescer.pendingSessionUpserts = ∅) :
    wp (createSession cfg env cmd) w (fun _ => Ahead face [] w₀) anyFault := by
  unfold createSession
  rw [wp_bind]
  refine returns_evict h hpending fun w' hw' => ?_
  rw [wp_bind, onRegistry, wp_zoom, SessionRegistry.insertNewSession, wp_bind, wp_check]
  refine ⟨fun _ _ => ?_, fun _ _ => trivial⟩
  rw [wp_bind, wp_get]
  split
  · rw [wp_bind, wp_expect]
    exact ⟨fun _ _ => hw'.setRegistry rfl, fun _ => trivial⟩
  · rw [wp_bind, wp_ensure]
    refine ⟨fun _ => ?_, fun _ => trivial⟩
    rw [wp_bind, SessionRegistry.upsertSession, wp_bind, wp_check]
    refine ⟨fun _ _ => ?_, fun _ _ => trivial⟩
    rw [wp_modify]
    set s := newSession cmd (cfg.sessionIdFor cmd.source cmd.externalSessionId)
    exact returns_openSession (hw'.insert rfl)

/-- Looking for an earlier start changes neither the sessions nor what is pending. -/
theorem returns_replayedStart {Q : Option AgentSession → World → Prop} (h : Ahead face [] w₀ w)
    (hQ : ∀ r w', Ahead face [] w₀ w' → w'.inner.coalescer = w.inner.coalescer → Q r w') :
    wp (replayedStart cmd) w Q anyFault := by
  have hknown : ∀ {key}, wp (knownKey key cmd.occurredAtMs) w
      (fun _ w' => ∃ store, w' = w.setStore store) anyFault := by
    intro key
    unfold knownKey
    rw [wp_bind, wp_get]
    split
    · exact ⟨w.store, rfl⟩
    · exact returns_onStore fun _ store => ⟨store, rfl⟩
  unfold replayedStart
  split
  · exact hQ none w h rfl
  · rw [wp_bind]
    refine wp_mono hknown ?_ (fun _ _ h => h)
    rintro known _ ⟨store, rfl⟩
    rw [wp_bind, wp_get]
    split
    · exact hQ _ _ (h.setStore store) rfl
    · rw [wp_bind, onRegistry, wp_zoom, SessionRegistry.recordIdempotency, wp_modify]
      exact hQ _ _ ((h.setStore store).setRegistry rfl) rfl

theorem returns_sessionStart (h : Ahead face [] w₀ w)
    (hpending : w.inner.coalescer.pendingSessionUpserts = ∅) :
    wp (sessionStart cfg env cmd) w (fun _ => Ahead face [] w₀) anyFault := by
  refine returns_check fun _ => returns_check fun _ => returns_check fun _ => ?_
  rw [wp_bind]
  refine returns_replayedStart h fun replayed w' hw' hcoalescer => ?_
  cases replayed with
  | some session => exact hw'
  | none =>
    rw [wp_bind]
    refine returns_requireEvents (returns_check fun _ => ?_)
    rw [wp_bind, wp_get]
    split
    · exact hw'
    · exact returns_createSession hw' (by rw [hcoalescer]; exact hpending)

theorem adapterOf_upsertCapabilities (a : AdapterCapabilities)
    (all : List AdapterCapabilities) :
    Mirror.adapterOf (upsertCapabilities a all) =
      Function.update (Mirror.adapterOf all) a.source (some a) := by
  unfold upsertCapabilities
  split
  · rename_i i hi
    induction all generalizing i with
    | nil => cases hi
    | cons b all ih =>
      rw [List.findIdx?_cons] at hi
      rw [Mirror.adapterOf_cons b]
      split at hi
      · rename_i hb
        have hsource : b.source = a.source := by simpa using hb
        cases hi
        rw [List.set_cons_zero, Mirror.adapterOf_cons, hsource, Function.update_idem]
      · rename_i hb
        have hsource : a.source ≠ b.source := fun h => hb (by simpa using h.symm)
        obtain ⟨j, hj, rfl⟩ := Option.map_eq_some_iff.1 hi
        rw [List.set_cons_succ, Mirror.adapterOf_cons, ih j hj, Function.update_comm hsource]
  · rename_i hnone
    refine Mirror.adapterOf_append fun b hb he => ?_
    have hno := List.findIdx?_eq_none_iff.1 hnone b hb
    simp [he] at hno

section Update

variable {id : String} {s : AgentSession} {Q : AgentSession → World → Prop}

theorem returns_assign {t : AgentSession} (h : AheadAt face id w₀ w)
    (hs : w.registry.sessions.lookup id = some s) (hid : s.id = id) (ht : t.id = s.id)
    (hQ : ∀ w', Ahead face [.sessionUpsert t] w₀ w' → w'.registry.sessions.lookup id = some t →
      Q t w') :
    wp (assign id t) w Q anyFault := by
  rw [wp_assign_iff]
  exact hQ _ (h.withSession hs (ht.trans hid)) (lookup_withSession t hs)

end Update

section

variable (h : Ahead face [] w₀ w)

include h

theorem returns_sessionUpdate {cmd : SessionUpdateCommand} :
    wp (sessionUpdate env cmd) w (fun _ => Ahead face [] w₀) anyFault := by
  refine returns_check fun _ => ?_
  rw [wp_bind]
  refine returns_requireEvents (returns_resolve fun id s hs => ?_)
  refine wp_updates (I := fun t w' => AheadAt face id w₀ w' ∧
    w'.registry.sessions.lookup id = some t ∧ t.id = id) ?_ (fun _ _ _ _ => trivial)
    ⟨Or.inl h, hs, h.ids hs⟩ ?_
  · rintro s t w' ⟨hw', hs', hid⟩ ht -
    have hid' : t.id = id := ht.id.trans hid
    exact ⟨Or.inr ⟨t, hid', hw'.withSession hs' hid'⟩, lookup_withSession t hs', hid'⟩
  · rintro t w₁ ⟨h₁, ht, hid⟩
    rw [wp_bind]
    refine returns_assign h₁ ht hid rfl fun w₂ h₂ _ => ?_
    rw [wp_bind]
    exact returns_onStore fun _ store => returns_publish (h₂.setStore store)

theorem returns_sessionEnd {cmd : SessionEndCommand} :
    wp (sessionEnd env cmd) w (fun _ => Ahead face [] w₀) anyFault := by
  refine returns_check fun _ => ?_
  rw [wp_bind]
  refine returns_requireEvents (returns_resolve fun id s hs => ?_)
  refine returns_ensure (returns_check fun _ => ?_)
  rw [wp_bind]
  refine returns_assign (Or.inl h) hs (h.ids hs) rfl fun w₁ h₁ _ => ?_
  rw [wp_bind]
  refine returns_onStore fun _ store => returns_check fun _ => ?_
  exact returns_publish (h₁.setStore store)

theorem returns_attention {cmd : AttentionCommand} :
    wp (attention env cmd) w (fun _ => Ahead face [] w₀) anyFault := by
  refine returns_check fun _ => returns_check fun _ => ?_
  rw [wp_bind]
  refine returns_capabilitiesFor fun c => returns_ensure (returns_resolve fun id s hs => ?_)
  rw [wp_bind]
  refine returns_assign (Or.inl h) hs (h.ids hs) rfl fun w₁ h₁ _ => ?_
  rw [wp_bind]
  refine returns_onStore fun _ store => ?_
  rw [wp_bind, wp_modify]
  exact returns_publish ((h₁.setStore store).setAlerts _)

theorem returns_registerProcessRoot {cmd : ProcessRootCommand} :
    wp (registerProcessRoot env cmd) w (fun _ => Ahead face [] w₀) anyFault := by
  refine returns_check fun _ => ?_
  rw [wp_bind]
  refine returns_capabilitiesFor fun c => returns_ensure (returns_resolve fun id s hs => ?_)
  rw [wp_bind]
  refine returns_assign (Or.inl h) hs (h.ids hs) rfl fun w₁ h₁ _ => ?_
  rw [wp_bind]
  exact returns_onStore fun _ store => returns_publish (h₁.setStore store)

/-- The handlers that record an event change no more than the time of the last event. -/
theorem returns_record {source : AgentSource} {externalSessionId : String} {occurredAtMs : ℤ}
    {kind : SessionEventKind} {level : EventLevel} {summary : String} {toolName : Option String}
    (hunseen : ∀ s, w.registry.resolveExternal source externalSessionId = some s →
      face { s with lastEventAtMs := occurredAtMs } = face s) :
    wp (recordEvent env source externalSessionId kind level summary toolName occurredAtMs) w
      (fun _ => Ahead face [] w₀) anyFault := by
  have htouch : ∀ s, w.registry.resolveExternal source externalSessionId = some s →
      wp (touchSession s.id occurredAtMs) w (fun _ => Ahead face [] w₀) anyFault := by
    intro s hs
    obtain ⟨id, -, hid⟩ := Option.bind_eq_some_iff.1 hs
    have hget : w.registry.sessions.lookup s.id = some s := by
      rw [h.ids hid]
      exact hid
    unfold touchSession
    rw [wp_bind, wp_get]
    split
    · rename_i t ht
      obtain rfl := Option.some.inj (hget.symm.trans ht)
      rw [wp_bind, wp_assign_iff]
      refine returns_onStore fun _ store => Ahead.setStore ?_ store
      exact h.touch (t := { s with lastEventAtMs := occurredAtMs }) hget rfl (hunseen s hs)
    · exact h
  unfold recordEvent
  rw [wp_bind]
  refine returns_requireEvents ?_
  rw [wp_bind, resolveSessionId, wp_bind, wp_get, wp_bind, wp_okOr]
  refine ⟨fun s hs => ?_, fun _ => trivial⟩
  rw [wp_pure, wp_bind]
  refine wp_mono (htouch s hs) (fun _ w₁ h₁ => ?_) (fun _ _ h => h)
  rw [wp_bind]
  exact returns_appendEvent h₁ fun _ _ h₂ _ => h₂

theorem returns_integrationHealth {cmd : IntegrationHealthCommand} :
    wp (integrationHealth cmd) w (fun _ => Ahead face [] w₀) anyFault := by
  unfold integrationHealth
  rw [wp_bind]
  refine returns_onStore fun _ store => ?_
  rw [wp_bind, wp_modify, wp_bind]
  refine Ahead.push (w := { w with
    inner := { w.inner with
      integrations := upsertCapabilities cmd.capabilities w.inner.integrations },
    store := store }) ⟨h.frames, h.sequence, h.ids, h.upserts, ?_⟩ trivial
  have hmirror := h.mirror
  rw [Mirror.applyAll_nil] at hmirror
  show _ = (w.inner.coalescer.pending face (w₀.mirror face)).apply face
    (.integrationChanged cmd.capabilities)
  rw [← hmirror]
  exact Mirror.ext rfl rfl (adapterOf_upsertCapabilities cmd.capabilities w.inner.integrations)

theorem returns_acknowledgeAttention {cmd : AcknowledgeAttentionCommand} :
    wp (acknowledgeAttention cmd) w (fun _ => Ahead face [] w₀) anyFault := by
  refine returns_check fun _ => ?_
  rw [wp_bind]
  refine returns_storedSession fun s hs => ?_
  rw [wp_bind]
  refine returns_assign (Or.inl h) hs (h.ids hs) rfl fun w₁ h₁ _ => ?_
  rw [wp_bind]
  refine returns_onStore fun _ store => ?_
  rw [wp_bind, wp_modify, wp_bind]
  exact ((h₁.setStore store).setAlerts _).push trivial

end

/-- The session and the time of the commands that record an event without an upsert. -/
def IngestCommand.touches : IngestCommand → Option (AgentSource × String × ℤ)
  | .lifecycleEvent cmd => some (cmd.source, cmd.externalSessionId, cmd.occurredAtMs)
  | .toolEvent cmd => some (cmd.source, cmd.externalSessionId, cmd.occurredAtMs)
  | _ => none

/-- The face does not show the time a command touches a session with. -/
def UnseenCommand (face : AgentSession → AgentSession) (w : World) (command : IngestCommand) :
    Prop :=
  ∀ source externalSessionId occurredAtMs s,
    command.touches = some (source, externalSessionId, occurredAtMs) →
    w.registry.resolveExternal source externalSessionId = some s →
    face { s with lastEventAtMs := occurredAtMs } = face s

def Unseen (face : AgentSession → AgentSession) (w : World) : CoreSection → Prop
  | .ingest command => UnseenCommand face w command
  | _ => True

theorem unseen_face (w : World) (sec : CoreSection) : Unseen AgentSession.face w sec := by
  cases sec with
  | ingest command => exact fun _ _ _ _ _ _ => rfl
  | _ => exact trivial

/-- What a section leaves when it returns. -/
def Sent (face : AgentSession → AgentSession) (w₀ w : World) : Prop :=
  Settled w ∧ ∃ fs, Streams face w₀ w fs

theorem sent_ingest {command : IngestCommand} (h : Settled w)
    (hunseen : UnseenCommand face w command) :
    wp (ingest cfg env command) w (fun _ => Sent face w) anyFault := by
  have hw : Ahead face [] w w := Ahead.start face h
  have hpending : w.inner.coalescer.pendingSessionUpserts = ∅ := by rw [h.empty]
  have hhandle : wp (handleIngest cfg env command) w (fun _ => Ahead face [] w) anyFault := by
    cases command with
    | sessionStart cmd => exact returns_sessionStart hw hpending
    | sessionUpdate cmd => exact returns_sessionUpdate hw
    | sessionEnd cmd => exact returns_sessionEnd hw
    | lifecycleEvent cmd =>
      refine returns_check fun _ => returns_check fun _ => returns_record hw fun s hs => ?_
      exact hunseen _ _ _ s rfl hs
    | toolEvent cmd =>
      refine returns_check fun _ => returns_check fun _ => returns_check fun _ => ?_
      exact returns_record hw fun s hs => hunseen _ _ _ s rfl hs
    | attention cmd => exact returns_attention hw
    | registerProcessRoot cmd => exact returns_registerProcessRoot hw
    | integrationHealth cmd => exact returns_integrationHealth hw
    | acknowledgeAttention cmd => exact returns_acknowledgeAttention hw
  unfold ingest
  rw [wp_bind]
  exact wp_mono hhandle (fun _ w' hw' => hw'.flush env) (fun _ _ h => h)

end Ingest

/-! ## The other sections -/

section Sections

open AppCore

variable {w₀ w : World} {env : Env} {cfg : CoreConfig}

/-- A section that queues nothing and changes nothing the mirror shows. -/
theorem Sent.silent {w' : World} (h : Settled w) (hw : Ahead face [] w w')
    (hcoalescer : w'.inner.coalescer = w.inner.coalescer) : Sent face w w' := by
  have hempty : w'.inner.coalescer = {} := hcoalescer.trans h.empty
  have hmirror := hw.mirror
  rw [hempty, StreamCoalescer.pending_empty] at hmirror
  refine ⟨⟨hempty, hw.ids⟩, [], ?_, by simp, ?_, hmirror⟩
  · rw [hw.frames, List.append_nil]
  · rw [hw.sequence, List.length_nil, Nat.add_zero]

theorem sent_onStore {α : Type} {m : StoreM α} (h : Settled w) :
    wp (onStore m) w (fun _ => Sent face w) anyFault :=
  returns_onStore fun _ store => Sent.silent h ((Ahead.start face h).setStore store) rfl

variable {id : String} {metrics : MetricsFrame}

theorem returns_publishSession {s t : AgentSession} (h : Settled w)
    (hs : w.registry.sessions.lookup id = some s) (ht : t.id = s.id) :
    wp (publish env id t) w (fun _ => Sent face w) anyFault := by
  unfold publish
  rw [wp_bind]
  refine returns_assign (Or.inl (Ahead.start face h)) hs (h.ids hs) ht fun w₁ h₁ _ => ?_
  rw [wp_bind]
  refine returns_onStore fun _ store => ?_
  rw [wp_bind]
  exact ((h₁.setStore store).push trivial).flush env

theorem sent_removeSession (h : Settled w) :
    wp (removeSession env id) w (fun _ => Sent face w) anyFault := by
  refine returns_check fun _ => ?_
  rw [wp_bind]
  refine returns_storedSession fun s _ => ?_
  rw [wp_bind]
  refine returns_dropSession (Ahead.start face h) ?_ fun w' hw' => hw'.flush env
  rw [h.empty]
  rfl

theorem sent_clearProcessRoot (h : Settled w) :
    wp (clearProcessRoot env id) w (fun _ => Sent face w) anyFault := by
  refine returns_check fun _ => ?_
  rw [wp_bind]
  refine returns_storedSession fun s hs => ?_
  rw [wp_onlyIf]
  exact ⟨fun _ => returns_publishSession h hs rfl,
    fun _ => Sent.silent h (Ahead.start face h) rfl⟩

theorem sent_setVerifiedTerminal {terminal : VerifiedTerminalContext} (h : Settled w) :
    wp (setVerifiedTerminal env id terminal) w (fun _ => Sent face w) anyFault := by
  refine returns_check fun _ => ?_
  rw [wp_bind]
  refine returns_storedSession fun s hs => ?_
  exact returns_publishSession h hs rfl

/-- Every session marked as stale is announced. -/
theorem returns_markStale {now : ℤ} (h : Ahead face [] w₀ w) :
    wp (markStale now id) w (fun _ => Ahead face [] w₀) anyFault := by
  unfold markStale
  rw [wp_bind, wp_get, wp_bind, wp_expect]
  refine ⟨fun s hs => ?_, fun _ => trivial⟩
  rw [wp_onlyIf]
  refine ⟨fun _ => ?_, fun _ => h⟩
  rw [wp_bind]
  refine returns_assign (Or.inl h) hs (h.ids hs) rfl fun w₁ h₁ _ => ?_
  rw [wp_bind]
  exact returns_onStore fun _ store => (h₁.setStore store).push trivial

theorem sent_tick (h : Settled w) : wp (tick env) w (fun _ => Sent face w) anyFault := by
  unfold tick markStaleSessions
  rw [wp_bind, wp_bind, wp_get]
  refine wp_mono (wp_forM (I := Ahead face [] w) _ _ (fun _ _ _ h' => returns_markStale h')
    (Ahead.start face h)) (fun _ w' hw' => hw'.flush env) (fun _ _ h => h)

/-- Metrics are not part of the mirror. -/
theorem returns_refreshMetric (hface : MetricBlind face) (h : Ahead face [] w₀ w) :
    wp (refreshMetric metrics id) w (fun _ => Ahead face [] w₀) anyFault := by
  unfold refreshMetric
  rw [wp_bind, wp_get]
  split
  · rename_i s hs
    rw [wp_bind, wp_assign_iff]
    refine returns_onStore fun _ store => Ahead.setStore ?_ store
    exact h.touch hs rfl (hface.metric s _)
  · exact h

theorem sent_applyMetrics (hface : MetricBlind face) {now : ℤ} (h : Settled w) :
    wp (applyMetrics env metrics now) w (fun _ => Sent face w) anyFault := by
  unfold applyMetrics
  rw [wp_bind, wp_get, wp_bind]
  refine wp_mono (wp_forM (I := Ahead face [] w) _ _
    (fun _ _ _ h' => returns_refreshMetric hface h') (Ahead.start face h))
    (fun _ w₁ h₁ => ?_) (fun _ _ h => h)
  rw [wp_bind, wp_modify, wp_bind, wp_modify, wp_bind]
  refine Ahead.flush (Ahead.pushNeutral (p := .metrics metrics) ?_ trivial fun _ => rfl) env
  exact h₁.hidden rfl rfl rfl h₁.ids rfl

theorem Sent.setStore (h : Sent face w₀ w) (store : Store) : Sent face w₀ (w.setStore store) := by
  obtain ⟨hsettled, fs, hfs⟩ := h
  exact ⟨⟨hsettled.empty, hsettled.ids⟩, fs, hfs.frames, hfs.numbered, hfs.sequence, hfs.mirror⟩

theorem Sent.refl (h : Settled w) : Sent face w w :=
  ⟨h, [], Streams.refl w⟩

theorem sent_recordBuckets {now : ℤ} (h : Settled w) :
    wp (recordBuckets metrics now) w (fun _ => Sent face w) anyFault := by
  unfold recordBuckets
  rw [wp_bind]
  refine returns_onStore fun _ store₁ => ?_
  rw [wp_bind]
  refine returns_onStore fun _ store₂ => ?_
  refine wp_forM (I := Sent face w) _ _ (fun _ _ _ hw' => ?_)
    (((Sent.refl h).setStore _).setStore _)
  exact returns_onStore fun _ store => hw'.setStore store

theorem sent_forgetMetrics (hface : MetricBlind face) (h : Settled w) :
    wp forgetMetrics w (fun _ => Sent face w) anyFault := by
  unfold forgetMetrics
  rw [wp_bind, onRegistry, wp_zoom, SessionRegistry.clearLatestMetrics, wp_modify, wp_modify]
  have hlookup : ∀ id, (w.registry.sessions.mapValues
      fun s => { s with latestMetric := none }).lookup id =
      (w.registry.sessions.lookup id).map fun s => { s with latestMetric := none } :=
    fun id => Dict.lookup_mapValues _ _ id
  refine Sent.silent h ((Ahead.start face h).hidden rfl rfl rfl (fun {id s} hs => ?_)
    (Mirror.ext (funext fun id => ?_) rfl rfl)) rfl
  · have hs' := (hlookup id).symm.trans hs
    obtain ⟨t, ht, rfl⟩ := Option.map_eq_some_iff.1 hs'
    have hid := h.ids ht
    exact hid
  · show ((w.registry.sessions.mapValues fun s => { s with latestMetric := none }).lookup id).map
      face = _
    rw [hlookup, Option.map_map]
    exact congrFun (congrArg Option.map (funext fun s => hface.metric s none)) _

/-- Every section that returns hands the stream what leads from mirror to mirror. -/
theorem exec_sent (hface : MetricBlind face) {sec : CoreSection} (h : Settled w)
    (hunseen : Unseen face w sec) :
    wp (sec.exec cfg env) w (fun _ => Sent face w) anyFault := by
  have hstart := Ahead.start face h
  have hpure : ∀ {m : CoreM Unit} {rest : List CoreSection},
      wp m w (fun _ => Sent face w) anyFault →
      wp (do m; pure rest) w (fun _ => Sent face w) anyFault := fun h => (wp_bind _ _).2 h
  cases sec with
  | ingest command => exact (wp_bind _ _).2 (sent_ingest h hunseen)
  | tick => exact hpure (sent_tick h)
  | removeSession id => exact hpure (sent_removeSession h)
  | clearProcessRoot id => exact hpure (sent_clearProcessRoot h)
  | setVerifiedTerminal id terminal => exact hpure (sent_setVerifiedTerminal h)
  | heartbeat =>
    refine hpure ((wp_bind _ _).2 ?_)
    exact (hstart.pushNeutral (p := .heartbeat) trivial fun _ => rfl).flush env
  | saveSettings settings => exact hpure (sent_onStore h)
  | applySettings settings =>
    refine hpure ((wp_bind _ _).2 ?_)
    rw [wp_modify, wp_bind]
    have hahead : Ahead face [.settingsChanged settings] w
        { w with inner := { w.inner with settings := settings } } := by
      refine ⟨rfl, rfl, h.ids, hstart.upserts, ?_⟩
      have hmirror := hstart.mirror
      rw [Mirror.applyAll_nil] at hmirror
      show _ = (w.inner.coalescer.pending face (w.mirror face)).apply face
        (.settingsChanged settings)
      rw [← hmirror]
      rfl
    exact (hahead.push trivial).flush env
  | recordBuckets metrics => exact hpure (sent_recordBuckets h)
  | applyMetrics metrics now => exact hpure (sent_applyMetrics hface h)
  | readRetention => exact Sent.refl h
  | prune retentionMs => exact (wp_bind _ _).2 (sent_onStore h)
  | purgeMetricRows => exact (wp_bind _ _).2 (sent_onStore h)
  | forgetMetrics => exact hpure (sent_forgetMetrics hface h)
  | purgeEventRows => exact (wp_bind _ _).2 (sent_onStore h)
  | clearEvents => exact hpure (Sent.silent h (hstart.setRegistry rfl) rfl)

end Sections

end LlmNotch
