import LlmNotch.NativeReducer

/-!
# What the stream is for

A `Mirror` is what the renderer needs to know about the core : the sessions by their
identifier, the settings and the adapter of every source. `Mirror.apply` says what each
payload of the stream means for it. What a mirror shows of a session is the parameter `face` :
metrics change without an upsert, so a renderer shows faces that leave the last metric out
(`MetricBlind`), and `AgentSession.face` also leaves out the time of the last event.

The state of a renderer has a mirror (`NativeState.mirror`), and its reducer computes
`Mirror.apply` (`mirror_applyFrame`, `mirror_applySnapshot`).
-/

namespace LlmNotch

/-- A session up to the time of its last event and its last metric. -/
def AgentSession.face (s : AgentSession) : AgentSession :=
  { s with lastEventAtMs := 0, latestMetric := none }

/-- A face that leaves out the last metric. -/
structure MetricBlind (face : AgentSession → AgentSession) : Prop where
  id : ∀ s, (face s).id = s.id
  metric : ∀ s metric, face { s with latestMetric := metric } = face s

theorem metricBlind_face : MetricBlind AgentSession.face :=
  ⟨fun _ => rfl, fun _ _ => rfl⟩

@[ext]
structure Mirror where
  sessions : String → Option AgentSession
  settings : Option PublicSettings
  adapters : AgentSource → Option AdapterCapabilities

namespace Mirror

variable (face : AgentSession → AgentSession)

/-- Put the faces of sessions over those that are there. -/
def overlay (m : String → Option AgentSession) (sessions : List AgentSession) :
    String → Option AgentSession :=
  sessions.foldl (fun m s => Function.update m s.id (some (face s))) m

/-- The adapter of a source. -/
def adapterOf (adapters : List AdapterCapabilities) (source : AgentSource) :
    Option AdapterCapabilities :=
  adapters.find? (·.source = source)

def ofSnapshot (snapshot : AppSnapshot) : Mirror where
  sessions := overlay face (fun _ => none) snapshot.sessions
  settings := some snapshot.settings
  adapters := adapterOf snapshot.adapters

/-- What a payload means. -/
def apply (m : Mirror) : StreamPayload → Mirror
  | .snapshot snapshot => ofSnapshot face snapshot
  | .sessionUpsert session =>
    { m with sessions := Function.update m.sessions session.id (some (face session)) }
  | .sessionRemove sessionId =>
    { m with sessions := Function.update m.sessions sessionId none }
  | .settingsChanged settings => { m with settings := some settings }
  | .integrationChanged integration =>
    { m with adapters := Function.update m.adapters integration.source (some integration) }
  | .sessionEvent _ | .metrics _ | .heartbeat | .resyncRequired _ => m

def applyAll (m : Mirror) (payloads : List StreamPayload) : Mirror :=
  payloads.foldl (apply face) m

@[simp] theorem applyAll_nil (m : Mirror) : m.applyAll face [] = m :=
  rfl

@[simp] theorem applyAll_append (m : Mirror) (ps qs : List StreamPayload) :
    m.applyAll face (ps ++ qs) = (m.applyAll face ps).applyAll face qs :=
  List.foldl_append

@[simp] theorem applyAll_singleton (m : Mirror) (p : StreamPayload) :
    m.applyAll face [p] = m.apply face p :=
  rfl

/-! ## Overlays -/

variable {face}

variable {m : String → Option AgentSession} {sessions : List AgentSession}

theorem overlay_of_notMem {id : String} (h : ∀ s ∈ sessions, s.id ≠ id) :
    overlay face m sessions id = m id := by
  induction sessions generalizing m with
  | nil => rfl
  | cons s sessions ih =>
    have hne : id ≠ s.id := (h s (by simp)).symm
    show overlay face (Function.update m s.id (some (face s))) sessions id = m id
    rw [ih fun t ht => h t (List.mem_cons_of_mem s ht), Function.update_of_ne hne]

/-- In a list where the identifier determines the session, every session is shown. -/
theorem overlay_of_mem {s : AgentSession} (hs : s ∈ sessions)
    (h : ∀ t ∈ sessions, t.id = s.id → t = s) : overlay face m sessions s.id = some (face s) := by
  induction sessions generalizing m with
  | nil => cases hs
  | cons t sessions ih =>
    show overlay face (Function.update m t.id (some (face t))) sessions s.id = some (face s)
    by_cases hmem : s ∈ sessions
    · exact ih hmem fun u hu => h u (List.mem_cons_of_mem t hu)
    · have hts : s = t := (List.mem_cons.1 hs).resolve_right hmem
      subst hts
      rw [overlay_of_notMem fun u hu he => ?_, Function.update_self]
      exact hmem (h u (List.mem_cons_of_mem s hu) he ▸ hu)

/-- Upserts one after another. -/
theorem applyAll_upserts (m : Mirror) (sessions : List AgentSession) :
    m.applyAll face (sessions.map .sessionUpsert) =
      { m with sessions := overlay face m.sessions sessions } := by
  induction sessions generalizing m with
  | nil => rfl
  | cons s sessions ih => exact ih (m.apply face (.sessionUpsert s))

/-! ## Adapters -/

theorem adapterOf_append {adapters : List AdapterCapabilities} {a : AdapterCapabilities}
    (h : ∀ b ∈ adapters, b.source ≠ a.source) :
    adapterOf (adapters ++ [a]) = Function.update (adapterOf adapters) a.source (some a) := by
  funext source
  unfold adapterOf
  rw [List.find?_append]
  by_cases hs : source = a.source
  · subst hs
    have hnone : adapters.find? (·.source = a.source) = none :=
      List.find?_eq_none.2 fun b hb => by simpa using h b hb
    rw [hnone, Function.update_self]
    simp
  · rw [Function.update_of_ne hs]
    simp [Ne.symm hs]

/-- Replacing the adapters of a source, all or the first, shows the new one. -/
theorem adapterOf_cons (a : AdapterCapabilities) (adapters : List AdapterCapabilities) :
    adapterOf (a :: adapters) = Function.update (adapterOf adapters) a.source (some a) := by
  funext source
  unfold adapterOf
  by_cases hs : source = a.source
  · subst hs
    rw [Function.update_self]
    simp
  · rw [Function.update_of_ne hs, List.find?_cons_of_neg (by simpa using Ne.symm hs)]

end Mirror

/-! ## The renderer -/

namespace NativeState

def mirror (face : AgentSession → AgentSession) (st : NativeState) : Mirror where
  sessions := fun id => (st.sessions.lookup id).map face
  settings := st.settings
  adapters := Mirror.adapterOf st.adapters

variable {face : AgentSession → AgentSession}

theorem face_mergeSample (hface : MetricBlind face) (frame : MetricsFrame) (id : String)
    (s : AgentSession) : face (mergeSample frame id s) = face s := by
  unfold mergeSample
  split
  · split
    · exact hface.metric s none
    · exact hface.metric s _
  · exact hface.metric s none

/-- Storing sessions by their identifier shows them. -/
theorem lookup_indexSessions (sessions : List AgentSession) (id : String) :
    ((indexSessions sessions).1.lookup id).map face =
      Mirror.overlay face (fun _ => none) sessions id := by
  have hfold : ∀ (m : Dict String AgentSession),
      (fun id => (((sessions.map fun s => (s.id, s)).foldl
        (fun m e => m.insert e.1 e.2) m).lookup id).map face) =
      Mirror.overlay face (fun id => (m.lookup id).map face) sessions := by
    induction sessions with
    | nil => exact fun m => rfl
    | cons s sessions ih =>
      intro m
      have hinsert : (fun id => ((m.insert s.id s).lookup id).map face) =
          Function.update (fun id => (m.lookup id).map face) s.id (some (face s)) := by
        funext id
        by_cases h : id = s.id
        · subst h
          simp
        · simp [h]
      exact (ih (m.insert s.id s)).trans (by rw [hinsert]; rfl)
  exact congrFun (hfold ∅) id

theorem adapterOf_changeIntegration (adapters : List AdapterCapabilities)
    (a : AdapterCapabilities) :
    Mirror.adapterOf (changeIntegration adapters a) =
      Function.update (Mirror.adapterOf adapters) a.source (some a) := by
  unfold changeIntegration
  split
  · rename_i hany
    set replace : AdapterCapabilities → AdapterCapabilities :=
      fun b => if b.source = a.source then a else b with hreplace
    have hkeep : ∀ b, (replace b).source = b.source := by
      intro b
      simp only [hreplace]
      split
      · rename_i h
        exact h.symm
      · rfl
    funext source
    have hfind : Mirror.adapterOf (adapters.map replace) source =
        (Mirror.adapterOf adapters source).map replace := by
      have hsame : (fun b => decide ((replace b).source = source)) =
          fun b => decide (b.source = source) := by
        funext b
        rw [hkeep]
      rw [Mirror.adapterOf, Mirror.adapterOf, List.find?_map]
      exact congrArg (fun p => (adapters.find? p).map replace) hsame
    rw [hfind]
    by_cases hs : source = a.source
    · subst hs
      obtain ⟨b, hb, hsource⟩ := List.any_eq_true.1 hany
      obtain ⟨c, hc⟩ : ∃ c, adapters.find? (·.source = a.source) = some c :=
        Option.isSome_iff_exists.1 (List.find?_isSome.2 ⟨b, hb, hsource⟩)
      have hcsource : c.source = a.source := by simpa using List.find?_some hc
      rw [Mirror.adapterOf, hc, Function.update_self, Option.map_some, hreplace]
      exact congrArg some (if_pos hcsource)
    · rw [Function.update_of_ne hs]
      cases hc : Mirror.adapterOf adapters source with
      | none => rfl
      | some c =>
        have hcsource : c.source = source := by simpa using List.find?_some hc
        have hne : c.source ≠ a.source := fun h => hs (hcsource.symm.trans h)
        exact congrArg some (if_neg hne)
  · rename_i hany
    refine Mirror.adapterOf_append fun b hb he => hany ?_
    exact List.any_eq_true.2 ⟨b, hb, by simpa using he⟩

theorem mirror_upsertSession (hface : MetricBlind face) (st : NativeState)
    (session : AgentSession) : (upsertSession st session).mirror face =
      (st.mirror face).apply face (.sessionUpsert session) := by
  refine Mirror.ext (funext fun id => ?_) rfl rfl
  have hshown : face (if terminal session.status then clearLatestMetric session else session) =
      face session := by
    split
    · exact hface.metric session none
    · rfl
  by_cases h : id = session.id
  · subst h
    simp [mirror, upsertSession, Mirror.apply, hshown]
  · simp [mirror, upsertSession, Mirror.apply, h]

theorem mirror_removeSession (st : NativeState) (sessionId : String) :
    (removeSession st sessionId).mirror face =
      (st.mirror face).apply face (.sessionRemove sessionId) := by
  unfold removeSession
  split
  · refine Mirror.ext (funext fun id => ?_) rfl rfl
    by_cases h : id = sessionId
    · subst h
      simp [mirror, Mirror.apply]
    · simp [mirror, Mirror.apply, h, Dict.lookup_erase_ite]
  · rename_i hnone
    refine Mirror.ext (funext fun id => ?_) rfl rfl
    by_cases h : id = sessionId
    · subst h
      have : st.sessions.lookup id = none := by simpa using hnone
      simp [mirror, Mirror.apply, this]
    · simp [mirror, Mirror.apply, h]

theorem mirror_mergeMetricsIntoSessions (hface : MetricBlind face) (st : NativeState)
    (frame : MetricsFrame) :
    (mergeMetricsIntoSessions st frame).mirror face = st.mirror face := by
  refine Mirror.ext (funext fun id => ?_) rfl rfl
  simp [mirror, mergeMetricsIntoSessions, Dict.lookup_mapEntries, Function.comp_def,
    face_mergeSample hface]

theorem mirror_applySnapshot (st : NativeState) (snapshot : AppSnapshot) (lastSequence : ℕ)
    (events : List SessionEvent) :
    (applySnapshot st snapshot lastSequence events).mirror face =
      Mirror.ofSnapshot face snapshot :=
  Mirror.ext (funext fun id => lookup_indexSessions snapshot.sessions id) rfl rfl

/-- The reducer does what the payload of a frame means. -/
theorem mirror_applyFrame (hface : MetricBlind face) (st : NativeState) (frame : StreamFrame) :
    (applyFrame st frame).mirror face = (st.mirror face).apply face frame.payload := by
  unfold applyFrame
  cases frame.payload with
  | snapshot snapshot => exact mirror_applySnapshot st snapshot _ _
  | sessionUpsert session => exact mirror_upsertSession hface st session
  | sessionRemove sessionId => exact mirror_removeSession st sessionId
  | sessionEvent event => simp only [mirror, appendEvent, Mirror.apply]
  | metrics metrics => exact mirror_mergeMetricsIntoSessions hface st metrics
  | settingsChanged settings => rfl
  | integrationChanged integration =>
    exact Mirror.ext rfl rfl (adapterOf_changeIntegration st.adapters integration)
  | heartbeat => rfl
  | resyncRequired reason => rfl

/-- A renderer that applies frames one after another. -/
def applyFrames (st : NativeState) (frames : List StreamFrame) : NativeState :=
  frames.foldl (fun st frame => nativeReducer st (.applyFrame frame)) st

theorem mirror_applyFrames (hface : MetricBlind face) (st : NativeState)
    (frames : List StreamFrame) : (st.applyFrames frames).mirror face =
      (st.mirror face).applyAll face (frames.map (·.payload)) := by
  induction frames generalizing st with
  | nil => rfl
  | cons frame frames ih =>
    have hstep := ih (applyFrame st frame)
    rw [mirror_applyFrame hface] at hstep
    exact hstep

/-! ## The order of the sessions -/

/-- The list of identifiers and the stored sessions agree. -/
def Ordered (st : NativeState) : Prop :=
  ∀ id, id ∈ st.sessionOrder ↔ (st.sessions.lookup id).isSome = true

theorem ordered_indexSessions (sessions : List AgentSession) (id : String) :
    id ∈ (indexSessions sessions).2 ↔ ((indexSessions sessions).1.lookup id).isSome = true := by
  have hfold : ∀ m : Dict String AgentSession,
      (((sessions.map fun s => (s.id, s)).foldl (fun m e => m.insert e.1 e.2) m).lookup
        id).isSome = true ↔ id ∈ sessions.map (·.id) ∨ (m.lookup id).isSome = true := by
    induction sessions with
    | nil => simp
    | cons s sessions ih =>
      intro m
      simp only [List.map_cons, List.foldl_cons, ih, Dict.lookup_insert_ite, List.mem_cons]
      by_cases h : id = s.id
      · simp [h]
      · simp [h]
  simpa [indexSessions, fromEntries] using (hfold ∅).symm

theorem ordered_applySnapshot (st : NativeState) (snapshot : AppSnapshot) (lastSequence : ℕ)
    (events : List SessionEvent) : (applySnapshot st snapshot lastSequence events).Ordered :=
  fun id => ordered_indexSessions snapshot.sessions id

variable {st : NativeState}

theorem ordered_upsertSession (h : st.Ordered) (session : AgentSession) :
    (upsertSession st session).Ordered := by
  intro id
  simp only [upsertSession, Dict.lookup_insert_ite]
  by_cases hid : id = session.id
  · subst hid
    split
    · rename_i hsome
      simpa [h session.id] using hsome
    · simp
  · rw [if_neg hid, ← h id]
    split
    · rfl
    · simp [hid]

theorem ordered_removeSession (h : st.Ordered) (sessionId : String) :
    (removeSession st sessionId).Ordered := by
  unfold removeSession
  split
  · intro id
    simp only [List.mem_filter, h id, Dict.lookup_erase_ite]
    by_cases hid : id = sessionId
    · simp [hid]
    · simp [hid]
  · exact h

theorem ordered_applyFrame (h : st.Ordered) (frame : StreamFrame) :
    (applyFrame st frame).Ordered := by
  unfold applyFrame
  cases frame.payload with
  | snapshot snapshot => exact ordered_applySnapshot st snapshot _ _
  | sessionUpsert session => exact ordered_upsertSession h session
  | sessionRemove sessionId => exact ordered_removeSession h sessionId
  | metrics metrics =>
    intro id
    simpa [mergeMetricsIntoSessions, Dict.lookup_mapEntries] using h id
  | sessionEvent event =>
    intro id
    simpa only [appendEvent] using h id
  | settingsChanged settings => exact h
  | integrationChanged integration => exact h
  | heartbeat => exact h
  | resyncRequired reason => exact h

theorem ordered_applyFrames (h : st.Ordered) (frames : List StreamFrame) :
    (st.applyFrames frames).Ordered := by
  induction frames generalizing st with
  | nil => exact h
  | cons frame frames ih => exact ih (ordered_applyFrame h frame)

end NativeState

end LlmNotch
