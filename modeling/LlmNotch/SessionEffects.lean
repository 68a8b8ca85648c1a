import LlmNotch.SessionMoves
import LlmNotch.RegistryIndex

/-!
# What a step does to one session

The sections besides the ingests : a tick marks the sessions that are due, a metrics frame
writes every session as it is in memory, and the others remove a session, clear its process
root or leave all views alone. `exec_moves` says that a section only makes moves, and
`step_moves` the same for a step of the system, whose restarts put the rows in the place of
the sessions (`Held.sessionView_restarted`).
-/

namespace LlmNotch

/-! ## The other sections -/

section Sections

open AppCore

variable {cfg : CoreConfig} {env : Env} {w : World}

variable {sec : CoreSection} {id : String} {s : AgentSession} {w₁ : World} {frame : MetricsFrame}
  {E : Fault → World → Prop}

/-- Whatever the section does, no view changes. -/
theorem moves_of_silent {α : Type} {m : CoreM α} (hm : Silent m) :
    wp m w (fun _ w' => Moves cfg env w sec none w') (fun _ w' => Moves cfg env w sec none w') :=
  wp_mono (hm w.sessionView w rfl) (fun _ _ h => .stay h not_reports_none)
    (fun _ _ h => .stay h not_reports_none)

/-- The stored sessions have different identifiers. -/
theorem Keyed.nodup_ids {r : SessionRegistry} (hk : Keyed r) (rank : String → ℕ) :
    ((r.sessions.valuesBy rank).map (·.id)).Nodup := by
  have hkeys : r.sessions.values.map (·.id) = r.sessions.keys := by
    rw [Dict.values, List.map_map]
    exact List.map_congr_left fun e he => hk.id (AList.mem_lookup_iff.2 he)
  have hperm := (Dict.valuesBy_perm rank r.sessions).map AgentSession.id
  rw [hperm.nodup_iff, hkeys]
  exact r.sessions.keys_nodup

theorem Keyed.withSession {t : AgentSession} (hk : Keyed w.registry)
    (hs : w.registry.sessions.lookup id = some s) (ht : Succeeds s t) :
    Keyed (w.withSession id t).registry := by
  have hc : Change False False w (w.withSession id t) := .assign hs ht
  exact hk.change hc

/-! ### Metrics -/

/-- Rows were brought up to their sessions. -/
def Synced (w w' : World) : Prop :=
  ∀ id, w'.sessionView id = w.sessionView id ∨ ∃ s, (w.sessionView id).memory = some s ∧
    w'.sessionView id = { w.sessionView id with row := some s }

theorem Synced.moves {w' : World} (h : Synced w w') : Moves cfg env w sec none w' := by
  intro id
  rcases h id with hid | ⟨s, hs, hid⟩
  · rw [hid]
    exact .stays (not_reports_none id)
  · rw [hid]
    exact .saved hs

/-- Writing a session as it is in memory. -/
theorem Synced.save {w₂ : World} (h : Synced w w₁) (hs : w₁.registry.sessions.lookup id = some s)
    (hw₂ : w₂.sessionView =
      setView w₁.sessionView id { w₁.sessionView id with row := some s.standing }) :
    Synced w w₂ := by
  intro k
  rw [hw₂]
  by_cases hk : k = id
  · subst hk
    have hmemory := memory_of_lookup hs
    rw [setView, Function.update_self]
    rcases h k with hk | ⟨t, ht, hk⟩
    · rw [hk] at hmemory ⊢
      exact Or.inr ⟨_, hmemory, rfl⟩
    · rw [hk] at hmemory ⊢
      exact Or.inr ⟨_, hmemory, rfl⟩
  · rw [setView, Function.update_of_ne hk]
    exact h k

theorem synced_refreshMetric (hk : Keyed w₁.registry) (h : Synced w w₁) :
    wp (refreshMetric frame id) w₁ (fun _ w' => Keyed w'.registry ∧ Synced w w')
      (fun _ w' => Synced w w') := by
  unfold refreshMetric
  rw [wp_bind, wp_get]
  split
  · rename_i s hs
    have hs' : w₁.registry.sessions.lookup id = some s := hs
    rw [wp_bind, wp_assign_iff]
    set t : AgentSession := { s with
      latestMetric := if isTerminal s.status then none else frame.agents.lookup id } with ht
    have hsid := hk.id hs'
    have htid : t.id = id := hsid
    have hviews : (w₁.withSession id t).sessionView = w₁.sessionView :=
      sessionView_withSession_same hs' rfl
    have hkeyed : Keyed (w₁.withSession id t).registry :=
      hk.withSession hs' (.of_status rfl rfl rfl rfl rfl)
    have hsynced : Synced w (w₁.withSession id t) := fun k => by
      rw [hviews]
      exact h k
    refine wp_save_view (fun w₂ hw₂ hinner _ => ⟨?_, ?_⟩) fun _ w₂ hw₂ _ => ?_
    · rw [World.registry, hinner]
      exact hkeyed
    · rw [htid] at hw₂
      exact hsynced.save (lookup_withSession t hs') hw₂
    · intro k
      rw [hw₂]
      exact hsynced k
  · exact ⟨hk, h⟩

theorem moves_applyMetrics {now : ℤ} (hk : Keyed w.registry) :
    wp (applyMetrics env frame now) w (fun _ w' => Moves cfg env w sec none w')
      (fun _ w' => Moves cfg env w sec none w') := by
  unfold applyMetrics
  rw [wp_bind, wp_get, wp_bind]
  have hrefl : Synced w w := fun _ => Or.inl rfl
  refine wp_mono (wp_forM (I := fun w' => Keyed w'.registry ∧ Synced w w') _ _
    (fun id _ w₁ h => synced_refreshMetric h.1 h.2) ⟨hk, hrefl⟩) (fun _ w₁ h => ?_)
    fun _ _ h => h.moves
  simp only [wp_bind, wp_modify, queuePayload, flushPending]
  set w₂ : World := { w₁ with inner := { w₁.inner with latestMetrics := some frame } }
  refine Synced.moves fun id => ?_
  have hviews := congrFun
    (sessionView_evaluateHostMetrics (w := w₂) frame.host (aggregateSample frame) now) id
  rw [sessionView_flush]
  exact hviews ▸ h.2 id

/-! ### Ticks -/

/-- The sessions still to mark are as they were. -/
structure Marking (cfg : CoreConfig) (env : Env) (w : World) (rest : List String)
    (w' : World) : Prop where
  keyed : Keyed w'.registry
  nodup : rest.Nodup
  untouched : ∀ id ∈ rest, w'.sessionView id = w.sessionView id
  due : ∀ id ∈ rest, ∃ s, (w.sessionView id).memory = some s ∧ Due env.now s
  moves : Moves cfg env w .tick none w'

theorem marking_markStale {rest : List String} (h : Marking cfg env w (id :: rest) w₁) :
    wp (markStale env.now id) w₁ (fun _ w' => Marking cfg env w rest w')
      (fun _ w' => Moves cfg env w .tick none w') := by
  obtain ⟨hid, hnodup⟩ := List.nodup_cons.1 h.nodup
  have hrest : ∀ k ∈ rest, k ≠ id := by
    rintro k hk rfl
    exact hid hk
  obtain ⟨v, hv, hdue⟩ := h.due id (by simp)
  unfold markStale
  rw [wp_bind, wp_get, wp_bind, wp_expect]
  refine ⟨fun s hs => ?_, fun _ => h.moves⟩
  have hs' : w₁.registry.sessions.lookup id = some s := hs
  have hsid := h.keyed.id hs'
  have hsame := h.untouched id (by simp)
  have hstanding : s.standing = v := by
    have hmemory := memory_of_lookup hs'
    rw [hsame, hv] at hmemory
    exact (Option.some.inj hmemory).symm
  rw [wp_onlyIf]
  refine ⟨fun hvalid => ?_, fun _ => ⟨h.keyed, hnodup, fun k hk => h.untouched k (by simp [hk]),
    fun k hk => h.due k (by simp [hk]), h.moves⟩⟩
  rw [wp_bind, wp_assign_iff, wp_bind]
  set t : AgentSession :=
    { s with status := .stale, lastEventAtMs := env.now, latestMetric := none } with ht
  have htid : t.id = id := hsid
  have htstanding : t.standing = v.staled env.now := by
    rw [← hstanding]
    rfl
  have hw₂ := sessionView_withSession t hs'
  rw [hsame, htstanding] at hw₂
  refine wp_save_view (fun w₃ hw₃ hinner _ => ?_) fun _ w₃ hw₃ _ => ?_
  · rw [hw₂, htid, htstanding] at hw₃
    simp only [setView, Function.update_self, Function.update_idem] at hw₃
    rw [queuePayload, wp_modify]
    have hkeyed : Keyed (w₁.withSession id t).registry :=
      h.keyed.withSession hs' ⟨rfl, rfl, rfl, rfl, hvalid⟩
    refine ⟨?_, hnodup, fun k hk => ?_, fun k hk => h.due k (by simp [hk]), ?_⟩
    · show Keyed w₃.inner.registry
      rw [hinner]
      exact hkeyed
    · show w₃.sessionView k = _
      rw [hw₃, Function.update_of_ne (hrest k hk)]
      exact h.untouched k (by simp [hk])
    · exact h.moves.set hw₃ (.markedSaved hv hdue)
  · exact h.moves.set (hw₃.trans hw₂) (.marked hv hdue)

theorem moves_tick (hk : Keyed w.registry) :
    wp (tick env) w (fun _ w' => Moves cfg env w .tick none w')
      (fun _ w' => Moves cfg env w .tick none w') := by
  unfold tick markStaleSessions
  rw [wp_bind, wp_bind, wp_get]
  refine wp_mono (wp_forM_rest (I := Marking cfg env w) (fun id rest w₁ h => marking_markStale h)
    ⟨hk, ?_, fun _ _ => rfl, fun id hid => ?_, .stay rfl not_reports_none⟩) (fun _ w₁ h => ?_)
    fun _ _ h => h
  · exact (hk.nodup_ids env.sessionsRank).sublist (List.filter_sublist.map _)
  · obtain ⟨s, hs, rfl⟩ := List.mem_map.1 hid
    obtain ⟨hmem, hdue⟩ := List.mem_filter.1 hs
    obtain ⟨k, hlookup⟩ := Dict.mem_valuesBy.1 hmem
    rw [← hk.id hlookup] at hlookup
    refine ⟨s.standing, memory_of_lookup hlookup, ?_⟩
    simpa [Due, AgentSession.standing] using hdue
  · rw [flushPending, wp_modify]
    intro id
    rw [sessionView_flush]
    exact h.moves id

/-! ### Single sessions -/

theorem wp_storedSession_view {β : Type} {f : AgentSession → CoreM β} {Q : β → World → Prop}
    (hE : ∀ g, E g w) (hQ : ∀ s, w.registry.sessions.lookup id = some s → wp (f s) w Q E) :
    wp (storedSession id >>= f) w Q E := by
  simp only [storedSession, wp_bind, wp_get, wp_okOr]
  exact ⟨fun s hs => hQ s hs, fun _ => hE _⟩

theorem moves_removeSession :
    wp (removeSession env id) w (fun _ w' => Moves cfg env w (.removeSession id) none w')
      (fun _ w' => Moves cfg env w (.removeSession id) none w') := by
  unfold removeSession
  refine wp_check_view moves_none fun _ _ => wp_storedSession_view moves_none fun s hs => ?_
  have hmemory := memory_of_lookup hs
  rw [wp_bind]
  refine wp_dropSession_view hs (fun w₁ hw₁ => ?_) fun _ w₁ hw₁ => .stay hw₁ not_reports_none
  rw [flushPending, wp_modify]
  refine Moves.one ((sessionView_flush w₁ env).trans hw₁) (.removed ?_)
    fun k _ => not_reports_none k
  rw [hmemory]
  rfl

/-- Assigning to a session, writing and announcing it. -/
theorem wp_publish_view {t : AgentSession} {Q : Unit → World → Prop}
    (hs : w.registry.sessions.lookup id = some s) (hid : t.id = id)
    (hQ : ∀ w', w'.sessionView = setView w.sessionView id { w.sessionView id with
      memory := some t.standing, row := some t.standing } → Q () w')
    (hE : ∀ f w', w'.sessionView = setView w.sessionView id { w.sessionView id with
      memory := some t.standing } → E f w') : wp (publish env id t) w Q E := by
  have hw₁ := sessionView_withSession t hs
  unfold publish
  rw [wp_bind, wp_assign_iff, wp_bind]
  refine wp_save_view (fun w₂ hw₂ _ _ => ?_) fun f w₂ hw₂ _ => hE f w₂ (hw₂.trans hw₁)
  rw [hw₁, hid] at hw₂
  simp only [setView, Function.update_self, Function.update_idem] at hw₂
  rw [wp_bind, queuePayload, wp_modify, flushPending, wp_modify]
  exact hQ _ ((sessionView_flush _ env).trans hw₂)

theorem moves_clearProcessRoot (hk : Keyed w.registry) :
    wp (clearProcessRoot env id) w
      (fun _ w' => Moves cfg env w (.clearProcessRoot id) none w')
      (fun _ w' => Moves cfg env w (.clearProcessRoot id) none w') := by
  unfold clearProcessRoot
  refine wp_check_view moves_none fun _ _ => wp_storedSession_view moves_none fun s hs => ?_
  have hmemory := memory_of_lookup hs
  have hsid := hk.id hs
  rw [wp_onlyIf]
  refine ⟨fun _ => ?_, fun _ => .stay rfl not_reports_none⟩
  refine wp_publish_view hs hsid (fun w₁ hw₁ => ?_) fun _ w₁ hw₁ => ?_
  · exact .one hw₁ (.unrootedSaved hmemory) fun k _ => not_reports_none k
  · exact .one hw₁ (.unrooted hmemory) fun k _ => not_reports_none k

theorem moves_setVerifiedTerminal {terminal : VerifiedTerminalContext} (hk : Keyed w.registry) :
    wp (setVerifiedTerminal env id terminal) w (fun _ w' => Moves cfg env w sec none w')
      (fun _ w' => Moves cfg env w sec none w') := by
  unfold setVerifiedTerminal
  refine wp_check_view moves_none fun _ _ => wp_storedSession_view moves_none fun s hs => ?_
  have hmemory := memory_of_lookup hs
  have hsid := hk.id hs
  have hset : setView w.sessionView id { w.sessionView id with memory := some s.standing } =
      w.sessionView := by
    rw [← hmemory]
    exact Function.update_eq_self id w.sessionView
  refine wp_publish_view hs hsid (fun w₁ hw₁ => ?_) fun _ w₁ hw₁ => ?_
  · have hsaved : ({ w.sessionView id with
        memory := some s.standing, row := some s.standing } : SessionView) =
        { w.sessionView id with row := some s.standing } := by
      rw [← hmemory]
    exact .one hw₁ (hsaved ▸ .saved hmemory) fun k _ => not_reports_none k
  · exact .stay (hw₁.trans hset) not_reports_none

/-! ### Sections that no view shows -/

theorem silent_recordBuckets (frame : MetricsFrame) (now : ℤ) :
    Silent (recordBuckets frame now) := by
  have hbucket : ∀ scope id start sample,
      SilentStore (Repository.recordMetricBucket scope id start sample) := by
    intro scope id start sample
    refine silent_statement fun {db a db'} h => ?_
    unfold Repository.recordMetricBucketSql at h
    split at h
    · cases h
    · split at h
      · cases h
      · obtain ⟨-, rfl⟩ := Prod.mk.inj (Except.ok.inj h)
        rfl
  exact fun views => keeps_bind (silent_onStore (hbucket _ _ _ _) views) fun _ =>
    keeps_bind (silent_onStore (hbucket _ _ _ _) views) fun _ =>
      keeps_forM fun _ _ => silent_onStore (hbucket _ _ _ _) views

theorem standing_forgetLatestMetrics (db : Database) :
    (Repository.forgetLatestMetrics db).standing = db.standing := by
  funext id
  simp only [Database.standing, Repository.forgetLatestMetrics, List.find?_map, Option.map_map]
  rfl

theorem silent_deleteEvents {keep : Database → SessionEvent → Bool} :
    SilentStore (Repository.statement fun db =>
      let (deleted, events) := Repository.deleteWhere (keep db) db.events
      .ok (deleted, { db with events })) := by
  refine silent_statement fun {db a db'} h => ?_
  obtain ⟨-, rfl⟩ := Prod.mk.inj (Except.ok.inj h)
  rfl

theorem silent_pruneToTarget (eventsDeleted : ℕ) (sizes : List ℕ) :
    SilentStore (Repository.pruneToTarget eventsDeleted sizes) := by
  intro rows
  induction sizes generalizing eventsDeleted with
  | nil => exact keeps_pure _
  | cons bytesAfter sizes ih =>
    unfold Repository.pruneToTarget
    split
    · refine keeps_bind (silent_deleteEvents rows) fun deleted => ?_
      split
      · exact keeps_pure _
      · exact ih _
    · exact keeps_pure _

theorem silent_pruneWithMetricRetention (nowMs metricRetentionMs : ℤ) (sizes : List ℕ) :
    SilentStore (Repository.pruneWithMetricRetention nowMs metricRetentionMs sizes) := by
  intro rows
  refine keeps_bind (silent_deleteEvents rows) fun _ => keeps_bind ?_ fun _ => keeps_bind
    (keeps_onlyIf (silent_execute standing_forgetLatestMetrics rows)) fun _ =>
      keeps_bind (silent_pruneToTarget _ _ rows) fun _ => keeps_bind ?_ fun _ => keeps_pure _
  · refine silent_statement (fun {db a db'} h => ?_) rows
    obtain ⟨-, rfl⟩ := Prod.mk.inj (Except.ok.inj h)
    rfl
  · exact silent_execute (fun _ => rfl) rows

theorem silent_forgetMetrics : Silent forgetMetrics := by
  refine fun views => keeps_bind (fun w hw => ?_) fun _ => silent_modify (fun _ => rfl) views
  unfold onRegistry SessionRegistry.clearLatestMetrics
  rw [wp_zoom, wp_modify, ← hw]
  funext id
  simp only [World.sessionView, World.setRegistry, SessionRegistry.get, Dict.lookup_mapValues,
    Option.map_map]
  rfl

theorem silent_clearEvents : Silent (onRegistry SessionRegistry.clearEvents) :=
  fun _ _ hw => hw

/-! ## Sections and steps -/

/-- The result of a section, if it is an ingest that returns. -/
def CoreSection.result (cfg : CoreConfig) (env : Env) (w : World) :
    CoreSection → Option IngestResult
  | ingest command =>
    match AppCore.ingest cfg env command w with
    | .ok r _ => some r
    | .error _ _ => none
  | _ => none

theorem moves_ending {α : Type} {m : CoreM α} {more : α → List CoreSection}
    (h : wp m w (fun _ w' => Moves cfg env w sec none w')
      (fun _ w' => Moves cfg env w sec none w')) :
    wp (m >>= fun a => pure (more a)) w (fun _ w' => Moves cfg env w sec none w')
      (fun _ w' => Moves cfg env w sec none w') := by
  rw [wp_bind]
  exact wp_mono h (fun _ _ h => h) fun _ _ h => h

/-- A section moves every view, and does nothing else to it. -/
theorem exec_moves (cfg : CoreConfig) (env : Env) (sec : CoreSection) (hk : Keyed w.registry) :
    wp (sec.exec cfg env) w (fun _ w' => Moves cfg env w sec (sec.result cfg env w) w')
      (fun _ w' => Moves cfg env w sec (sec.result cfg env w) w') := by
  cases sec with
  | ingest command =>
    have h : HandlerMoves cfg env w command (AppCore.ingest cfg env command) := moves_ingest hk
    simp only [CoreSection.exec, CoreSection.result, wp_bind, wp_pure]
    unfold wp
    cases hm : AppCore.ingest cfg env command w with
    | ok r w' =>
      have hmoves := wp_ok h hm
      exact hmoves
    | error f w' =>
      have hmoves := wp_error h hm
      exact hmoves
  | tick => exact moves_ending (moves_tick hk)
  | removeSession id => exact moves_ending moves_removeSession
  | clearProcessRoot id => exact moves_ending (moves_clearProcessRoot hk)
  | setVerifiedTerminal id terminal => exact moves_ending (moves_setVerifiedTerminal hk)
  | heartbeat =>
    refine moves_ending (moves_of_silent fun views => ?_)
    exact keeps_bind (silent_queuePayload _ views) fun _ => silent_flushPending views
  | saveSettings settings =>
    exact moves_ending (moves_of_silent (silent_onStore (silent_execute fun _ => rfl)))
  | applySettings settings =>
    refine moves_ending (moves_of_silent fun views => ?_)
    exact keeps_bind (silent_modify (fun _ => rfl) views) fun _ =>
      keeps_bind (silent_queuePayload _ views) fun _ => silent_flushPending views
  | recordBuckets frame => exact moves_ending (moves_of_silent (silent_recordBuckets _ _))
  | applyMetrics frame now => exact moves_ending (moves_applyMetrics hk)
  | readRetention => exact moves_ending (moves_of_silent silent_get)
  | prune retentionMs =>
    exact moves_ending (moves_of_silent (silent_onStore (silent_pruneWithMetricRetention _ _ _)))
  | purgeMetricRows =>
    refine moves_ending (moves_of_silent (silent_onStore (silent_statement fun {db a db'} h => ?_)))
    obtain ⟨-, rfl⟩ := Prod.mk.inj (Except.ok.inj h)
    exact standing_forgetLatestMetrics _
  | forgetMetrics => exact moves_ending (moves_of_silent silent_forgetMetrics)
  | purgeEventRows =>
    refine moves_ending (moves_of_silent (silent_onStore (silent_statement fun {db a db'} h => ?_)))
    obtain ⟨-, rfl⟩ := Prod.mk.inj (Except.ok.inj h)
    rfl
  | clearEvents => exact moves_ending (moves_of_silent silent_clearEvents)

end Sections

/-- The section a step runs, and what it reads. -/
def CoreState.next (s : CoreState) : CoreAct → Option (Env × CoreSection)
  | .advance tid env =>
    match s.calls.lookup tid with
    | some (sec :: _) => some (env, sec)
    | _ => none
  | _ => none

/-- What a step can do to the view of one identifier. -/
inductive StepMove (cfg : CoreConfig) (s : CoreState) (id : String) : CoreAct → SessionView → Prop
  | idle {a : CoreAct} (hnext : s.next a = none) : StepMove cfg s id a (s.world.sessionView id)
  | moved {a : CoreAct} {env : Env} {sec : CoreSection} {v : SessionView}
      (hnext : s.next a = some (env, sec))
      (hmove : Move cfg env (s.world.entered env) id sec
        (sec.result cfg env (s.world.entered env)) v) : StepMove cfg s id a v
  | restarted {env : Env} {settings : PublicSettings} :
      StepMove cfg s id (.restart env settings)
        ⟨(s.world.sessionView id).row, (s.world.sessionView id).row, false, 0⟩

/-- Every row is the row of a session in memory. -/
structure Held (w : World) : Prop where
  keyed : Keyed w.registry
  distinct : DistinctRows w.db.sessions
  rows : ∀ id, (w.sessionView id).row.isSome = true → (w.sessionView id).memory.isSome = true

namespace Held

variable {cfg : CoreConfig} {w : World}

theorem capacity (h : Held w) : w.db.sessions.length ≤ maxSessions := by
  have hsub : w.db.sessions.map (·.id) ⊆ w.registry.sessions.keys := by
    intro id hid
    obtain ⟨row, hrow, rfl⟩ := List.mem_map.1 hid
    have hfind : (w.db.sessions.find? fun r => decide (r.id = row.id)).isSome = true :=
      List.find?_isSome.2 ⟨row, hrow, decide_eq_true rfl⟩
    have hmemory := h.rows row.id (by simpa [World.sessionView, Database.standing] using hfind)
    exact AList.lookup_isSome.1 (by simpa [World.sessionView, SessionRegistry.get] using hmemory)
  have hlen := (List.subperm_of_subset h.distinct.ids hsub).length_le
  have hkeys : w.registry.sessions.keys.length = w.registry.len := List.length_map _
  rw [List.length_map, hkeys] at hlen
  exact hlen.trans h.keyed.bounded

/-- A restart puts the rows in the place of the sessions. -/
theorem sessionView_restarted {settings : PublicSettings} {w' : World} (h : Held w)
    (hinner : w'.inner = restartedCore cfg settings w.db) (hdb : w'.db = w.db) (id : String) :
    w'.sessionView id = ⟨(w.sessionView id).row, (w.sessionView id).row, false, 0⟩ := by
  set rows := SessionRegistry.restoredSessions
    ((Repository.selectedSessions w.db).map (Repository.reload cfg)) with hrows
  have hselected : (Repository.selectedSessions w.db).Perm w.db.sessions := by
    rw [Repository.selectedSessions, List.take_of_length_le (by simpa using h.capacity)]
    exact List.perm_insertionSort _ _
  have hperm : rows.Perm (w.db.sessions.map (Repository.reload cfg)) := by
    rw [hrows, SessionRegistry.restoredSessions, List.take_of_length_le]
    · exact (List.perm_insertionSort _ _).trans (hselected.map _)
    · rw [List.length_insertionSort, List.length_map, hselected.length_eq]
      exact h.capacity
  have hids : (rows.map (·.id)).Nodup := by
    rw [(hperm.map _).nodup_iff, List.map_map]
    exact h.distinct.ids
  have hlookup : ∀ s, w'.registry.sessions.lookup id = some s ↔
      (s ∈ w.db.sessions.map (Repository.reload cfg) ∧ s.id = id) := by
    intro s
    rw [World.registry, hinner]
    show (SessionRegistry.restoredRegistry _ _).sessions.lookup id = some s ↔ _
    rw [SessionRegistry.restoredRegistry, SessionRegistry.sessions_pushAll,
      SessionRegistry.lookup_putAll_iff hids fun _ _ => rfl, hperm.mem_iff]
    exact or_iff_left fun hnew => by cases hnew
  have hmemory : (w'.registry.get id).map AgentSession.standing = w.db.standing id := by
    unfold Database.standing
    cases hfind : w.db.sessions.find? (fun row => decide (row.id = id)) with
    | some row =>
      have hid : row.id = id := by simpa using List.find?_some hfind
      have hs := (hlookup (Repository.reload cfg row)).2
        ⟨List.mem_map_of_mem (List.mem_of_find?_eq_some hfind), hid⟩
      rw [SessionRegistry.get, hs]
      rfl
    | none =>
      cases hget : w'.registry.get id with
      | none => rfl
      | some s =>
        obtain ⟨hmem, hid⟩ := (hlookup s).1 hget
        obtain ⟨row, hrow, rfl⟩ := List.mem_map.1 hmem
        exact absurd (decide_eq_true hid) (List.find?_eq_none.1 hfind row hrow)
  have halerts : w'.inner.alerts = {} := by
    rw [hinner]
    rfl
  simp only [World.sessionView, hmemory, hdb, halerts]
  rfl

end Held

section Steps

variable {cfg : CoreConfig} {s t : CoreState} {a : CoreAct}

theorem step_moves (h : Held s.world) (hstep : coreStep cfg s a = some t) (id : String) :
    StepMove cfg s id a (t.world.sessionView id) := by
  cases a with
  | call tid call =>
    simp only [coreStep] at hstep
    split at hstep
    · cases hstep
      exact .idle rfl
    · cases hstep
  | advance tid env =>
    simp only [coreStep] at hstep
    split at hstep
    · rename_i sec rest hsec
      cases hstep
      have hnext : s.next (.advance tid env) = some (env, sec) := by
        simp only [CoreState.next, hsec]
      have hwp := exec_moves cfg env sec (w := s.world.entered env) h.keyed
      refine .moved hnext ?_
      cases hexec : sec.exec cfg env (s.world.entered env) with
      | ok more w =>
        have hmoves := wp_ok hwp hexec
        exact hmoves id
      | error f w =>
        have hmoves := wp_error hwp hexec
        exact hmoves id
    · rename_i hsec
      cases hstep
      exact .idle (by simp only [CoreState.next, hsec])
    · cases hstep
  | restart env settings =>
    obtain ⟨hinner, hdb⟩ := restart_spec hstep
    rw [h.sessionView_restarted hinner hdb id]
    exact .restarted

variable {env : Env} {settings : PublicSettings}

/-- A move keeps the row under a session. -/
theorem Move.held {w : World} {id : String} {sec : CoreSection} {result : Option IngestResult}
    {v : SessionView} (h : Move cfg env w id sec result v)
    (hw : (w.sessionView id).row.isSome = true → (w.sessionView id).memory.isSome = true)
    (hv : v.row.isSome = true) : v.memory.isSome = true := by
  cases h with
  | stays => exact hw hv
  | saved hs =>
    show (w.sessionView id).memory.isSome = true
    rw [hs]
    rfl
  | unrooted => rfl
  | unrootedSaved => rfl
  | applied =>
    rw [IngestCommand.applied_memory]
    rfl
  | evicted => cases hv
  | opened => rfl
  | created => rfl
  | marked => rfl
  | markedSaved => rfl
  | removed => cases hv

theorem held_step (h : Held s.world) (hstep : coreStep cfg s a = some t) : Held t.world := by
  have hrows : ∀ id, (t.world.sessionView id).row.isSome = true →
      (t.world.sessionView id).memory.isSome = true := by
    intro id
    generalize hv : t.world.sessionView id = v
    have hmove := hv ▸ step_moves h hstep id
    cases hmove with
    | idle => exact h.rows id
    | moved hnext hmove => exact hmove.held (h.rows id)
    | restarted => exact fun hrow => hrow
  rcases step_cases False False False.elim False.elim hstep with he | ⟨settings, hinner, hdb⟩
  · exact ⟨h.keyed.evolves he, he.distinctRows h.distinct, hrows⟩
  · refine ⟨?_, hdb ▸ h.distinct, hrows⟩
    rw [World.registry, hinner]
    exact keyed_restartedCore cfg settings s.world.db

/-- A core over an empty database. -/
theorem held_start (hstart : startCore cfg env settings {} = some s) : Held s.world := by
  obtain ⟨hinner, hdb⟩ := startCore_spec hstart
  refine ⟨?_, ?_, fun id hrow => ?_⟩
  · rw [World.registry, hinner]
    exact keyed_restartedCore cfg settings {}
  · rw [hdb]
    exact ⟨List.nodup_nil, List.nodup_nil⟩
  · simp only [World.sessionView, hdb] at hrow
    cases hrow

/-- Nothing is kept about any session. -/
theorem sessionView_start (hstart : startCore cfg env settings {} = some s) (id : String) :
    s.world.sessionView id = ⟨none, none, false, 0⟩ := by
  obtain ⟨hinner, hdb⟩ := startCore_spec hstart
  simp only [World.sessionView, World.registry, hinner, hdb]
  rfl

end Steps

/-! ## Conditions on runs -/

/-- A condition on the sections a run executes and on the worlds it restarts from. -/
def StepsIf (onSection : Env → World → CoreSection → Prop) (onRestart : World → Prop)
    (s : CoreState) : CoreAct → Prop
  | .restart _ _ => onRestart s.world
  | a => ∀ env sec, s.next a = some (env, sec) → onSection env (s.world.entered env) sec

/-- A check of such a condition. -/
def stepsCheck (onSection : Env → World → CoreSection → Bool) (onRestart : World → Bool)
    (s : CoreState) : CoreAct → Bool
  | .restart _ _ => onRestart s.world
  | a => (s.next a).all fun p => onSection p.1 (s.world.entered p.1) p.2

section Conditions

variable {onSection : Env → World → CoreSection → Prop} {onRestart : World → Prop}
  {s : CoreState} {a : CoreAct}

theorem StepsIf.of_next (h : StepsIf onSection onRestart s a) {env : Env} {sec : CoreSection}
    (hnext : s.next a = some (env, sec)) : onSection env (s.world.entered env) sec := by
  cases a with
  | call tid call => cases hnext
  | advance tid env' => exact h env sec hnext
  | restart env' settings => cases hnext

variable {checkSection : Env → World → CoreSection → Bool} {checkRestart : World → Bool}

theorem stepsIf_of_check
    (hsection : ∀ {env w sec}, checkSection env w sec = true → onSection env w sec)
    (hrestart : ∀ {w}, checkRestart w = true → onRestart w)
    (h : stepsCheck checkSection checkRestart s a = true) : StepsIf onSection onRestart s a := by
  have hnext : ∀ env sec, (s.next a).all (fun p => checkSection p.1 (s.world.entered p.1) p.2) =
      true → s.next a = some (env, sec) → onSection env (s.world.entered env) sec := by
    intro env sec hall hnext
    rw [hnext] at hall
    exact hsection hall
  cases a with
  | call tid call => exact fun env sec => hnext env sec h
  | advance tid env' => exact fun env sec => hnext env sec h
  | restart env settings => exact hrestart h

/-- A run meets a condition its check is sound for. -/
theorem guarded_of_stepsCheck {cfg : CoreConfig} {acts : List CoreAct}
    (hsection : ∀ {env w sec}, checkSection env w sec = true → onSection env w sec)
    (hrestart : ∀ {w}, checkRestart w = true → onRestart w)
    (h : checkRun (coreStep cfg) (stepsCheck checkSection checkRestart) s acts = true) :
    Guarded (coreStep cfg) (StepsIf onSection onRestart) s acts :=
  Guarded.of_sound _ (fun _ _ ha => stepsIf_of_check hsection hrestart ha) h

end Conditions

/-! ## A sample -/

/-- An integration and a session that starts with the given status. -/
def sampleOpening (status : SessionStatus) : List CoreAct :=
  CoreAct.perform 0 (.ingest (.integrationHealth
      ⟨AdapterCapabilities.template .generic, true, none, 0⟩)) {} ++
    CoreAct.perform 1 (.ingest (.sessionStart
      { sampleStart .generic "e" with status := status })) { uuid := 1 }

/-- The identifier of the session. -/
def sampleId : String := sampleCoreConfig.sessionIdFor .generic "e"

end LlmNotch
