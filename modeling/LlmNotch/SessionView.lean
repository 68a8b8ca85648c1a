import LlmNotch.RestartAgreement

/-!
# What the core keeps about one session

The lifecycle of a session is a matter of five of its fields (`Standing`). For every
identifier the core keeps them twice, in memory and in the row of the database, and besides
it keeps whether the session is known to ask for attention and the alerts raised for it.
`World.sessionView` collects these under the identifier.

Most programs leave all views alone (`Silent`). The equations here say what the others do :
assigning to a stored session changes its view in memory (`sessionView_withSession`),
persisting a session changes its row or fails and changes nothing (`wp_save_view`), and deleting
it clears both.
-/

namespace LlmNotch

/-- The fields of a session its lifecycle is about. -/
structure Standing where
  status : SessionStatus
  attention : AttentionKind
  lastEventAtMs : ℤ
  endedAtMs : Option ℤ
  processRoot : Option ProcessIdentity
  deriving DecidableEq

def AgentSession.standing (s : AgentSession) : Standing :=
  ⟨s.status, s.attention, s.lastEventAtMs, s.endedAtMs, s.processRoot⟩

/-- What is kept about one identifier. -/
structure SessionView where
  memory : Option Standing
  row : Option Standing
  known : Bool
  raised : ℕ
  deriving DecidableEq

/-- The row with this identifier. -/
def Database.standing (db : Database) (id : String) : Option Standing :=
  (db.sessions.find? (·.id = id)).map AgentSession.standing

/-- The attention alerts raised for this identifier. -/
def AlertEvaluator.raised (a : AlertEvaluator) (id : String) : ℕ :=
  a.active.countP fun alert => alert.kind = .newAttention && alert.sessionId = some id

def World.sessionView (w : World) (id : String) : SessionView where
  memory := (w.registry.get id).map AgentSession.standing
  row := w.db.standing id
  known := w.inner.alerts.knownAttention.contains id
  raised := w.inner.alerts.raised id

/-- The view after a session is gone; its alerts stay. -/
def SessionView.dropped (v : SessionView) : SessionView :=
  { v with memory := none, row := none }

/-! ## Programs that leave the views alone -/

/-- However the program ends, every view is as before. -/
abbrev Silent {α : Type} (m : CoreM α) : Prop :=
  ∀ views, Keeps (fun w : World => w.sessionView = views) m

/-- However the program ends, every row is as before. -/
abbrev SilentStore {α : Type} (m : StoreM α) : Prop :=
  ∀ rows, Keeps (fun s : Store => s.db.standing = rows) m

/-- A view depends on the sessions, the rows and the alerts. -/
theorem sessionView_congr {w w' : World} (hs : w'.registry.sessions = w.registry.sessions)
    (hdb : w'.db.standing = w.db.standing) (ha : w'.inner.alerts = w.inner.alerts) :
    w'.sessionView = w.sessionView := by
  funext id
  simp only [World.sessionView, SessionRegistry.get, hs, hdb, ha]

section Silent

open AppCore Repository

variable {α : Type} {env : Env}

theorem silent_statement {sql : Database → Except String (α × Database)}
    (h : ∀ {db a db'}, sql db = .ok (a, db') → db'.standing = db.standing) :
    SilentStore (statement sql) := by
  intro rows s hs
  exact wp_statement (fun a db hdb => (h hdb).trans hs) fun _ _ => hs

theorem silent_execute {sql : Database → Database}
    (h : ∀ db, (sql db).standing = db.standing) : SilentStore (execute sql) := by
  refine silent_statement fun {db a db'} hdb => ?_
  obtain ⟨-, rfl⟩ := Prod.mk.inj (Except.ok.inj hdb)
  exact h db

theorem silent_query (sql : Database → α) : SilentStore (query sql) := by
  refine silent_statement fun {db a db'} hdb => ?_
  obtain ⟨-, rfl⟩ := Prod.mk.inj (Except.ok.inj hdb)
  rfl

theorem silent_onStore {m : StoreM α} (h : SilentStore m) : Silent (onStore m) := by
  intro views w hw
  unfold onStore
  rw [wp_zoom]
  have hviews : ∀ store : Store, store.db.standing = w.db.standing →
      (w.setStore store).sessionView = views := by
    intro store hstore
    rw [← hw]
    exact sessionView_congr rfl hstore rfl
  exact wp_mono (h w.db.standing w.store rfl) (fun _ => hviews) (fun _ => hviews)

theorem silent_get : Silent (get : CoreM World) :=
  fun _ => keeps_get

theorem silent_modify {f : World → World} (h : ∀ w, (f w).sessionView = w.sessionView) :
    Silent (modify f : CoreM Unit) :=
  fun _ => keeps_modify fun w hw => (h w).trans hw

theorem silent_queuePayload (p : StreamPayload) : Silent (queuePayload p) :=
  silent_modify fun _ => rfl

theorem sessionView_flush (w : World) (env : Env) :
    (w.flush env).sessionView = w.sessionView := by
  unfold World.flush
  split <;> rfl

theorem silent_flushPending : Silent (flushPending env) :=
  silent_modify fun w => sessionView_flush w env

theorem silent_trimSessionEvents (id : String) : SilentStore (trimSessionEvents id) := by
  refine fun rows => keeps_bind (silent_query _ rows) fun _ =>
    keeps_onlyIf (silent_execute ?_ rows)
  exact fun _ => rfl

/-- An event is no matter of its session. -/
theorem wp_appendEvent_view {id : String} {kind : SessionEventKind} {level : EventLevel}
    {summary : String} {toolName : Option String} {occurredAtMs : ℤ} {w : World}
    {views : String → SessionView} (hw : w.sessionView = views) :
    wp (appendEvent env id kind level summary toolName occurredAtMs) w
      (fun e w' => e.sessionId = id ∧ w'.sessionView = views)
      (fun _ w' => w'.sessionView = views) := by
  have hstore : ∀ e, SilentStore (Repository.appendEvent e) := by
    refine fun e rows => keeps_bind (silent_statement (fun {db a db'} h => ?_) rows)
      fun _ => silent_trimSessionEvents _ rows
    rw [(insertEventSql_ok h).1]
    rfl
  unfold AppCore.appendEvent
  rw [wp_bind, wp_get, wp_bind, onRegistry, wp_zoom, SessionRegistry.appendEvent]
  simp only [wp_bind, wp_get, wp_ensure, wp_modify, wp_check]
  refine ⟨fun _ => ⟨fun _ _ => ?_, fun _ _ => hw⟩, fun _ => hw⟩
  refine wp_mono (silent_onStore (hstore _) views _ hw) (fun _ w' hw' => ?_) fun _ _ h => h
  exact wp_mono (silent_queuePayload _ views w' hw') (fun _ _ h => ⟨rfl, h⟩) fun _ _ h => h

end Silent

/-! ## Programs that change a view -/

section Changing

open AppCore Repository

variable {w : World} {α β : Type}

/-- Change the view of one identifier. -/
abbrev setView (views : String → SessionView) (id : String) (v : SessionView) :
    String → SessionView :=
  Function.update views id v

variable {id : String} {s : AgentSession} {index : Dict String String} {a : AlertEvaluator}

theorem sessionView_withSession (t : AgentSession) (hs : w.registry.sessions.lookup id = some s) :
    (w.withSession id t).sessionView =
      setView w.sessionView id { w.sessionView id with memory := some t.standing } := by
  funext k
  have hlookup := Dict.lookup_adjust id k (fun _ => t) w.registry.sessions
  rw [hs, Option.map_some] at hlookup
  have hget : (w.withSession id t).registry.get k =
      if k = id then some t else w.registry.get k := hlookup
  by_cases hk : k = id
  · subst hk
    rw [setView, Function.update_self]
    simp only [World.sessionView, hget, if_true, Option.map_some]
    rfl
  · rw [setView, Function.update_of_ne hk]
    simp only [World.sessionView, hget, if_neg hk]
    rfl

/-- A change of other fields does not show. -/
theorem sessionView_withSession_same {t : AgentSession}
    (hs : w.registry.sessions.lookup id = some s) (ht : t.standing = s.standing) :
    (w.withSession id t).sessionView = w.sessionView := by
  have hmemory : (w.sessionView id).memory = some s.standing := by
    simp only [World.sessionView, SessionRegistry.get, hs, Option.map_some]
  rw [sessionView_withSession t hs, ht, ← hmemory]
  exact Function.update_eq_self id w.sessionView

/-- The row of a session after it is written. -/
theorem standing_upsert {db db' : Database} {u : Unit} (h : upsertSessionSql s db = .ok (u, db'))
    (id : String) : db'.standing id = if id = s.id then some s.standing else db.standing id := by
  rw [(upsertSessionSql_ok h).1]
  have hmerge : ∀ y x, (mergeSession y x).id = y.id := fun _ _ => rfl
  simp only [Database.standing]
  rw [find?_upsertRow hmerge]
  split
  · cases db.sessions.find? (fun row => decide (row.id = id)) <;> rfl
  · rfl

/-- Whether the next statement, if it writes this session, succeeds. -/
def World.writes (w : World) (s : AgentSession) : Bool :=
  !w.store.faults.headD false && (upsertSessionSql s w.db).isOk

/-- Writing a session changes its row, or fails and changes nothing. -/
theorem wp_save_view {Q : Unit → World → Prop} {E : Fault → World → Prop}
    (hQ : ∀ w', w'.sessionView =
      setView w.sessionView s.id { w.sessionView s.id with row := some s.standing } →
      w'.inner = w.inner → w.writes s = true → Q () w')
    (hE : ∀ f w', w'.sessionView = w.sessionView → w.writes s = false → E f w') :
    wp (onStore (upsertSession s)) w Q E := by
  unfold onStore upsertSession
  rw [wp_zoom]
  unfold wp statement
  by_cases hf : w.store.faults.headD false = true
  · simp only [if_pos hf]
    refine hE _ _ rfl ?_
    rw [World.writes, hf]
    rfl
  · simp only [if_neg hf]
    cases hsql : upsertSessionSql s w.store.db with
    | error detail =>
      refine hE _ _ rfl ?_
      rw [World.writes, World.db, hsql]
      exact Bool.and_false _
    | ok p =>
      refine hQ _ (funext fun k => ?_) rfl ?_
      · have hrow := standing_upsert hsql k
        by_cases hk : k = s.id
        · subst hk
          rw [if_pos rfl] at hrow
          rw [setView, Function.update_self]
          simp only [World.sessionView, World.setStore, World.db, hrow]
        · rw [if_neg hk] at hrow
          rw [setView, Function.update_of_ne hk]
          simp only [World.sessionView, World.setStore, World.db, hrow]
      · rw [World.writes, World.db, hsql, Bool.eq_false_of_not_eq_true hf]
        rfl

/-- Whether a session can be written depends on what identifies it. -/
theorem writes_congr {t : AgentSession} (h : t.identity = s.identity) {w' : World}
    (hstore : w'.store = w.store) : w'.writes t = w.writes s := by
  obtain ⟨hid, hkey⟩ := Prod.mk.inj h
  obtain ⟨hsource, hext⟩ := Prod.mk.inj hkey
  simp only [World.writes, World.db, hstore, upsertSessionSql, hid, hsource, hext]
  split <;> rfl

/-- Deleting a session clears its view, but for the alerts. -/
theorem sessionView_drop {events : Dict String (List SessionEvent)} {faults : List Bool} :
    ((w.setStore ⟨withoutSession id w.db, faults⟩).setRegistry { w.registry with
      sessions := w.registry.sessions.erase id
      externalIndex := index
      events := events }).sessionView =
      setView w.sessionView id (w.sessionView id).dropped := by
  funext k
  have hget := Dict.lookup_erase_ite id k w.registry.sessions
  have hrow : (withoutSession id w.db).standing k =
      if k = id then none else w.db.standing k := by
    simp only [Database.standing, withoutSession, List.find?_filter]
    split
    · rename_i hk
      subst hk
      simp
    · rename_i hk
      congr 2
      funext row
      by_cases hid : row.id = k
      · simp [hid, hk]
      · simp [hid]
  by_cases hk : k = id
  · subst hk
    rw [setView, Function.update_self]
    simp only [World.sessionView, World.setRegistry, World.setStore, SessionRegistry.get, hget,
      hrow, if_true, Option.map_none]
    rfl
  · rw [setView, Function.update_of_ne hk]
    simp only [World.sessionView, World.setRegistry, World.setStore, SessionRegistry.get, hget,
      hrow, if_neg hk]

/-- Inserting a session sets its view in memory. -/
theorem sessionView_insert :
    (w.setRegistry { w.registry with
      externalIndex := index
      sessions := w.registry.sessions.insert s.id s }).sessionView =
      setView w.sessionView s.id { w.sessionView s.id with memory := some s.standing } := by
  funext k
  have hget := Dict.lookup_insert_ite s.id k s w.registry.sessions
  by_cases hk : k = s.id
  · subst hk
    rw [setView, Function.update_self]
    simp only [World.sessionView, World.setRegistry, SessionRegistry.get, hget, if_true,
      Option.map_some]
  · rw [setView, Function.update_of_ne hk]
    simp only [World.sessionView, World.setRegistry, SessionRegistry.get, hget, if_neg hk]

/-! ### Alerts -/

/-- The view after a session asked for attention. -/
def SessionView.asked (v : SessionView) (attention : AttentionKind) : SessionView :=
  if attention = .none then { v with known := false }
  else if v.known then v
  else { v with known := true, raised := v.raised + 1 }

/-- The view after its attention was acknowledged. -/
def SessionView.acknowledged (v : SessionView) : SessionView :=
  { v with known := false, raised := 0 }

/-- The views after a change of the alerts that concerns one identifier. -/
theorem sessionView_setAlerts {alerts : AlertEvaluator} {v : SessionView}
    (hmemory : v.memory = (w.sessionView id).memory) (hrow : v.row = (w.sessionView id).row)
    (hknown : v.known = alerts.knownAttention.contains id) (hraised : v.raised = alerts.raised id)
    (hknown' : ∀ k, k ≠ id →
      alerts.knownAttention.contains k = w.inner.alerts.knownAttention.contains k)
    (hraised' : ∀ k, k ≠ id → alerts.raised k = w.inner.alerts.raised k) :
    (w.setAlerts alerts).sessionView = setView w.sessionView id v := by
  funext k
  by_cases hk : k = id
  · subst hk
    rw [setView, Function.update_self]
    obtain ⟨memory, row, known, raised⟩ := v
    simp only at hmemory hrow hknown hraised
    simp only [World.sessionView, World.setAlerts, hmemory, hrow, hknown, hraised]
  · rw [setView, Function.update_of_ne hk]
    simp only [World.sessionView, World.setAlerts, hknown' k hk, hraised' k hk]

theorem contains_filter_ne (ids : List String) (id k : String) :
    (ids.filter (· ≠ id)).contains k = (decide (k ≠ id) && ids.contains k) := by
  rw [Bool.eq_iff_iff]
  simp [and_comm]

theorem sessionView_evaluateAttention (id : String) (attention : AttentionKind) (now : ℤ) :
    (w.setAlerts (w.inner.alerts.evaluateAttention id attention now)).sessionView =
      setView w.sessionView id ((w.sessionView id).asked attention) := by
  unfold SessionView.asked AlertEvaluator.evaluateAttention
  by_cases hnone : attention = .none
  · rw [if_pos hnone, if_pos hnone]
    refine sessionView_setAlerts rfl rfl ?_ rfl (fun k hk => ?_) fun _ _ => rfl
    · rw [contains_filter_ne]
      simp
    · rw [contains_filter_ne]
      simp [hk]
  · rw [if_neg hnone, if_neg hnone]
    have hknown : (w.sessionView id).known = w.inner.alerts.knownAttention.contains id := rfl
    by_cases hk : w.inner.alerts.knownAttention.contains id = true
    · rw [hknown, if_pos hk, if_pos hk]
      exact sessionView_setAlerts rfl rfl rfl rfl (fun _ _ => rfl) fun _ _ => rfl
    · rw [hknown, if_neg hk, if_neg hk]
      refine sessionView_setAlerts rfl rfl ?_ ?_ (fun k hk => ?_) fun k hk => ?_
      · simp
      · simp [AlertEvaluator.raised, World.sessionView]
      · simp [hk]
      · simp [AlertEvaluator.raised, Ne.symm hk]

theorem sessionView_clearLocalAcknowledgement (id : String) :
    (w.setAlerts (w.inner.alerts.clearLocalAcknowledgement id)).sessionView =
      setView w.sessionView id (w.sessionView id).acknowledged := by
  unfold SessionView.acknowledged AlertEvaluator.clearLocalAcknowledgement
  refine sessionView_setAlerts rfl rfl ?_ ?_ (fun k hk => ?_) fun k hk => ?_
  · rw [contains_filter_ne]
    simp
  · refine (List.countP_eq_zero.2 fun alert halert => ?_).symm
    have hid := (List.mem_filter.1 halert).2
    simp_all
  · rw [contains_filter_ne]
    simp [hk]
  · simp only [AlertEvaluator.raised, List.countP_filter]
    refine List.countP_congr fun alert _ => ?_
    by_cases hid : alert.sessionId = some k
    · simp [hid, hk]
    · simp [hid]

/-- An alert about the host is none about a session. -/
theorem raised_upsertGlobalAlert {alert : ActiveAlert} (h : alert.kind ≠ .newAttention)
    (id : String) : (a.upsertGlobalAlert alert).raised id = a.raised id := by
  unfold AlertEvaluator.upsertGlobalAlert AlertEvaluator.raised
  split
  · rename_i i hi
    obtain ⟨hlt, hmatch, -⟩ := List.findIdx?_eq_some_iff_getElem.1 hi
    have hkind : a.active[i].kind = alert.kind := by simpa using (of_decide_eq_true hmatch).1
    rw [List.countP_set hlt]
    simp [hkind, h]
  · simp [h]

/-- A change of the host's alerts leaves the attention alerts. -/
structure SameAttention (a b : AlertEvaluator) : Prop where
  known : b.knownAttention = a.knownAttention
  raised : ∀ id, b.raised id = a.raised id

theorem SameAttention.trans {b c : AlertEvaluator} (hab : SameAttention a b)
    (hbc : SameAttention b c) : SameAttention a c :=
  ⟨hbc.known.trans hab.known, fun id => (hbc.raised id).trans (hab.raised id)⟩

theorem sameAttention_upsertGlobalAlert {b : AlertEvaluator} {alert : ActiveAlert}
    (h : alert.kind ≠ .newAttention) (hab : SameAttention a b) :
    SameAttention a (b.upsertGlobalAlert alert) := by
  refine hab.trans ⟨?_, raised_upsertGlobalAlert h⟩
  unfold AlertEvaluator.upsertGlobalAlert
  split <;> rfl

theorem sameAttention_evaluateHostMetrics (a : AlertEvaluator) (host : HostMetricSample)
    (aggregate : MetricSample) (now : ℤ) :
    SameAttention a (a.evaluateHostMetrics host aggregate now).1 := by
  have hcpu : SameAttention a (a.evaluateCpu host now).1 := by
    unfold AlertEvaluator.evaluateCpu
    dsimp only
    split
    · exact sameAttention_upsertGlobalAlert (by simp) ⟨rfl, fun _ => rfl⟩
    · split
      · exact sameAttention_upsertGlobalAlert (by simp) ⟨rfl, fun _ => rfl⟩
      · exact ⟨rfl, fun _ => rfl⟩
  refine hcpu.trans ?_
  unfold AlertEvaluator.evaluateHostMetrics AlertEvaluator.evaluateRss
  dsimp only
  split
  · exact sameAttention_upsertGlobalAlert (by simp) ⟨rfl, fun _ => rfl⟩
  · exact ⟨rfl, fun _ => rfl⟩

theorem sessionView_evaluateHostMetrics (host : HostMetricSample) (aggregate : MetricSample)
    (now : ℤ) : (w.setAlerts (w.inner.alerts.evaluateHostMetrics host aggregate now).1).sessionView =
      w.sessionView := by
  have h := sameAttention_evaluateHostMetrics w.inner.alerts host aggregate now
  funext id
  simp only [World.sessionView, World.setAlerts, h.known, h.raised id]

end Changing

end LlmNotch
