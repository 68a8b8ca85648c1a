import LlmNotch.StartOutcomes
import LlmNotch.SessionMoves
import LlmNotch.UniformState

/-!
# The capacity of the core

A core that is full makes room for a new session by dropping one that ended. `Cedes` says what a
start does to the other sessions, however it ends : the one that gives way is gone from memory
and from the store, and what is kept of the others stays.

`capacity_run` : in every reachable state the core holds no more sessions than it may, and a
start drops no session but one that ended first (`GivesWay`). A start that fails for want of room
found only live sessions and changed nothing but the keys of starts seen before (`Untouched`).
`session_capacity` says of it which sessions a start removes.
-/

namespace LlmNotch

open AppCore

/-! ## Holdings -/

/-- What is kept of one session, in memory and in its row. -/
structure Holding where
  session : Option AgentSession
  events : List SessionEvent
  row : Option AgentSession

def World.holding (w : World) (id : String) : Holding where
  session := w.registry.get id
  events := w.registry.eventsFor id
  row := w.db.sessions.find? (·.id = id)

def Holding.nothing : Holding := ⟨none, [], none⟩

/-- Nothing changed but what is kept of session `id`, which is not removed. -/
structure Local (id : String) (w w' : World) : Prop where
  holding : ∀ k, k ≠ id → w'.holding k = w.holding k
  eventRows : ∀ e ∈ w'.db.events, e.sessionId ≠ id → e ∈ w.db.events
  stays : (w.registry.get id).isSome → (w'.registry.get id).isSome

theorem holding_congr (w w' : World) {k : String}
    (hsession : w'.registry.sessions.lookup k = w.registry.sessions.lookup k)
    (hevents : w'.registry.eventsFor k = w.registry.eventsFor k)
    (hrow : w'.db.sessions.find? (·.id = k) = w.db.sessions.find? (·.id = k)) :
    w'.holding k = w.holding k := by
  unfold World.holding SessionRegistry.get
  rw [hsession, hevents, hrow]

theorem isSome_of_holding {w w' : World} {k : String} (h : w'.holding k = w.holding k)
    (hw : (w.registry.get k).isSome) : (w'.registry.get k).isSome :=
  (congrArg (·.session.isSome) h).trans hw

section Locals

variable {w₀ w : World} {id : String} {env : Env}

theorem Untouched.local {w' : World} (h : Untouched w w') (id : String) : Local id w w' := by
  refine ⟨fun k _ => ?_, fun e he _ => h.eventRows ▸ he, fun hw => ?_⟩
  swap
  · rwa [SessionRegistry.get, h.sessions]
  refine holding_congr w w' (by rw [h.sessions]) ?_ (by rw [h.rows])
  unfold SessionRegistry.eventsFor
  rw [h.events]

theorem Local.setStore {store : Store} (h : Local id w₀ w)
    (hrow : ∀ k, k ≠ id →
      store.db.sessions.find? (·.id = k) = w.db.sessions.find? (·.id = k))
    (hevents : ∀ e ∈ store.db.events, e.sessionId ≠ id → e ∈ w.db.events) :
    Local id w₀ (w.setStore store) where
  holding k hk := (holding_congr w (w.setStore store) rfl rfl (hrow k hk)).trans (h.holding k hk)
  eventRows e he hid := h.eventRows e (hevents e he hid) hid
  stays := h.stays

theorem Local.setRegistry {r : SessionRegistry} (h : Local id w₀ w)
    (hsession : ∀ k, k ≠ id → r.sessions.lookup k = w.registry.sessions.lookup k)
    (hevents : ∀ k, k ≠ id → r.eventsFor k = w.registry.eventsFor k)
    (hstays : (w.registry.get id).isSome → (r.get id).isSome) :
    Local id w₀ (w.setRegistry r) where
  holding k hk :=
    (holding_congr w (w.setRegistry r) (hsession k hk) (hevents k hk) rfl).trans (h.holding k hk)
  eventRows := h.eventRows
  stays hw := hstays (h.stays hw)

theorem local_upsert {s : AgentSession} (hs : s.id = id) :
    Keeps (Local id w₀) (onStore (Repository.upsertSession s)) := by
  intro w h
  unfold onStore Repository.upsertSession
  rw [wp_zoom]
  refine Repository.wp_statement (fun _ db hdb => ?_) fun _ _ => ⟨h.holding, h.eventRows, h.stays⟩
  obtain ⟨hdb, -⟩ := Repository.upsertSessionSql_ok hdb
  have hmerge : ∀ y x, (Repository.mergeSession y x).id = y.id := fun _ _ => rfl
  refine h.setStore (fun k hk => ?_) fun e he _ => ?_
  · dsimp only
    rw [hdb, find?_upsertRow hmerge, if_neg fun heq => hk (heq.trans hs)]
  · rw [hdb] at he
    exact he

theorem local_trim (id : String) (s₀ : Store) :
    Keeps (fun s : Store => s.db.sessions = s₀.db.sessions ∧
      ∀ e ∈ s.db.events, e.sessionId ≠ id → e ∈ s₀.db.events)
      (Repository.trimSessionEvents id) := by
  refine keeps_bind ?_ fun count => keeps_onlyIf ?_
  · intro s h
    refine Repository.wp_statement (fun _ db hdb => ?_) fun _ _ => h
    obtain ⟨-, rfl⟩ := Prod.mk.inj (Except.ok.inj hdb)
    exact h
  · intro s h
    refine Repository.wp_statement (fun _ db hdb => ?_) fun _ _ => h
    obtain ⟨-, rfl⟩ := Prod.mk.inj (Except.ok.inj hdb)
    exact ⟨h.1, fun e he => h.2 e (List.mem_of_mem_filter he)⟩

/-- An append that is refused leaves no more than an empty entry. -/
theorem wp_appendEvent_registry {r : SessionRegistry} {e : SessionEvent}
    {Q : Unit → SessionRegistry → Prop} {E : Fault → SessionRegistry → Prop}
    (hQ : Q () (r.pushEvent e))
    (hE : ∀ f r', r'.sessions = r.sessions →
      (∀ k, k ≠ e.sessionId → r'.eventsFor k = r.eventsFor k) → E f r') :
    wp (SessionRegistry.appendEvent e) r Q E := by
  unfold SessionRegistry.appendEvent
  simp only [wp_bind, wp_get, wp_ensure, wp_modify, wp_check, SessionRegistry.pushEvent_default]
  refine ⟨fun _ => ⟨fun _ _ => hQ, fun _ _ => hE _ _ rfl fun k hk => ?_⟩,
    fun _ => hE _ r rfl fun _ _ => rfl⟩
  unfold SessionRegistry.eventsFor
  dsimp only
  rw [Dict.lookup_insert_ite, if_neg hk]

theorem local_appendEvent {kind : SessionEventKind} {level : EventLevel} {summary : String}
    {toolName : Option String} {occurredAtMs : ℤ} :
    Keeps (Local id w₀) (appendEvent env id kind level summary toolName occurredAtMs) := by
  intro w h
  unfold appendEvent
  rw [wp_bind, wp_get, wp_bind, onRegistry, wp_zoom]
  refine wp_appendEvent_registry ?_ fun _ r hs he =>
    h.setRegistry (fun k _ => by rw [hs]) he fun hw => by rwa [SessionRegistry.get, hs]
  generalize he : SessionEvent.mk _ id _ _ _ _ _ _ = e
  have hid : e.sessionId = id := by rw [← he]
  have hpushed : Local id w₀ (w.setRegistry (w.registry.pushEvent e)) := by
    refine h.setRegistry (fun k _ => rfl) (fun k hk => ?_) fun hw => hw
    rw [SessionRegistry.eventsFor_pushEvent, if_neg fun heq => hk (heq.trans hid)]
  rw [wp_bind, onStore, wp_zoom, Repository.appendEvent, wp_bind]
  refine Repository.wp_statement (fun _ db hdb => ?_) fun _ _ =>
    ⟨hpushed.holding, hpushed.eventRows, hpushed.stays⟩
  obtain ⟨hdb, -⟩ := Repository.insertEventSql_ok hdb
  have hstore : ∀ store : Store, store.db.sessions = db.sessions →
      (∀ e ∈ store.db.events, e.sessionId ≠ id → e ∈ db.events) →
      Local id w₀ ((w.setRegistry (w.registry.pushEvent e)).setStore store) := by
    intro store hrows hevents
    refine hpushed.setStore (fun k _ => by rw [hrows, hdb]) fun e' he' hne => ?_
    have hmem := hevents e' he' hne
    rw [hdb] at hmem
    refine (List.mem_append.1 hmem).resolve_right fun hlast => hne ?_
    rw [List.mem_singleton.1 hlast, hid]
  rw [hid]
  refine wp_mono (local_trim id ⟨db, w.store.faults.tail⟩ _ ⟨rfl, fun _ he _ => he⟩)
    (fun _ store hs => ?_) fun _ store hs => hstore store hs.1 hs.2
  have hlocal := hstore store hs.1 hs.2
  exact ⟨hlocal.holding, hlocal.eventRows, hlocal.stays⟩

theorem local_openSession {cmd : SessionStartCommand} {s : AgentSession} (hs : s.id = id) :
    Keeps (Local id w₀) (openSession env cmd s) := by
  refine keeps_bind (local_upsert hs) fun _ => ?_
  refine keeps_bind (hs ▸ local_appendEvent) fun event => ?_
  refine keeps_bind ?_ fun _ => ?_
  · intro w h
    rw [onRegistry, wp_zoom, SessionRegistry.upsertSession, wp_bind, wp_check, wp_modify]
    refine ⟨fun _ _ => h.setRegistry (fun k hk => ?_) (fun k _ => rfl) fun _ => ?_, fun _ _ => h⟩
    · show (w.registry.sessions.insert s.id _).lookup k = _
      rw [Dict.lookup_insert_ite, if_neg fun heq => hk (heq.trans hs)]
    · show ((w.registry.sessions.insert s.id _).lookup id).isSome
      rw [Dict.lookup_insert_ite, if_pos hs.symm]
      rfl
  · refine keeps_bind (local_upsert hs) fun _ => ?_
    exact keeps_bind (fun w h => ⟨h.holding, h.eventRows, h.stays⟩) fun _ => keeps_pure _

end Locals

/-! ## The session that gives way -/

/-- When a session was left. -/
def AgentSession.leftAtMs (s : AgentSession) : ℤ :=
  s.endedAtMs.getD s.lastEventAtMs

/-- The core is full, and session `id` is one of those that were left first. -/
structure GivesWay (r : SessionRegistry) (id : String) : Prop where
  full : r.len = maxSessions
  first : ∃ s, r.sessions.lookup id = some s ∧ isTerminal s.status = true ∧
    ∀ k t, r.sessions.lookup k = some t → isTerminal t.status = true → s.leftAtMs ≤ t.leftAtMs

/-- The core is full of live sessions. -/
structure Packed (r : SessionRegistry) : Prop where
  full : r.len = maxSessions
  live : ∀ k t, r.sessions.lookup k = some t → isTerminal t.status = false

section Candidates

variable {r : SessionRegistry} {rank : String → ℕ} {id : String}

theorem mem_terminal {s : AgentSession} :
    s ∈ (r.sessions.valuesBy rank).filter (fun s => isTerminal s.status) ↔
      (∃ k, r.sessions.lookup k = some s) ∧ isTerminal s.status = true := by
  rw [List.mem_filter, Dict.mem_valuesBy]

theorem givesWay_of_candidate (hk : Keyed r)
    (h : r.capacityEvictionCandidate rank = .ok (some id)) : GivesWay r id := by
  refine ⟨hk.bounded.antisymm (lookup_candidate hk h).2, ?_⟩
  unfold SessionRegistry.capacityEvictionCandidate at h
  split at h
  · cases h
  · split at h
    · next oldest holdest =>
      obtain rfl : oldest = id := by simpa using h
      obtain ⟨s, hs, rfl⟩ := Option.map_eq_some_iff.1 holdest
      obtain ⟨⟨k, hlookup⟩, hterminal⟩ := mem_terminal.1 (List.argmin_mem hs)
      refine ⟨s, by rwa [hk.id hlookup], hterminal, fun k t ht hended => ?_⟩
      exact List.le_of_mem_argmin (mem_terminal.2 ⟨⟨k, ht⟩, hended⟩) hs
    · cases h

theorem candidate_error_iff (hk : Keyed r) {e : CoreError} :
    r.capacityEvictionCandidate rank = .error e ↔
      e = .sessionCapacity maxSessions ∧ Packed r := by
  have hnone : r.oldestTerminalSessionId rank = none ↔
      ∀ k t, r.sessions.lookup k = some t → isTerminal t.status = false := by
    unfold SessionRegistry.oldestTerminalSessionId minByKey
    rw [Option.map_eq_none_iff, List.argmin_eq_none, List.eq_nil_iff_forall_not_mem]
    refine ⟨fun h k t ht => ?_, fun h s hs => ?_⟩
    · rw [← Bool.not_eq_true]
      exact fun hterminal => h t (mem_terminal.2 ⟨⟨k, ht⟩, hterminal⟩)
    · obtain ⟨⟨k, hlookup⟩, hterminal⟩ := mem_terminal.1 hs
      rw [h k s hlookup] at hterminal
      cases hterminal
  unfold SessionRegistry.capacityEvictionCandidate
  split
  · next hroom => exact iff_of_false nofun fun h => hroom.ne h.2.full
  · next hfull =>
    have hlen := hk.bounded.antisymm (not_lt.1 hfull)
    cases hold : r.oldestTerminalSessionId rank with
    | some oldest =>
      refine iff_of_false nofun fun h => ?_
      rw [hnone.2 h.2.live] at hold
      cases hold
    | none =>
      refine ⟨fun h => ⟨(Except.error.inj h).symm, hlen, hnone.1 hold⟩, fun h => ?_⟩
      rw [h.1]

end Candidates

/-- What a start leaves of the other sessions, if `gone` gave way. -/
structure Cedes (gone : Option String) (id : String) (w w' : World) : Prop where
  givesWay : ∀ k ∈ gone, GivesWay w.registry k
  dropped : ∀ k ∈ gone, k ≠ id →
    w'.holding k = .nothing ∧ ∀ e ∈ w'.db.events, e.sessionId ≠ k
  others : ∀ k, k ≠ id → k ∉ gone → w'.holding k = w.holding k
  stays : id ∉ gone → (w.registry.get id).isSome → (w'.registry.get id).isSome

section Starts

variable {w w₁ w₂ : World} {cfg : CoreConfig} {env : Env} {id : String} {gone : Option String}

theorem Local.cedes (h : Local id w w₁) : Cedes none id w w₁ :=
  ⟨nofun, nofun, fun k hk _ => h.holding k hk, fun _ => h.stays⟩

theorem Cedes.local (h : Cedes gone id w w₁) (hlocal : Local id w₁ w₂) : Cedes gone id w w₂ where
  givesWay := h.givesWay
  dropped k hk hid := by
    obtain ⟨hnothing, hevents⟩ := h.dropped k hk hid
    refine ⟨(hlocal.holding k hid).trans hnothing, fun e he hsession => ?_⟩
    exact hevents e (hlocal.eventRows e he fun heq => hid (hsession.symm.trans heq)) hsession
  others k hid hk := (hlocal.holding k hid).trans (h.others k hid hk)
  stays hid hw := hlocal.stays (h.stays hid hw)

theorem find?_withoutSession (db : Database) (id k : String) :
    (Repository.withoutSession id db).sessions.find? (·.id = k) =
      if k = id then none else db.sessions.find? (·.id = k) := by
  unfold Repository.withoutSession
  dsimp only
  rw [List.find?_filter]
  split_ifs with hk
  · refine List.find?_eq_none.2 fun row _ => ?_
    simp [hk]
  · congr 1
    funext row
    by_cases hid : row.id = k
    · simp [hid, hk]
    · simp [hid]

/-- Dropping a session leaves nothing of it, unless the repository fails. -/
theorem wp_dropSession_holding {k : String} {s : AgentSession}
    (hs : w.registry.sessions.lookup k = some s) :
    wp (dropSession k) w
      (fun _ w' => (∀ j, w'.holding j = if j = k then .nothing else w.holding j) ∧
        ∀ e ∈ w'.db.events, e.sessionId ≠ k)
      (fun f w' => w'.holding = w.holding ∧ ∃ detail, f = .other detail) := by
  unfold dropSession
  rw [wp_bind, onStore, wp_zoom, Repository.removeSession]
  refine Repository.wp_statement (fun _ db hdb => ?_) fun detail _ => ⟨rfl, detail, rfl⟩
  obtain ⟨-, rfl⟩ := Prod.mk.inj (Except.ok.inj hdb)
  rw [wp_bind, onRegistry, wp_zoom, SessionRegistry.removeSession]
  simp only [wp_bind, wp_get, wp_okOr, wp_modify]
  refine ⟨fun t _ => ⟨fun j => ?_, fun e he => ?_⟩, fun hnone => ?_⟩
  · have hrow := find?_withoutSession w.db k j
    have hsession := Dict.lookup_erase_ite k j w.registry.sessions
    have hevents := Dict.lookup_erase_ite k j w.registry.events
    by_cases hj : j = k
    · rw [if_pos hj] at hrow hsession hevents ⊢
      exact congr (congr (congrArg Holding.mk hsession) (congrArg (Option.getD · []) hevents)) hrow
    · rw [if_neg hj] at hrow hsession hevents ⊢
      exact holding_congr w _ hsession (congrArg (Option.getD · []) hevents) hrow
  · simpa using (List.mem_filter.1 he).2
  · have hnone' : w.registry.sessions.lookup k = none := hnone
    rw [hs] at hnone'
    cases hnone'

/-- Making room fails if no session ended. -/
theorem wp_evict_cedes (id : String) (env : Env) (hk : Keyed w.registry) (h : Untouched w w₁) :
    wp (evict env) w₁
      (fun _ w' => (∃ gone, Cedes gone id w w') ∧ ¬ Packed w.registry)
      (fun f w' => (∃ gone, Cedes gone id w w') ∧
        (f = .err (.sessionCapacity maxSessions) ∧ Packed w.registry ∨
          ∃ detail, f = .other detail)) := by
  have hstay : ∃ gone, Cedes gone id w w₁ := ⟨none, (h.local id).cedes⟩
  have hcandidate := capacityEvictionCandidate_congr env.sessionsRank h.sessions
  unfold evict
  simp only [wp_bind, wp_get, wp_check]
  refine ⟨fun candidate hc => ?_, fun e he => ?_⟩
  · have hc' : w.registry.capacityEvictionCandidate env.sessionsRank = .ok candidate :=
      hcandidate.symm.trans hc
    have hroom : ¬ Packed w.registry := by
      intro hpacked
      have herror : w.registry.capacityEvictionCandidate env.sessionsRank =
          .error (.sessionCapacity maxSessions) := (candidate_error_iff hk).2 ⟨rfl, hpacked⟩
      rw [hc'] at herror
      cases herror
    cases candidate with
    | none => exact ⟨hstay, hroom⟩
    | some evictedId =>
      obtain ⟨s, hs, -⟩ := lookup_of_candidate hk hc'
      rw [← h.sessions] at hs
      have hheld : ∀ j, w₁.holding j = w.holding j := fun j => by
        refine holding_congr w w₁ (by rw [h.sessions]) ?_ (by rw [h.rows])
        unfold SessionRegistry.eventsFor
        rw [h.events]
      refine wp_mono (wp_dropSession_holding hs) (fun _ w' hw' => ?_) fun f w' hf => ?_
      · have hothers : ∀ j, j ∉ some evictedId → w'.holding j = w.holding j := by
          intro j hj
          refine (hw'.1 j).trans ((if_neg ?_).trans (hheld j))
          exact fun heq => hj (heq ▸ rfl)
        refine ⟨⟨some evictedId, ?_, ?_, fun j _ => hothers j, ?_⟩, hroom⟩
        · rintro k ⟨⟩
          exact givesWay_of_candidate hk hc'
        · rintro k ⟨⟩ -
          exact ⟨(hw'.1 evictedId).trans (if_pos rfl), hw'.2⟩
        · exact fun hid => isSome_of_holding (hothers id hid)
      · have hothers : ∀ j, w'.holding j = w.holding j := fun j =>
          (congrFun hf.1 j).trans (hheld j)
        refine ⟨⟨none, ?_, ?_, fun j _ _ => hothers j, ?_⟩, .inr hf.2⟩
        · rintro k ⟨⟩
        · rintro k ⟨⟩
        · exact fun _ => isSome_of_holding (hothers id)
  · have he' : w.registry.capacityEvictionCandidate env.sessionsRank = .error e :=
      hcandidate.symm.trans he
    obtain ⟨rfl, hpacked⟩ := (candidate_error_iff hk).1 he'
    exact ⟨hstay, .inl ⟨rfl, hpacked⟩⟩

variable {cmd : SessionStartCommand}

/-- A session is inserted under its identifier, unless its key has one. -/
theorem wp_insertNewSession {Q : AgentSession × Bool → World → Prop} {E : Fault → World → Prop}
    (hext : validateExternalSessionId cmd.externalSessionId = .ok ())
    (hroom : w.registry.len < maxSessions) (hE : ∀ message, E (.panic message) w)
    (hreplay : ∀ s, Q (s, true) w)
    (hQ : ∀ s index, s = newSession cmd (cfg.sessionIdFor cmd.source cmd.externalSessionId) →
      Q (s, false) (w.setRegistry { w.registry with
        externalIndex := index
        sessions := w.registry.sessions.insert s.id s })) :
    wp (onRegistry (SessionRegistry.insertNewSession cfg cmd.source cmd.externalSessionId
      (newSession cmd))) w Q E := by
  rw [onRegistry, wp_zoom, SessionRegistry.insertNewSession, wp_bind, wp_check, hext]
  refine ⟨fun _ _ => ?_, fun e he => absurd he (by simp)⟩
  rw [wp_bind, wp_get]
  split
  · simp only [wp_bind, wp_expect, wp_pure]
    exact ⟨fun s _ => hreplay s, fun _ => hE _⟩
  · simp only [wp_bind, wp_ensure, wp_pure, SessionRegistry.upsertSession, wp_check, wp_modify,
      decide_eq_true_eq, decide_eq_false_iff_not]
    refine ⟨fun _ => ⟨fun _ _ => hQ _ _ rfl, fun err herr => ?_⟩, fun hno => absurd hroom hno⟩
    rw [show (newSession cmd _).externalSessionId = cmd.externalSessionId from rfl, hext] at herr
    cases herr

/-- Once there is room, a start changes what is kept of its own session only. -/
theorem local_created (hid : cfg.sessionIdFor cmd.source cmd.externalSessionId = id)
    (hext : validateExternalSessionId cmd.externalSessionId = .ok ())
    (hroom : w.registry.len < maxSessions) :
    wp (do
      let (session, replay) ← onRegistry
        (SessionRegistry.insertNewSession cfg cmd.source cmd.externalSessionId (newSession cmd))
      if replay then pure (IngestResult.replay session) else openSession env cmd session) w
      (fun _ w' => Local id w w') (fun f w' => Local id w w' ∧ NotCore f) := by
  have hrefl : Local id w w := (Untouched.refl w).local id
  rw [wp_bind]
  refine wp_insertNewSession hext hroom (fun _ => ⟨hrefl, notCore_panic _⟩) (fun s => hrefl)
    fun s index hs => ?_
  have hsid : s.id = id := by rw [hs, ← hid]; rfl
  have hinserted : Local id w (w.setRegistry { w.registry with
      externalIndex := index
      sessions := w.registry.sessions.insert s.id s }) := by
    refine hrefl.setRegistry (fun k hk => ?_) (fun k _ => rfl) fun _ => ?_
    · dsimp only
      rw [Dict.lookup_insert_ite, if_neg fun heq => hk (heq.trans hsid)]
    · show ((w.registry.sessions.insert s.id s).lookup id).isSome
      rw [Dict.lookup_insert_ite, if_pos hsid.symm]
      rfl
  have hext' : validateExternalSessionId s.externalSessionId = .ok () := by
    rw [hs]
    exact hext
  exact wp_mono (wp_and (local_openSession hsid _ hinserted)
    (wp_openSession_reports hext' (AList.lookup_insert _))) (fun _ _ h => h.1) fun _ _ h => h

/-- How a start ends that may lack room. -/
structure StartFault (w : World) (cmd : SessionStartCommand) (f : Fault) : Prop where
  capacity : ∀ limit, f = .err (.sessionCapacity limit) → StartsNew w cmd ∧ Packed w.registry
  packed : StartsNew w cmd → Packed w.registry →
    f = .err (.sessionCapacity maxSessions) ∨ ∃ detail, f = .other detail

theorem StartFault.other (w : World) (cmd : SessionStartCommand) (detail : String) :
    StartFault w cmd (.other detail) where
  capacity limit h := by cases h
  packed _ _ := .inr ⟨detail, rfl⟩

/-- A check that fails. -/
theorem StartFault.refused {e : CoreError} (hno : ¬ StartsNew w cmd)
    (he : ∀ limit, e ≠ .sessionCapacity limit) : StartFault w cmd (.err e) :=
  ⟨fun limit hf => absurd (Fault.err.inj hf) (he limit), fun hnew => absurd hnew hno⟩

theorem wp_createSession_cedes (hk : Keyed w.registry) (h : Untouched w w₁) (hnew : StartsNew w cmd)
    (hid : cfg.sessionIdFor cmd.source cmd.externalSessionId = id) :
    wp (createSession cfg env cmd) w₁
      (fun _ w' => (∃ gone, Cedes gone id w w') ∧ ¬ Packed w.registry)
      (fun f w' => (∃ gone, Cedes gone id w w') ∧ StartFault w cmd f) := by
  unfold createSession
  rw [wp_bind]
  have hevict := wp_and (wp_evict_cedes id env hk h)
    (wp_evict_room (h.keyed hk) h (Q := fun _ w' => w'.registry.len < maxSessions)
      fun _ hlen => hlen)
  refine wp_mono hevict ?_ ?_
  · rintro _ w₂ ⟨⟨⟨gone, hgone⟩, hroom⟩, hlen⟩
    refine wp_mono (local_created hid hnew.externalSessionId hlen) (fun _ w' hw' => ?_)
      fun f w' hf => ?_
    · exact ⟨⟨gone, hgone.local hw'⟩, hroom⟩
    · refine ⟨⟨gone, hgone.local hf.1⟩, fun limit hcore => absurd hcore (hf.2 _), ?_⟩
      exact fun _ hpacked => absurd hpacked hroom
  · rintro f w₂ ⟨⟨hgone, hfault⟩, -⟩
    refine ⟨hgone, ?_⟩
    rcases hfault with ⟨rfl, hpacked⟩ | ⟨detail, rfl⟩
    · exact ⟨fun _ _ => ⟨hnew, hpacked⟩, fun _ _ => .inl rfl⟩
    · exact .other w cmd detail

/-- Looking for an earlier start fails only if the repository does. -/
theorem wp_replayedStart_keys (cmd : SessionStartCommand) :
    wp (replayedStart cmd) w
      (fun r w' => Untouched w w' ∧ w'.inner.integrations = w.inner.integrations ∧
        SameRegistry w.registry w'.registry ∧
        ∀ s, r = some s → w.registry.resolveExternal cmd.source cmd.externalSessionId = some s)
      (fun f w' => Untouched w w' ∧ ∃ detail, f = .other detail) := by
  unfold replayedStart
  cases cmd.idempotencyKey with
  | none => exact ⟨.refl w, rfl, .refl _, fun s hs => by cases hs⟩
  | some key =>
    have hknown : wp (knownKey key cmd.occurredAtMs) w
        (fun _ w' => Untouched w w' ∧ w'.inner = w.inner)
        (fun f w' => Untouched w w' ∧ ∃ detail, f = .other detail) := by
      unfold knownKey
      rw [wp_bind, wp_get]
      split
      · exact ⟨.refl w, rfl⟩
      · unfold onStore
        rw [wp_zoom]
        refine Repository.wp_statement (fun known db hdb => ?_)
          fun detail _ => ⟨⟨rfl, rfl, rfl, rfl, rfl, rfl, rfl⟩, detail, rfl⟩
        split at hdb
        all_goals
          obtain ⟨-, rfl⟩ := Prod.mk.inj (Except.ok.inj hdb)
          exact ⟨⟨rfl, rfl, rfl, rfl, rfl, rfl, rfl⟩, rfl⟩
    rw [wp_bind]
    refine wp_mono hknown ?_ fun _ _ h => h
    rintro known w' ⟨hw', hinner⟩
    rw [wp_bind, wp_get]
    have hsame : w'.registry = w.registry := congrArg AppCoreInner.registry hinner
    split
    · next s hs =>
      refine ⟨hw', by rw [hinner], hsame ▸ .refl _, fun t ht => ?_⟩
      cases ht
      rw [← hsame]
      exact hs
    · simp only [wp_bind, onRegistry, wp_zoom, SessionRegistry.recordIdempotency, wp_modify,
        wp_pure]
      refine ⟨⟨hw'.1, hw'.2, hw'.3, hw'.4, hw'.5, hw'.6, hw'.7⟩, ?_, ?_, fun s hs => by cases hs⟩
      · show w'.inner.integrations = _
        rw [hinner]
      · exact ⟨by rw [← hsame]; rfl, by rw [← hsame]; rfl, by rw [← hsame]; rfl⟩

theorem validateBounded_error {value : String} {max : ℕ} {field : String} {e : CoreError}
    (h : validateBounded value max field = .error e) (limit : ℕ) :
    e ≠ .sessionCapacity limit := by
  unfold validateBounded at h
  rintro rfl
  split at h
  · cases h
  · split at h <;> cases h

/-- A check of the fields of a start. -/
theorem wp_check_start {α : Type} {x : Except CoreError Unit} {f : Unit → CoreM α}
    {Q : α → World → Prop} (hnew : StartsNew w cmd → x = .ok ())
    (herror : ∀ e, x = .error e → ∀ limit, e ≠ .sessionCapacity limit)
    (hQ : x = .ok () → wp (f ()) w Q
      fun f w' => (∃ gone, Cedes gone id w w') ∧ StartFault w cmd f) :
    wp (check x >>= f) w Q fun f w' => (∃ gone, Cedes gone id w w') ∧ StartFault w cmd f := by
  rw [wp_bind, wp_check]
  refine ⟨fun _ hx => hQ hx, fun e he => ⟨?_, .refused (fun hstart => ?_) (herror e he)⟩⟩
  · exact ⟨none, ((Untouched.refl w).local id).cedes⟩
  · rw [hnew hstart] at he
    cases he

/-- However a start ends, at most one other session gives way, and it fails for want of room
exactly if there is none. -/
theorem wp_sessionStart_cedes (hk : Keyed w.registry)
    (hid : cfg.sessionIdFor cmd.source cmd.externalSessionId = id) :
    wp (sessionStart cfg env cmd) w
      (fun _ w' => (∃ gone, Cedes gone id w w') ∧ ¬ (StartsNew w cmd ∧ Packed w.registry))
      (fun f w' => (∃ gone, Cedes gone id w w') ∧ StartFault w cmd f) := by
  have hstay : ∀ w', Untouched w w' → ∃ gone, Cedes gone id w w' :=
    fun w' h => ⟨none, (h.local id).cedes⟩
  refine wp_check_start (·.externalSessionId) (fun _ => validateBounded_error) fun hext => ?_
  refine wp_check_start (·.label) (fun _ => validateBounded_error) fun hlabel => ?_
  refine wp_check_start (·.workspaceLabel) (fun e he => ?_) fun hworkspace => ?_
  · unfold validateOptional at he
    split at he
    · exact validateBounded_error he
    · cases he
  rw [wp_bind]
  refine wp_mono (wp_replayedStart_keys cmd) ?_ ?_
  swap
  · rintro f w' ⟨hw', detail, rfl⟩
    exact ⟨hstay w' hw', .other w cmd detail⟩
  rintro replayed w₁ ⟨hw₁, hi, hr, hreplayed⟩
  cases replayed with
  | some s =>
    refine ⟨hstay w₁ hw₁, fun hnew => ?_⟩
    have hunknown := hnew.1.unknown
    rw [hreplayed s rfl] at hunknown
    cases hunknown
  | none =>
    simp only [requireEvents, capabilitiesFor, wp_bind, wp_get, wp_okOr, wp_ensure, wp_check]
    refine ⟨fun c hc => ⟨fun hevents => ⟨fun _ hstatus => ?_, fun e he => ?_⟩, fun hno => ?_⟩,
      fun hnone => ?_⟩
    · have hsame := hr.resolveExternal cmd.source cmd.externalSessionId
      cases hres : w₁.inner.registry.resolveExternal cmd.source cmd.externalSessionId with
      | some existing =>
        refine ⟨hstay w₁ hw₁, fun hnew => ?_⟩
        have hunknown := hsame.trans hnew.1.unknown
        rw [show _ = _ from hres] at hunknown
        cases hunknown
      | none =>
        have hnew : StartsNew w cmd :=
          ⟨hext, hlabel, hworkspace, hstatus, ⟨c, hi ▸ hc, hevents⟩, hsame ▸ hres⟩
        refine wp_mono (wp_createSession_cedes hk hw₁ hnew hid) (fun _ w' h => ?_) fun _ _ h => h
        exact ⟨h.1, fun hboth => h.2 hboth.2⟩
    · refine ⟨hstay w₁ hw₁, .refused (fun hnew => ?_) fun limit heq => ?_⟩
      · rw [hnew.status] at he
        cases he
      · unfold validateStartStatus validateTransition at he
        split_ifs at he
        rw [heq] at he
        cases he
    · refine ⟨hstay w₁ hw₁, .refused (fun hnew => ?_) (by rintro limit ⟨⟩)⟩
      obtain ⟨c', hc', hevents⟩ := hnew.events
      have hc'' : w.inner.integrations.find? (·.source = cmd.source) = some c := hi ▸ hc
      obtain rfl := Option.some.inj (hc''.symm.trans hc')
      rw [hevents] at hno
      cases hno
    · refine ⟨hstay w₁ hw₁, .refused (fun hnew => ?_) (by rintro limit ⟨⟩)⟩
      obtain ⟨c', hc', -⟩ := hnew.events
      rw [← hi, show _ = _ from hnone] at hc'
      cases hc'

end Starts

/-! ## Runs -/

variable {cfg : CoreConfig} {env : Env} {s : CoreState} {rest : List CoreSection}

/-- What an ingested start does to the core. -/
theorem wp_ingest_cedes {w : World} {cmd : SessionStartCommand} (hk : Keyed w.registry) :
    wp (CoreSection.exec cfg env (.ingest (.sessionStart cmd))) w
      (fun _ w' => (∃ gone, Cedes gone (cfg.sessionIdFor cmd.source cmd.externalSessionId) w w') ∧
        ¬ (StartsNew w cmd ∧ Packed w.registry))
      (fun f w' => (∃ gone, Cedes gone (cfg.sessionIdFor cmd.source cmd.externalSessionId) w w') ∧
        StartFault w cmd f ∧ Clean w f w' ∧
          w'.inner.streamSequence = w.inner.streamSequence) := by
  show wp (ingest cfg env (.sessionStart cmd) >>= fun _ => pure []) w _ _
  rw [wp_bind, ingest, wp_bind]
  -- nothing is sent before the start has succeeded
  have hsteady : Steady fun w' => w'.inner.streamSequence = w.inner.streamSequence :=
    ⟨fun _ h => h, fun _ h => h, fun _ h => h⟩
  have hsequence : wp (sessionStart cfg env cmd) w _ _ :=
    uniform_sessionStart (P := fun _ => True) (fun _ _ h _ => h) hsteady (fun _ => trivial) cmd w
      ⟨fun _ => trivial, fun _ => trivial, rfl⟩
  refine wp_mono (wp_and (wp_and (wp_sessionStart_cedes hk rfl) (clean_sessionStart hk))
    hsequence) ?_ fun f w' h => ⟨h.1.1.1, h.1.1.2, h.1.2, h.2.aside⟩
  rintro r w' ⟨⟨⟨⟨gone, hgone⟩, hfits⟩, -⟩, -⟩
  rw [wp_bind, flushPending, wp_modify, wp_pure, wp_pure]
  refine ⟨⟨gone, hgone.local ⟨fun k _ => holding_congr w' (w'.flush env) ?_ ?_ ?_, ?_, ?_⟩⟩, hfits⟩
  · rw [registry_flush]
  · rw [registry_flush]
  · rw [World.db, store_flush]
  · intro e he _
    rwa [World.db, store_flush] at he
  · intro hw
    rwa [registry_flush]

theorem coreStep_section {tid : ℕ} {sec : CoreSection}
    (hcall : s.calls.lookup tid = some (sec :: rest)) :
    coreStep cfg s (.advance tid env) =
      some (s.finish tid rest (sec.exec cfg env (s.world.entered env))) := by
  unfold coreStep
  dsimp only
  rw [hcall]

theorem sectionFault_section {tid : ℕ} {sec : CoreSection}
    (hcall : s.calls.lookup tid = some (sec :: rest)) :
    sectionFault cfg s tid env =
      (failedState (sec.exec cfg env (s.world.entered env))).map Prod.fst := by
  unfold sectionFault
  rw [hcall]
  dsimp only
  cases sec.exec cfg env (s.world.entered env) <;> rfl

/-- How a start that runs next leaves the core. -/
structure WithinCapacity (cfg : CoreConfig) (env : Env) (tid : ℕ) (cmd : SessionStartCommand)
    (s s' : CoreState) : Prop where
  cedes : ∃ gone, Cedes gone (cfg.sessionIdFor cmd.source cmd.externalSessionId) s.world s'.world
  refused : ∀ limit, sectionFault cfg s tid env = some (.err (.sessionCapacity limit)) →
    StartsNew s.world cmd ∧ Packed s.world.registry ∧ Untouched s.world s'.world ∧
      s'.world.inner.streamSequence = s.world.inner.streamSequence
  packed : StartsNew s.world cmd → Packed s.world.registry →
    sectionFault cfg s tid env = some (.err (.sessionCapacity maxSessions)) ∨
      ∃ detail, sectionFault cfg s tid env = some (.other detail)

/-- A start that runs next, in a state whose sessions are stored under their identifiers. -/
theorem withinCapacity_step (hk : Keyed s.world.registry) {tid : ℕ} {cmd : SessionStartCommand}
    {s' : CoreState} (hcall : s.calls.lookup tid = some (.ingest (.sessionStart cmd) :: rest))
    (hstep : coreStep cfg s (.advance tid env) = some s') :
    WithinCapacity cfg env tid cmd s s' := by
  have hwp : wp (CoreSection.exec cfg env (.ingest (.sessionStart cmd))) (s.world.entered env)
    _ _ := wp_ingest_cedes hk
  have hnew : StartsNew (s.world.entered env) cmd ↔ StartsNew s.world cmd :=
    ⟨fun h => ⟨h.1, h.2, h.3, h.4, h.5, h.6⟩, fun h => ⟨h.1, h.2, h.3, h.4, h.5, h.6⟩⟩
  have hcedes : ∀ gone id w', Cedes gone id (s.world.entered env) w' → Cedes gone id s.world w' :=
    fun gone id w' h => ⟨h.givesWay, h.dropped, h.others, h.stays⟩
  rw [coreStep_section hcall] at hstep
  cases hstep
  have hfault : sectionFault cfg s tid env = _ := sectionFault_section hcall
  unfold wp at hwp
  cases hexec : CoreSection.exec cfg env (.ingest (.sessionStart cmd)) (s.world.entered env) with
  | ok more w' =>
    rw [hexec] at hwp hfault
    obtain ⟨⟨gone, hgone⟩, hfits⟩ := hwp
    refine ⟨⟨gone, hcedes gone _ w' hgone⟩, fun limit h => ?_, fun h hpacked => ?_⟩
    · rw [hfault] at h
      cases h
    · exact absurd ⟨hnew.2 h, hpacked⟩ hfits
  | error f w' =>
    rw [hexec] at hwp hfault
    obtain ⟨⟨gone, hgone⟩, hends, hclean, hsequence⟩ := hwp
    refine ⟨⟨gone, hcedes gone _ w' hgone⟩, fun limit h => ?_, fun h hpacked => ?_⟩
    · obtain rfl := Option.some.inj (hfault.symm.trans h)
      obtain ⟨hstarts, hpacked⟩ := hends.capacity limit rfl
      exact ⟨hnew.1 hstarts, hpacked, untouched_entered.1 (hclean _ rfl), hsequence⟩
    · rcases hends.packed (hnew.2 h) hpacked with rfl | ⟨detail, rfl⟩
      · exact .inl hfault
      · exact .inr ⟨detail, hfault⟩

/-- There is a session of the identifier, and then there is none. -/
def Removed (s s' : CoreState) (id : String) : Prop :=
  (s.world.registry.get id).isSome ∧ s'.world.registry.get id = none

theorem calls_of_call {s' : CoreState} {tid : ℕ} {call : CoreCall}
    (hstep : coreStep cfg s (.call tid call) = some s') :
    s'.calls.lookup tid = some call.sections := by
  unfold coreStep at hstep
  dsimp only at hstep
  split at hstep
  · cases hstep
    exact AList.lookup_insert _
  · cases hstep

/-- A configuration whose identifiers are the external ones. -/
def plainIds : CoreConfig := ⟨fun _ externalSessionId => externalSessionId, some⟩

/-- A session that ended, with a name of two letters. -/
def endedRow (n : ℕ) : AgentSession :=
  let name := String.ofList [Char.ofNat (97 + n % 16), Char.ofNat (97 + n / 16)]
  { newSession (sampleStart .qwen name) name with
    status := .completed
    endedAtMs := some (n + 1 : ℕ) }

/-- As many sessions as fit, all of them ended. -/
def fullRows : Database where
  integrations := sampleIntegrations
  sessions := (List.range maxSessions).map endedRow

def evictingCall : List CoreAct :=
  [.call 1 (.ingest (.sessionStart (sampleStart .qwen "f")))]

/-- The core before and after a start that finds it full. -/
def evictingRun : Option (CoreState × CoreState) :=
  (startCore plainIds {} sampleSettings fullRows).bind fun s₀ =>
    (run (coreStep plainIds) s₀ evictingCall).bind fun s =>
      (coreStep plainIds s (.advance 1 { uuid := 2 })).map fun s' => (s, s')

/-- The session that ended first is dropped. -/
theorem evictingRun_removed :
    ∃ s₀ s s', evictingRun = some (s, s') ∧
      startCore plainIds {} sampleSettings fullRows = some s₀ ∧
      run (coreStep plainIds) s₀ evictingCall = some s ∧
      coreStep plainIds s (.advance 1 { uuid := 2 }) = some s' ∧
      s.calls.lookup 1 = some [.ingest (.sessionStart (sampleStart .qwen "f"))] ∧
      s.world.registry.len = maxSessions ∧ Removed s s' "aa" := by
  have hseen : evictingRun.map (fun p =>
      (p.1.world.registry.len, (p.1.world.registry.get "aa").isSome,
        (p.2.world.registry.get "aa").isSome)) = some (maxSessions, true, false) := by
    decide +kernel
  obtain ⟨⟨s, s'⟩, hrun, hseen⟩ := Option.map_eq_some_iff.1 hseen
  obtain ⟨s₀, hs₀, hrest⟩ := Option.bind_eq_some_iff.1 hrun
  obtain ⟨t, hs, hrest⟩ := Option.bind_eq_some_iff.1 hrest
  obtain ⟨t', hs', heq⟩ := Option.map_eq_some_iff.1 hrest
  cases heq
  -- the call is still where it was started
  obtain ⟨u, hu, hnil⟩ := run_cons.1 hs
  cases hnil
  simp only [Prod.mk.injEq, Option.isSome_eq_false_iff, Option.isNone_iff_eq_none] at hseen
  obtain ⟨hlen, hbefore, hafter⟩ := hseen
  exact ⟨s₀, _, s', hrun, hs₀, hs, hs', calls_of_call hu, hlen, hbefore, hafter⟩

/-- In every reachable state there are no more sessions than fit, and a start keeps every other
session but one that gives way. It is refused for want of room exactly if it is new and no
session may give way, and then it changes nothing. -/
theorem capacity_run {cfg : CoreConfig} {env₀ : Env} {settings : PublicSettings} {db : Database}
    {s₀ s : CoreState} {acts : List CoreAct} (hstart : startCore cfg env₀ settings db = some s₀)
    (hrun : run (coreStep cfg) s₀ acts = some s) :
    s.world.registry.len ≤ maxSessions ∧
      ∀ tid env cmd rest s', s.calls.lookup tid = some (.ingest (.sessionStart cmd) :: rest) →
        coreStep cfg s (.advance tid env) = some s' → WithinCapacity cfg env tid cmd s s' :=
  ⟨(keyed_run hstart hrun).bounded, fun _ _ _ _ _ => withinCapacity_step (keyed_run hstart hrun)⟩

theorem capacity_run_evicts :
    ∃ s s', evictingRun = some (s, s') ∧ s.world.registry.len = maxSessions ∧
      Removed s s' "aa" ∧
      WithinCapacity plainIds { uuid := 2 } 1 (sampleStart .qwen "f") s s' := by
  obtain ⟨s₀, s, s', hrun, hs₀, hs, hs', hcall, hfull, hremoved⟩ := evictingRun_removed
  exact ⟨s, s', hrun, hfull, hremoved, (capacity_run hs₀ hs).2 1 _ _ [] s' hcall hs'⟩

theorem WithinCapacity.removed {tid : ℕ} {cmd : SessionStartCommand} {s' : CoreState}
    (h : WithinCapacity cfg env tid cmd s s') : ∃ gone : Option String,
      (∀ k, Removed s s' k → k ∈ gone) ∧ ∀ k ∈ gone, GivesWay s.world.registry k := by
  obtain ⟨gone, hgone⟩ := h.cedes
  refine ⟨gone, fun k hremoved => ?_, hgone.givesWay⟩
  obtain ⟨hbefore, hafter⟩ := hremoved
  by_contra hk
  have hstays : (s'.world.registry.get k).isSome := by
    by_cases hid : k = cfg.sessionIdFor cmd.source cmd.externalSessionId
    · subst hid
      exact hgone.stays hk hbefore
    · exact isSome_of_holding (hgone.others k hid hk) hbefore
  rw [hafter] at hstays
  cases hstays

/-- In every reachable state there are no more sessions than fit. A start removes at most one,
which is one that gives way, and a start that fails for want of room changes and sends nothing. -/
theorem session_capacity {cfg : CoreConfig} {env₀ : Env} {settings : PublicSettings}
    {db : Database} {s₀ s : CoreState} {acts : List CoreAct}
    (hstart : startCore cfg env₀ settings db = some s₀)
    (hrun : run (coreStep cfg) s₀ acts = some s) :
    s.world.registry.len ≤ maxSessions ∧
      ∀ tid env cmd rest s', s.calls.lookup tid = some (.ingest (.sessionStart cmd) :: rest) →
        coreStep cfg s (.advance tid env) = some s' →
        (∀ j k, Removed s s' j → Removed s s' k → j = k) ∧
        (∀ k, Removed s s' k → GivesWay s.world.registry k) ∧
        ∀ limit, sectionFault cfg s tid env = some (.err (.sessionCapacity limit)) →
          Untouched s.world s'.world ∧
            s'.world.inner.streamSequence = s.world.inner.streamSequence := by
  have hk := keyed_run hstart hrun
  refine ⟨hk.bounded, fun tid env cmd rest s' hcall hstep => ?_⟩
  have hwithin := withinCapacity_step hk hcall hstep
  obtain ⟨gone, hgone, hways⟩ := hwithin.removed
  refine ⟨fun j k hj hk => ?_, fun k hk => hways k (hgone k hk), fun limit hlimit => ?_⟩
  · exact Option.mem_unique (hgone j hj) (hgone k hk)
  · obtain ⟨-, -, huntouched⟩ := hwithin.refused limit hlimit
    exact huntouched

theorem session_capacity_evicts :
    ∃ s s', evictingRun = some (s, s') ∧ Removed s s' "aa" ∧
      ∀ k, Removed s s' k → GivesWay s.world.registry k ∧ k = "aa" := by
  obtain ⟨s₀, s, s', hrun, hs₀, hs, hs', hcall, -, hremoved⟩ := evictingRun_removed
  obtain ⟨hone, hways, -⟩ := (session_capacity hs₀ hs).2 1 _ _ [] s' hcall hs'
  exact ⟨s, s', hrun, hremoved, fun k hk => ⟨hways k hk, hone k "aa" hk hremoved⟩⟩

end LlmNotch
