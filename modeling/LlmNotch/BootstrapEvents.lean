import LlmNotch.CoreEffects

/-!
# The events of a bootstrap

`bootstrap_events` gives a new window the last event of every active session and, as far as there
is room, the most recent ones of all sessions. Both passes fill one selection that has at most
`bootstrapMaxEvents` places and takes an identifier once (`selectEvent`).

There are more places than sessions, so the first pass never runs out of them
(`foldl_selectEvent_of_room`), and the second one leaves an event out only if all places are taken
by the first pass and by events that are at least as recent (`foldl_selectEvent_recent`).
-/

namespace LlmNotch

namespace SessionRegistry

/-- Where an event stands in a bootstrap. -/
def eventTime (e : SessionEvent) : ℤ ×ₗ ℕ :=
  toLex (e.occurredAtMs, e.sequence)

/-- The identifiers of the retained events are different. -/
def DistinctEventIds (r : SessionRegistry) : Prop :=
  (r.events.values.flatten.map (·.id)).Nodup

instance (r : SessionRegistry) : Decidable r.DistinctEventIds :=
  inferInstanceAs (Decidable (List.Nodup _))

/-- The registry has the event. -/
def Retained (r : SessionRegistry) (e : SessionEvent) : Prop :=
  ∃ id, e ∈ r.eventsFor id

/-- The last event of a session that is not terminal or has attention. -/
def LatestOfActive (r : SessionRegistry) (e : SessionEvent) : Prop :=
  ∃ id s, r.sessions.lookup id = some s ∧ (isTerminal s.status = false ∨ s.attention ≠ .none) ∧
    (r.eventsFor id).getLast? = some e

/-! ## Selecting -/

section Select

variable {selected xs : List SessionEvent} {e : SessionEvent}

theorem selectEvent_cases (selected : List SessionEvent) (e : SessionEvent) :
    (selectEvent selected e = selected ∧
      (bootstrapMaxEvents ≤ selected.length ∨ e.id ∈ selected.map (·.id))) ∨
    (selectEvent selected e = selected ++ [e] ∧ selected.length < bootstrapMaxEvents ∧
      e.id ∉ selected.map (·.id)) := by
  unfold selectEvent
  split
  · rename_i hfull
    exact .inl ⟨rfl, .inl hfull⟩
  · rename_i hroom
    split
    · rename_i hmem
      exact .inl ⟨rfl, .inr (List.contains_iff_mem.1 hmem)⟩
    · rename_i hmem
      exact .inr ⟨rfl, Nat.lt_of_not_le hroom, fun h => hmem (List.contains_iff_mem.2 h)⟩

theorem foldl_selectEvent_bounded (h : selected.length ≤ bootstrapMaxEvents)
    (hnodup : (selected.map (·.id)).Nodup) (xs : List SessionEvent) :
    (xs.foldl selectEvent selected).length ≤ bootstrapMaxEvents ∧
      ((xs.foldl selectEvent selected).map (·.id)).Nodup := by
  induction xs generalizing selected with
  | nil => exact ⟨h, hnodup⟩
  | cons e xs ih =>
    rw [List.foldl_cons]
    rcases selectEvent_cases selected e with ⟨heq, -⟩ | ⟨heq, hroom, hnew⟩
    · rw [heq]
      exact ih h hnodup
    · rw [heq]
      refine ih ?_ ?_
      · rw [List.length_append, List.length_singleton]
        exact hroom
      · rw [List.map_append, List.map_singleton]
        exact hnodup.append (List.nodup_singleton _) (List.disjoint_singleton.2 hnew)

theorem prefix_foldl_selectEvent (selected xs : List SessionEvent) :
    selected <+: xs.foldl selectEvent selected := by
  induction xs generalizing selected with
  | nil => exact List.prefix_rfl
  | cons e xs ih =>
    rw [List.foldl_cons]
    rcases selectEvent_cases selected e with ⟨heq, -⟩ | ⟨heq, -, -⟩
    · rw [heq]
      exact ih selected
    · rw [heq]
      exact (List.prefix_append selected [e]).trans (ih _)

theorem mem_foldl_selectEvent (h : e ∈ xs.foldl selectEvent selected) :
    e ∈ selected ∨ e ∈ xs := by
  induction xs generalizing selected with
  | nil => exact .inl h
  | cons x xs ih =>
    rw [List.foldl_cons] at h
    rcases ih h with hmem | hmem
    · rcases selectEvent_cases selected x with ⟨heq, -⟩ | ⟨heq, -, -⟩
      · exact .inl (heq ▸ hmem)
      · rw [heq, List.mem_append, List.mem_singleton] at hmem
        rcases hmem with hmem | rfl
        · exact .inl hmem
        · exact .inr List.mem_cons_self
    · exact .inr (List.mem_cons_of_mem _ hmem)

/-- A full selection stays as it is. -/
theorem foldl_selectEvent_full (h : bootstrapMaxEvents ≤ selected.length) :
    xs.foldl selectEvent selected = selected := by
  induction xs with
  | nil => rfl
  | cons e xs ih =>
    have heq : selectEvent selected e = selected := if_pos h
    rw [List.foldl_cons, heq, ih]

/-- With room for all of them, different events are all selected. -/
theorem foldl_selectEvent_of_room (hroom : selected.length + xs.length ≤ bootstrapMaxEvents)
    (hnodup : ((selected ++ xs).map (·.id)).Nodup) :
    xs.foldl selectEvent selected = selected ++ xs := by
  induction xs generalizing selected with
  | nil => rw [List.foldl_nil, List.append_nil]
  | cons e xs ih =>
    rw [List.length_cons] at hroom
    have hsplit : selected ++ e :: xs = (selected ++ [e]) ++ xs := by simp
    have hnew : e.id ∉ selected.map (·.id) := by
      rw [List.map_append, List.map_cons] at hnodup
      exact fun hmem => (List.nodup_append.1 hnodup).2.2 _ hmem _ List.mem_cons_self rfl
    have heq : selectEvent selected e = selected ++ [e] := by
      rcases selectEvent_cases selected e with ⟨-, hfull | hmem⟩ | ⟨heq, -, -⟩
      · omega
      · exact absurd hmem hnew
      · exact heq
    rw [List.foldl_cons, heq, hsplit]
    refine ih ?_ (by rwa [← hsplit])
    rw [List.length_append, List.length_singleton]
    omega

/-- What is not selected comes after all that were added. -/
theorem foldl_selectEvent_recent {before : SessionEvent → SessionEvent → Prop}
    (hsorted : xs.Pairwise before) {x y : SessionEvent} (hx : x ∈ xs)
    (hout : x.id ∉ (xs.foldl selectEvent selected).map (·.id))
    (hy : y ∈ xs.foldl selectEvent selected) : y ∈ selected ∨ before y x := by
  induction xs generalizing selected with
  | nil => cases hx
  | cons e xs ih =>
    rw [List.foldl_cons] at hout hy
    obtain ⟨hfirst, hrest⟩ := List.pairwise_cons.1 hsorted
    rcases List.mem_cons.1 hx with rfl | hx'
    · -- the event was refused, and not because it was there : the selection was full
      have hkept := (prefix_foldl_selectEvent (selectEvent selected x) xs).subset
      rcases selectEvent_cases selected x with ⟨heq, hfull | hmem⟩ | ⟨heq, -, -⟩
      · left
        rw [heq] at hy hout
        rwa [foldl_selectEvent_full hfull] at hy
      · rw [heq] at hout hkept
        obtain ⟨own, hown, hid⟩ := List.mem_map.1 hmem
        exact absurd (List.mem_map.2 ⟨own, hkept hown, hid⟩) hout
      · rw [heq] at hout hkept
        exact absurd (List.mem_map_of_mem (hkept (by simp))) hout
    · rcases ih hrest hx' hout hy with hmem | hbefore
      · rcases selectEvent_cases selected e with ⟨heq, -⟩ | ⟨heq, -, -⟩
        · exact .inl (heq ▸ hmem)
        · rw [heq, List.mem_append, List.mem_singleton] at hmem
          rcases hmem with hmem | rfl
          · exact .inl hmem
          · exact .inr (hfirst x hx')
      · exact .inr hbefore

end Select

/-! ## The two passes -/

section Passes

variable {r : SessionRegistry} {rank : String → ℕ} {e : SessionEvent}

theorem lookup_of_mem_eventsFor {id : String} (h : e ∈ r.eventsFor id) :
    ∃ events, r.events.lookup id = some events ∧ e ∈ events := by
  unfold eventsFor at h
  cases hlookup : r.events.lookup id with
  | none =>
    rw [hlookup] at h
    cases h
  | some events =>
    rw [hlookup] at h
    exact ⟨events, rfl, h⟩

theorem mem_flatten_valuesBy : e ∈ (r.events.valuesBy rank).flatten ↔ Retained r e := by
  rw [List.mem_flatten]
  constructor
  · rintro ⟨events, hevents, he⟩
    obtain ⟨id, hlookup⟩ := Dict.mem_valuesBy.1 hevents
    exact ⟨id, by rwa [eventsFor, hlookup]⟩
  · rintro ⟨id, he⟩
    obtain ⟨events, hlookup, hmem⟩ := lookup_of_mem_eventsFor he
    exact ⟨events, Dict.mem_valuesBy.2 ⟨id, hlookup⟩, hmem⟩

theorem DistinctEventIds.eq (h : DistinctEventIds r) {e' : SessionEvent} (he : Retained r e)
    (he' : Retained r e') (hid : e.id = e'.id) : e = e' := by
  have hmem : ∀ {x}, Retained r x → x ∈ r.events.values.flatten := by
    intro x hx
    have hflat : x ∈ (r.events.valuesBy fun _ => 0).flatten := mem_flatten_valuesBy.2 hx
    exact ((Dict.valuesBy_perm _ _).flatten).mem_iff.1 hflat
  exact List.inj_on_of_nodup_map h (hmem he) (hmem he') hid

/-- Events of different sessions have different identifiers. -/
theorem DistinctEventIds.session_eq (h : DistinctEventIds r) {e' : SessionEvent} {id id' : String}
    (he : e ∈ r.eventsFor id) (he' : e' ∈ r.eventsFor id') (hid : e.id = e'.id) : id = id' := by
  obtain ⟨events, hlookup, hmem⟩ := lookup_of_mem_eventsFor he
  obtain ⟨events', hlookup', hmem'⟩ := lookup_of_mem_eventsFor he'
  rw [DistinctEventIds, List.map_flatten, List.nodup_flatten, Dict.values, List.map_map,
    List.pairwise_map] at h
  have hpairs : r.events.entries.Pairwise fun a b =>
      (a.2.map (·.id)).Disjoint (b.2.map (·.id)) := h.2
  have hsymm : Std.Symm fun a b : (_ : String) × List SessionEvent =>
      (a.2.map (·.id)).Disjoint (b.2.map (·.id)) := ⟨fun _ _ hd _ hx hx' => hd hx' hx⟩
  by_contra hne
  have hdisjoint := hpairs.forall (AList.mem_lookup_iff.1 hlookup)
    (AList.mem_lookup_iff.1 hlookup') fun heq => hne (Sigma.mk.inj heq).1
  exact hdisjoint (List.mem_map_of_mem hmem) (hid ▸ List.mem_map_of_mem hmem')

/-- The sessions whose last event is reserved a place. -/
def activeSessions (r : SessionRegistry) (rank : String → ℕ) : List AgentSession :=
  ((r.sessions.valuesBy rank).filter fun s =>
    restorePriority s = 0).insertionSort fun a b => b.lastEventAtMs ≤ a.lastEventAtMs

theorem restorePriority_eq_zero {s : AgentSession} :
    restorePriority s = 0 ↔ isTerminal s.status = false ∨ s.attention ≠ .none := by
  unfold restorePriority
  cases isTerminal s.status <;> by_cases h : s.attention = .none <;> simp [h]

theorem mem_activeSessions {s : AgentSession} : s ∈ activeSessions r rank ↔
    (∃ id, r.sessions.lookup id = some s) ∧
      (isTerminal s.status = false ∨ s.attention ≠ .none) := by
  rw [activeSessions, List.mem_insertionSort, List.mem_filter, Dict.mem_valuesBy,
    decide_eq_true_eq, restorePriority_eq_zero]

theorem keepLast_one (xs : List SessionEvent) : keepLast 1 xs = xs.getLast?.toList := by
  induction xs using List.reverseRecOn with
  | nil => rfl
  | append_singleton xs e =>
    rw [keepLast, List.length_append, List.length_singleton, Nat.add_sub_cancel, List.drop_left,
      List.getLast?_concat]
    rfl

/-- The events the first pass goes through. -/
def reservedEvents (r : SessionRegistry) (rank : String → ℕ) : List SessionEvent :=
  (activeSessions r rank).flatMap fun s =>
    keepLast bootstrapEventsPerActiveSession (r.eventsFor s.id)

theorem reservedEvents_eq (r : SessionRegistry) (rank : String → ℕ) :
    reservedEvents r rank =
      (activeSessions r rank).filterMap fun s => (r.eventsFor s.id).getLast? := by
  rw [List.filterMap_eq_flatMap_toList]
  exact congrArg (List.flatMap · _) (funext fun s => keepLast_one (r.eventsFor s.id))

theorem mem_reservedEvents (hk : Keyed r) :
    e ∈ reservedEvents r rank ↔ LatestOfActive r e := by
  rw [reservedEvents_eq, List.mem_filterMap]
  constructor
  · rintro ⟨s, hs, hlast⟩
    obtain ⟨⟨id, hlookup⟩, hactive⟩ := mem_activeSessions.1 hs
    rw [hk.id hlookup] at hlast
    exact ⟨id, s, hlookup, hactive, hlast⟩
  · rintro ⟨id, s, hlookup, hactive, hlast⟩
    refine ⟨s, mem_activeSessions.2 ⟨⟨id, hlookup⟩, hactive⟩, ?_⟩
    rwa [hk.id hlookup]

/-- There is at most one event for each session. -/
theorem length_reservedEvents_le (hk : Keyed r) (rank : String → ℕ) :
    (reservedEvents r rank).length ≤ maxSessions := by
  have hsessions : (activeSessions r rank).length ≤ r.len := by
    rw [activeSessions, List.length_insertionSort]
    refine (List.length_filter_le _ _).trans ?_
    rw [(Dict.valuesBy_perm rank r.sessions).length_eq, Dict.values, List.length_map]
    exact le_rfl
  rw [reservedEvents_eq]
  exact ((List.length_filterMap_le _ _).trans hsessions).trans hk.bounded

/-- The reserved events are different. -/
theorem nodup_reservedEvents (hk : Keyed r) (hids : DistinctEventIds r) (rank : String → ℕ) :
    ((reservedEvents r rank).map (·.id)).Nodup := by
  have hsessions : ((activeSessions r rank).map (·.id)).Nodup := by
    have hall := Dict.nodup_valuesBy_map (fun _ _ h => hk.id h) rank (m := r.sessions)
    have hsub := (List.filter_sublist (p := fun s => decide (restorePriority s = 0))
      (l := r.sessions.valuesBy rank)).map (·.id)
    rw [activeSessions, ((List.perm_insertionSort _ _).map _).nodup_iff]
    exact hall.sublist hsub
  rw [reservedEvents_eq, List.Nodup, List.pairwise_map]
  refine List.Pairwise.filterMap _ (fun s s' hne e he e' he' => ?_) (List.pairwise_map.1 hsessions)
  exact fun hid => hne (hids.session_eq (List.mem_of_getLast? he) (List.mem_of_getLast? he') hid)

end Passes

/-! ## The bootstrap -/

/-- A bootstrap has at most as many events as there is room for, in order and each once. It has
the last event of every active session, and a retained event that is left out is not later than
any of the others it has. -/
theorem bootstrapEvents_covers {r : SessionRegistry} (hk : Keyed r) (hids : DistinctEventIds r)
    (sessionsRank eventsRank : String → ℕ) :
    let events := r.bootstrapEvents sessionsRank eventsRank
    events.length ≤ bootstrapMaxEvents ∧ (events.map (·.id)).Nodup ∧
    events.Pairwise (fun a b => eventTime a ≤ eventTime b) ∧ (∀ e ∈ events, Retained r e) ∧
    (∀ e, LatestOfActive r e → e ∈ events) ∧
    ∀ omitted included, Retained r omitted → omitted ∉ events → included ∈ events →
      ¬LatestOfActive r included → eventTime omitted ≤ eventTime included := by
  intro events
  have hreserved : (reservedEvents r sessionsRank).foldl selectEvent [] =
      reservedEvents r sessionsRank := by
    have hroom := length_reservedEvents_le hk sessionsRank
    refine foldl_selectEvent_of_room ?_ (nodup_reservedEvents hk hids sessionsRank)
    rw [List.length_nil, Nat.zero_add]
    exact hroom.trans (by decide)
  set recent := (r.events.valuesBy eventsRank).flatten.insertionSort fun a b =>
    eventTime b ≤ eventTime a with hrecent
  set selected := recent.foldl selectEvent (reservedEvents r sessionsRank) with hselected
  have hevents : events = selected.insertionSort fun a b => eventTime a ≤ eventTime b := by
    rw [hselected, ← hreserved]
    rfl
  have hperm : events.Perm selected := hevents ▸ List.perm_insertionSort _ _
  have hmem : ∀ {e}, e ∈ recent ↔ Retained r e := by
    intro e
    rw [hrecent, List.mem_insertionSort, mem_flatten_valuesBy]
  have hfits : (reservedEvents r sessionsRank).length ≤ bootstrapMaxEvents :=
    (length_reservedEvents_le hk sessionsRank).trans (by decide)
  obtain ⟨hbounded, hnodup⟩ := foldl_selectEvent_bounded hfits
    (nodup_reservedEvents hk hids sessionsRank) recent
  have hretained : ∀ e ∈ events, Retained r e := by
    intro e he
    rcases mem_foldl_selectEvent (hperm.mem_iff.1 he) with hfirst | hsecond
    · obtain ⟨id, s, -, -, hlast⟩ := (mem_reservedEvents hk).1 hfirst
      exact ⟨id, List.mem_of_getLast? hlast⟩
    · exact hmem.1 hsecond
  refine ⟨hperm.length_eq ▸ hbounded, (hperm.map _).nodup_iff.2 hnodup, ?_, hretained, ?_, ?_⟩
  · rw [hevents]
    exact List.pairwise_insertionSort _ _
  · intro e he
    refine hperm.mem_iff.2 ((prefix_foldl_selectEvent _ recent).subset ?_)
    exact (mem_reservedEvents hk).2 he
  · intro omitted included homitted hout hin hother
    have hsorted : recent.Pairwise fun a b => eventTime b ≤ eventTime a :=
      List.pairwise_insertionSort _ _
    have hnew : omitted.id ∉ selected.map (·.id) := by
      intro hid
      obtain ⟨e, he, hsame⟩ := List.mem_map.1 hid
      have heq := hids.eq (hretained e (hperm.mem_iff.2 he)) homitted hsame
      exact hout (heq ▸ hperm.mem_iff.2 he)
    rcases foldl_selectEvent_recent hsorted (hmem.2 homitted) hnew (hperm.mem_iff.1 hin) with
      hfirst | hbefore
    · exact absurd ((mem_reservedEvents hk).1 hfirst) hother
    · exact hbefore

end SessionRegistry

open SessionRegistry

/-- The bootstrap of every state the core reaches. -/
theorem bootstrap_events_cover {cfg : CoreConfig} {env : Env} {settings : PublicSettings}
    {db : Database} {s₀ s : CoreState} {acts : List CoreAct}
    (hstart : startCore cfg env settings db = some s₀)
    (hrun : run (coreStep cfg) s₀ acts = some s) (hids : DistinctEventIds s.world.registry)
    (sessionsRank eventsRank : String → ℕ) :
    let r := s.world.registry
    let events := r.bootstrapEvents sessionsRank eventsRank
    events.length ≤ bootstrapMaxEvents ∧ (events.map (·.id)).Nodup ∧
    events.Pairwise (fun a b => eventTime a ≤ eventTime b) ∧ (∀ e ∈ events, Retained r e) ∧
    (∀ e, LatestOfActive r e → e ∈ events) ∧
    ∀ omitted included, Retained r omitted → omitted ∉ events → included ∈ events →
      ¬LatestOfActive r included → eventTime omitted ≤ eventTime included :=
  bootstrapEvents_covers (keyed_run hstart hrun) hids sessionsRank eventsRank

/-- A session with its start and another event. -/
def eventRun : List CoreAct :=
  CoreAct.perform 0 (.ingest (.sessionStart (sampleStart .generic "e"))) { uuid := 1 } ++
    CoreAct.perform 1 (.ingest (.lifecycleEvent (sampleEvent .generic "e"))) { uuid := 2 }

theorem bootstrap_events_cover_eventRun : ∃ s₀ s e,
    startCore sampleCoreConfig {} sampleSettings { integrations := sampleIntegrations } =
      some s₀ ∧
    run (coreStep sampleCoreConfig) s₀ eventRun = some s ∧
    LatestOfActive s.world.registry e ∧
    e ∈ s.world.registry.bootstrapEvents (fun _ => 0) fun _ => 0 := by
  have hrun : ((startCore sampleCoreConfig {} sampleSettings
      { integrations := sampleIntegrations }).bind fun s₀ =>
        (run (coreStep sampleCoreConfig) s₀ eventRun).bind fun s =>
          (s.world.registry.sessions.lookup "Generic:e").bind fun session =>
            (s.world.registry.eventsFor "Generic:e").getLast?.map fun e =>
              (isTerminal session.status,
                decide (DistinctEventIds s.world.registry))) = some (false, true) := by
    decide
  obtain ⟨s₀, hs₀, hrun⟩ := Option.bind_eq_some_iff.1 hrun
  obtain ⟨s, hs, hrun⟩ := Option.bind_eq_some_iff.1 hrun
  obtain ⟨session, hsession, hrun⟩ := Option.bind_eq_some_iff.1 hrun
  obtain ⟨e, he, hvalues⟩ := Option.map_eq_some_iff.1 hrun
  simp only [Prod.mk.injEq, decide_eq_true_eq] at hvalues
  have hlatest : LatestOfActive s.world.registry e :=
    ⟨"Generic:e", session, hsession, .inl hvalues.1, he⟩
  exact ⟨s₀, s, e, hs₀, hs, hlatest,
    (bootstrap_events_cover hs₀ hs hvalues.2 (fun _ => 0) fun _ => 0).2.2.2.2.1 e hlatest⟩

end LlmNotch
