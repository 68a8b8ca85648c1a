import LlmNotch.SessionEffects
import Mathlib.Order.Bounds.Basic

/-!
# When a session was last active

Every handler stores the time its command says it happened, whatever time is stored already,
and a tick marks a session as stale if the stored time is long ago. `Recorded` keeps beside a
run the times of the events ingested for every stored session.

If no command is older than what its session has (`InOrder`), the stored time is at least
every recorded one, and a tick makes a session stale only if all its events are long ago; if
besides no command fails on the way (`Completes`), the stored time of a session that is not
stale is the latest recorded one (`last_event_latest`). `late_event_makes_stale` is a run
with a command that comes late.
-/

namespace LlmNotch

/-! ## Recording times -/

/-- A core, and the times of the events ingested for its sessions. -/
structure Recorded where
  state : CoreState
  times : String → List ℤ

/-- The time of the event a section ingests for this identifier, if it does. -/
def eventTime (cfg : CoreConfig) (env : Env) (w : World) (id : String) (sec : CoreSection) :
    Option ℤ :=
  match sec with
  | .ingest command =>
    if (sec.result cfg env w).any (fun r => r.sessionId = some id && !r.idempotentReplay) then
      some command.occurredAtMs
    else none
  | _ => none

/-- A step, and the events it ingests. The times of a session go with it. -/
def recordStep (cfg : CoreConfig) (r : Recorded) (a : CoreAct) : Option Recorded :=
  (coreStep cfg r.state a).map fun t =>
    ⟨t, fun id => if (t.world.registry.get id).isNone then []
      else ((r.state.next a).bind fun p =>
        eventTime cfg p.1 (r.state.world.entered p.1) id p.2).toList ++ r.times id⟩

/-! ## Conditions -/

/-- The command is not older than the last event of the session it is about. -/
def InOrder (cfg : CoreConfig) (_env : Env) (w : World) : CoreSection → Prop
  | .ingest (.sessionStart cmd) => StartsNew w cmd → ∀ s,
      w.registry.get (cfg.sessionIdFor cmd.source cmd.externalSessionId) = some s →
      s.lastEventAtMs ≤ cmd.occurredAtMs
  | .ingest command => ∀ s, command.target w.registry = some s → command.accepted w s = true →
      s.lastEventAtMs ≤ command.occurredAtMs
  | _ => True

/-- A command that starts or changes a session does not fail on the way. -/
def Completes (cfg : CoreConfig) (env : Env) (w : World) : CoreSection → Prop
  | .ingest (.sessionStart cmd) => StartsNew w cmd →
      ((CoreSection.ingest (.sessionStart cmd)).result cfg env w).isSome = true
  | .ingest command => ∀ s, command.target w.registry = some s → command.accepted w s = true →
      ((CoreSection.ingest command).result cfg env w).isSome = true
  | _ => True

/-! ## Steps -/

/-- The stored times are at least the recorded ones. -/
structure Covers (v : SessionView) (times : List ℤ) : Prop where
  absent : v.memory = none → times = []
  memory : ∀ {m}, v.memory = some m → ∀ t ∈ times, t ≤ m.lastEventAtMs
  row : ∀ {r}, v.row = some r → ∀ t ∈ times, t ≤ r.lastEventAtMs

/-- The stored times of a session that is not stale are recorded. -/
structure Recalls (v : SessionView) (times : List ℤ) : Prop where
  memory : ∀ {m}, v.memory = some m → m.status ≠ .stale → m.lastEventAtMs ∈ times
  row : ∀ {r}, v.row = some r → r.status ≠ .stale → r.lastEventAtMs ∈ times

section Steps

variable {cfg : CoreConfig} {env : Env} {w : World} {id : String} {sec : CoreSection}
  {v : SessionView} {times : List ℤ}

variable {command : IngestCommand} {m s : Standing} {v' : SessionView}
  {result : Option IngestResult}

theorem eventTime_eq_some {t : ℤ} (h : eventTime cfg env w id (.ingest command) = some t) :
    t = command.occurredAtMs := by
  simp only [eventTime] at h
  split at h
  · exact (Option.some.inj h).symm
  · cases h

theorem eventTime_of_reports (h : Reports ((CoreSection.ingest command).result cfg env w) id) :
    eventTime cfg env w id (.ingest command) = some command.occurredAtMs := by
  obtain ⟨r, hr, hid, hreplay⟩ := h
  simp only [eventTime, hr, Option.any_some, hid, hreplay]
  rfl

theorem eventTime_of_not_reports (h : ¬ Reports (sec.result cfg env w) id) :
    eventTime cfg env w id sec = none := by
  cases sec with
  | ingest command =>
    simp only [eventTime]
    rw [if_neg]
    intro hany
    refine h ?_
    obtain ⟨r, hr, hvalues⟩ := (Option.any_eq_true _ _).1 hany
    simp only [Bool.and_eq_true, decide_eq_true_eq, Bool.not_eq_true'] at hvalues
    exact ⟨r, hr, hvalues.1, hvalues.2⟩
  | _ => rfl

/-- What is due was last active long ago. -/
theorem Due.le {now : ℤ} (h : Due now s) : staleSessionMs ≤ now - s.lastEventAtMs := by
  have hsub := h.2
  unfold saturatingSubI64 at hsub
  have hbound : ¬ staleSessionMs ≤ -2 ^ 63 := by decide
  rcases le_max_iff.1 hsub with hlow | hhigh
  · exact absurd hlow hbound
  · exact (le_min_iff.1 hhigh).2

theorem Due.last_le {now : ℤ} (h : Due now s) : s.lastEventAtMs ≤ now := by
  have hle := h.le
  have hpos : 0 ≤ staleSessionMs := by decide
  omega

/-- The times recorded after a step. -/
def recordedTimes (v : SessionView) (time : Option ℤ) (times : List ℤ) : List ℤ :=
  if v.memory.isNone then [] else time.toList ++ times

theorem recordedTimes_some (hm : v.memory = some m) (time : Option ℤ) (times : List ℤ) :
    recordedTimes v time times = time.toList ++ times := by
  simp [recordedTimes, hm]

theorem mem_recordedTimes {time : Option ℤ} {t : ℤ} (h : t ∈ recordedTimes v time times) :
    time = some t ∨ t ∈ times := by
  unfold recordedTimes at h
  split at h
  · cases h
  · rcases List.mem_append.1 h with h | h
    · exact Or.inl (by simpa using h)
    · exact Or.inr h

theorem Covers.dropped (time : Option ℤ) : Covers v.dropped (recordedTimes v.dropped time times) :=
  ⟨fun _ => rfl, fun h => (by cases h), fun h => (by cases h)⟩

/-- The session has a later time, and the row has its old or the new one. -/
theorem Covers.advance {time : Option ℤ} (h : Covers v times) (hm : v'.memory = some m)
    (hold : ∀ s, v.memory = some s → s.lastEventAtMs ≤ m.lastEventAtMs)
    (htime : ∀ t, time = some t → t = m.lastEventAtMs)
    (hrow : ∀ r, v'.row = some r → r.lastEventAtMs = m.lastEventAtMs ∨
      v.row = some r ∧ time = none) : Covers v' (recordedTimes v' time times) := by
  have hle : ∀ t ∈ recordedTimes v' time times, t ≤ m.lastEventAtMs := by
    intro t ht
    rcases mem_recordedTimes ht with hnew | hmem
    · exact (htime t hnew).le
    · cases hv : v.memory with
      | none =>
        rw [h.absent hv] at hmem
        cases hmem
      | some s => exact (h.memory hv t hmem).trans (hold s hv)
  refine ⟨fun hnone => ?_, fun {m'} hm' => ?_, fun {r} hr t ht => ?_⟩
  · rw [hm] at hnone
    cases hnone
  · exact Option.some.inj (hm.symm.trans hm') ▸ hle
  · rcases hrow r hr with hlast | ⟨hr, rfl⟩
    · exact hlast ▸ hle t ht
    · refine h.row hr t ((mem_recordedTimes ht).resolve_left fun hnone => ?_)
      cases hnone

/-- A restart puts the row in the place of the session. -/
theorem Covers.restart (h : Covers v times) : Covers ⟨v.row, v.row, false, 0⟩
    (recordedTimes ⟨v.row, v.row, false, 0⟩ none times) := by
  have hrow : ∀ {r}, v.row = some r →
      ∀ t ∈ recordedTimes ⟨v.row, v.row, false, 0⟩ none times, t ≤ r.lastEventAtMs := by
    intro r hr t ht
    refine h.row hr t ((mem_recordedTimes ht).resolve_left fun hnone => ?_)
    cases hnone
  refine ⟨fun hnone => ?_, hrow, hrow⟩
  exact if_pos (Option.isNone_iff_eq_none.2 hnone)

/-- An accepted command stores its time. -/
theorem edit_lastEventAtMs {s : AgentSession} (ht : command.target w.registry = some s) :
    (command.edit s.standing).lastEventAtMs = command.occurredAtMs := by
  cases command with
  | sessionStart cmd => cases ht
  | integrationHealth cmd => cases ht
  | _ => rfl

theorem InOrder.of_target {s : AgentSession} (h : InOrder cfg env w (.ingest command))
    (ht : command.target w.registry = some s) (ha : command.accepted w s = true) :
    s.lastEventAtMs ≤ command.occurredAtMs := by
  cases command with
  | sessionStart cmd => cases ht
  | _ => exact h s ht ha

theorem InOrder.of_start {cmd : SessionStartCommand}
    (h : InOrder cfg env w (.ingest (.sessionStart cmd))) (hnew : StartsNew w cmd)
    (hid : cfg.sessionIdFor cmd.source cmd.externalSessionId = id) (s : Standing)
    (hs : (w.sessionView id).memory = some s) : s.lastEventAtMs ≤ cmd.occurredAtMs := by
  obtain ⟨session, hget, rfl⟩ := Option.map_eq_some_iff.1 hs
  exact h hnew session (hid ▸ hget)

theorem row_of_base {v₀ : SessionView} {r : Standing} (hv : v₀ = v ∨ v₀ = v.dropped ∧
      w.registry.capacityEvictionCandidate env.sessionsRank = .ok (some id))
    (hr : v₀.row = some r) : v.row = some r := by
  rcases hv with rfl | ⟨rfl, -⟩
  · exact hr
  · cases hr

theorem recordedTimes_none (h : Covers v times) : recordedTimes v none times = times := by
  unfold recordedTimes
  split
  · rename_i hnone
    exact (h.absent (Option.isNone_iff_eq_none.1 hnone)).symm
  · rfl

/-- The session keeps its time or gets a later one, and nothing is recorded. -/
theorem Covers.keep (h : Covers v times) (hs : v.memory = some s) (hm : v'.memory = some m)
    (hle : s.lastEventAtMs ≤ m.lastEventAtMs) (hrow : v'.row = v.row ∨ v'.row = some m) :
    Covers v' (recordedTimes v' none times) := by
  refine h.advance hm (fun s' hs' => ?_) (fun _ h => (by cases h)) fun r hr => ?_
  · obtain rfl := Option.some.inj (hs.symm.trans hs')
    exact hle
  · rcases hrow with hsame | hnew
    · exact Or.inr ⟨hsame ▸ hr, rfl⟩
    · obtain rfl := Option.some.inj (hnew.symm.trans hr)
      exact Or.inl rfl

theorem Move.covers (h : Move cfg env w id sec result v) (hresult : sec.result cfg env w = result)
    (hok : InOrder cfg env w sec) (hi : Covers (w.sessionView id) times) :
    Covers v (recordedTimes v (eventTime cfg env w id sec) times) := by
  have hsilent : ¬ Reports result id → eventTime cfg env w id sec = none := by
    rw [← hresult]
    exact eventTime_of_not_reports
  cases h with
  | stays hnot =>
    rw [hsilent hnot, recordedTimes_none hi]
    exact hi
  | saved hs =>
    rw [hsilent (not_reports_none id)]
    exact hi.keep hs hs le_rfl (Or.inr rfl)
  | unrooted hs =>
    rw [hsilent (not_reports_none id)]
    exact hi.keep hs rfl le_rfl (Or.inl rfl)
  | unrootedSaved hs =>
    rw [hsilent (not_reports_none id)]
    exact hi.keep hs rfl le_rfl (Or.inr rfl)
  | @applied command s _ ht hid hs ha hreports =>
    have hlast := edit_lastEventAtMs ht
    refine hi.advance (IngestCommand.applied_memory ..) (fun s' hs' => ?_) (fun t htime => ?_)
      fun r hr => ?_
    · obtain rfl := Option.some.inj (hs.symm.trans hs')
      rw [hlast]
      exact hok.of_target ht ha
    · rw [hlast]
      exact eventTime_eq_some htime
    · rw [IngestCommand.applied_row] at hr
      split at hr
      · exact Or.inl (Option.some.inj hr ▸ rfl)
      · rename_i hwrites
        refine Or.inr ⟨hr, hsilent ?_⟩
        rcases hreports with rfl | ⟨-, hw⟩
        · exact not_reports_none id
        · exact absurd hw hwrites
  | evicted => exact .dropped _
  | opened hnew hid hv =>
    rw [hsilent (not_reports_none id)]
    exact hi.advance rfl (hok.of_start hnew hid) (fun _ h => (by cases h))
      fun r hr => Or.inr ⟨row_of_base hv hr, rfl⟩
  | created hnew hid hv hreports =>
    exact hi.advance rfl (hok.of_start hnew hid) (fun t htime => eventTime_eq_some htime)
      fun r hr => Or.inl (Option.some.inj hr ▸ rfl)
  | marked hs hdue =>
    rw [hsilent (not_reports_none id)]
    exact hi.keep hs rfl hdue.last_le (Or.inl rfl)
  | markedSaved hs hdue =>
    rw [hsilent (not_reports_none id)]
    exact hi.keep hs rfl hdue.last_le (Or.inr rfl)
  | removed => exact .dropped _

/-! ### Recorded times -/

theorem Recalls.dropped (time : Option ℤ) :
    Recalls v.dropped (recordedTimes v.dropped time times) :=
  ⟨fun h => (by cases h), fun h => (by cases h)⟩

/-- The session and the row keep their times or are stale, and nothing is recorded. -/
theorem Recalls.keep (h : Recalls v times) (hs : v.memory = some s) (hm : v'.memory = some m)
    (hlast : m.status ≠ .stale → m.lastEventAtMs = s.lastEventAtMs ∧ s.status ≠ .stale)
    (hrow : v'.row = v.row ∨ v'.row = some m) : Recalls v' (recordedTimes v' none times) := by
  rw [recordedTimes_some hm, Option.toList_none, List.nil_append]
  have hmemory : m.status ≠ .stale → m.lastEventAtMs ∈ times := by
    intro hstale
    obtain ⟨heq, hstale'⟩ := hlast hstale
    exact heq ▸ h.memory hs hstale'
  refine ⟨fun {m'} hm' => ?_, fun {r} hr => ?_⟩
  · exact Option.some.inj (hm.symm.trans hm') ▸ hmemory
  · rcases hrow with hsame | hnew
    · exact h.row (hsame ▸ hr)
    · exact Option.some.inj (hnew.symm.trans hr) ▸ hmemory

/-- The session and the row have the recorded time. -/
theorem Recalls.record {time : ℤ} (hm : v.memory = some m) (hr : v.row = some m)
    (hlast : m.lastEventAtMs = time) : Recalls v (recordedTimes v (some time) times) := by
  have hmem : m.lastEventAtMs ∈ recordedTimes v (some time) times := by
    rw [recordedTimes_some hm, hlast]
    simp
  exact ⟨fun h _ => Option.some.inj (hm.symm.trans h) ▸ hmem,
    fun h _ => Option.some.inj (hr.symm.trans h) ▸ hmem⟩

theorem Recalls.restart (h : Recalls v times) : Recalls ⟨v.row, v.row, false, 0⟩
    (recordedTimes ⟨v.row, v.row, false, 0⟩ none times) := by
  have hrow : ∀ {r}, v.row = some r → r.status ≠ .stale →
      r.lastEventAtMs ∈ recordedTimes ⟨v.row, v.row, false, 0⟩ none times := by
    intro r hr hstale
    rw [recordedTimes_some hr]
    exact h.row hr hstale
  exact ⟨hrow, hrow⟩

theorem Completes.of_target {s : AgentSession} (h : Completes cfg env w (.ingest command))
    (ht : command.target w.registry = some s) (ha : command.accepted w s = true) :
    ((CoreSection.ingest command).result cfg env w).isSome = true := by
  cases command with
  | sessionStart cmd => cases ht
  | _ => exact h s ht ha

theorem Move.recalls (h : Move cfg env w id sec result v) (hresult : sec.result cfg env w = result)
    (hok : Completes cfg env w sec) (hc : Covers (w.sessionView id) times)
    (hi : Recalls (w.sessionView id) times) :
    Recalls v (recordedTimes v (eventTime cfg env w id sec) times) := by
  have hsilent : ¬ Reports result id → eventTime cfg env w id sec = none := by
    rw [← hresult]
    exact eventTime_of_not_reports
  cases h with
  | stays hnot =>
    rw [hsilent hnot, recordedTimes_none hc]
    exact hi
  | saved hs =>
    rw [hsilent (not_reports_none id)]
    exact hi.keep hs hs (fun h => ⟨rfl, h⟩) (Or.inr rfl)
  | unrooted hs =>
    rw [hsilent (not_reports_none id)]
    exact hi.keep hs rfl (fun h => ⟨rfl, h⟩) (Or.inl rfl)
  | unrootedSaved hs =>
    rw [hsilent (not_reports_none id)]
    exact hi.keep hs rfl (fun h => ⟨rfl, h⟩) (Or.inr rfl)
  | applied ht hid hs ha hreports =>
    have hsome := hok.of_target ht ha
    rw [hresult] at hsome
    obtain ⟨hreports, hwrites⟩ := hreports.resolve_left (by rintro rfl; cases hsome)
    rw [eventTime_of_reports (hresult ▸ hreports)]
    refine .record (IngestCommand.applied_memory ..) ?_ (edit_lastEventAtMs ht)
    rw [IngestCommand.applied_row, if_pos hwrites]
  | evicted => exact .dropped _
  | opened hnew hid hv =>
    have hsome := hok hnew
    rw [hresult] at hsome
    cases hsome
  | created hnew hid hv hreports =>
    have hsome := hok hnew
    rw [hresult] at hsome
    have hreports := hreports.resolve_left (by rintro rfl; cases hsome)
    rw [eventTime_of_reports (hresult ▸ hreports)]
    exact .record rfl rfl rfl
  | marked hs hdue =>
    rw [hsilent (not_reports_none id)]
    exact hi.keep hs rfl (fun h => absurd rfl h) (Or.inl rfl)
  | markedSaved hs hdue =>
    rw [hsilent (not_reports_none id)]
    exact hi.keep hs rfl (fun h => absurd rfl h) (Or.inr rfl)
  | removed => exact .dropped _

end Steps

/-! ## Runs -/

/-- The condition `p` on the sections of a run that is recorded. -/
def SectionsIf (p : Env → World → CoreSection → Prop) (r : Recorded) (a : CoreAct) : Prop :=
  StepsIf p (fun _ => True) r.state a

/-- Rows have their sessions, and stored times are at least the recorded ones. -/
structure CoversAll (r : Recorded) : Prop where
  held : Held r.state.world
  covers : ∀ id, Covers (r.state.world.sessionView id) (r.times id)

/-- The stored times of sessions that are not stale are recorded. -/
def RecallsAll (r : Recorded) : Prop :=
  ∀ id, Recalls (r.state.world.sessionView id) (r.times id)

section Runs

variable {cfg : CoreConfig} {r r' : Recorded} {a : CoreAct}

/-- A recorded step is a step. -/
theorem recordStep_spec (h : recordStep cfg r a = some r') :
    coreStep cfg r.state a = some r'.state ∧ ∀ id, r'.times id =
      recordedTimes (r'.state.world.sessionView id) ((r.state.next a).bind fun p =>
        eventTime cfg p.1 (r.state.world.entered p.1) id p.2) (r.times id) := by
  obtain ⟨t, ht, rfl⟩ := Option.map_eq_some_iff.1 h
  refine ⟨ht, fun id => ?_⟩
  simp only [recordedTimes, World.sessionView, Option.isNone_map]

theorem coversAll_step (hok : SectionsIf (InOrder cfg) r a) (h : CoversAll r)
    (hstep : recordStep cfg r a = some r') : CoversAll r' := by
  obtain ⟨hcore, htimes⟩ := recordStep_spec hstep
  refine ⟨held_step h.held hcore, fun id => ?_⟩
  have hmove := step_moves h.held hcore id
  rw [htimes id]
  generalize r'.state.world.sessionView id = v at hmove
  cases hmove with
  | idle hnext =>
    rw [hnext, Option.bind_none, recordedTimes_none (h.covers id)]
    exact h.covers id
  | moved hnext hmove =>
    rw [hnext, Option.bind_some]
    exact hmove.covers rfl (hok.of_next hnext) (h.covers id)
  | restarted => exact (h.covers id).restart

theorem recallsAll_step (hok : SectionsIf (Completes cfg) r a) (hc : CoversAll r)
    (h : RecallsAll r) (hstep : recordStep cfg r a = some r') : RecallsAll r' := by
  obtain ⟨hcore, htimes⟩ := recordStep_spec hstep
  intro id
  have hmove := step_moves hc.held hcore id
  rw [htimes id]
  generalize r'.state.world.sessionView id = v at hmove
  cases hmove with
  | idle hnext =>
    rw [hnext, Option.bind_none, recordedTimes_none (hc.covers id)]
    exact h id
  | moved hnext hmove =>
    rw [hnext, Option.bind_some]
    exact hmove.recalls rfl (hok.of_next hnext) (hc.covers id) (h id)
  | restarted => exact (h id).restart

/-- A tick marks only sessions whose recorded events are long ago. -/
theorem stale_of_tick {env : Env} {t : CoreState} {id : String} {before after : AgentSession}
    (h : CoversAll r) (hnext : r.state.next a = some (env, .tick))
    (hstep : coreStep cfg r.state a = some t)
    (hbefore : r.state.world.registry.get id = some before)
    (hafter : t.world.registry.get id = some after) (hactive : before.status ≠ .stale)
    (hstale : after.status = .stale) :
    ∀ time ∈ r.times id, staleSessionMs ≤ env.now - time := by
  have hmemory : (r.state.world.sessionView id).memory = some before.standing :=
    memory_of_lookup hbefore
  have hmemory' : (t.world.sessionView id).memory = some after.standing :=
    memory_of_lookup hafter
  have hmove := step_moves h.held hstep id
  generalize t.world.sessionView id = v at hmove hmemory'
  -- a session whose status stays is not one that becomes stale
  have hsame : v.memory = (r.state.world.sessionView id).memory → False := by
    intro hv
    rw [hmemory', hmemory] at hv
    have hstatus : after.status = before.status :=
      congrArg Standing.status (Option.some.inj hv)
    exact hactive (hstatus ▸ hstale)
  have hdue : ∀ {s}, (r.state.world.sessionView id).memory = some s → Due env.now s →
      ∀ time ∈ r.times id, staleSessionMs ≤ env.now - time := by
    intro s hs hdue time htime
    have hle := (h.covers id).memory hs time htime
    have hlong := hdue.le
    omega
  cases hmove with
  | idle => exact absurd rfl hsame
  | restarted => cases hnext
  | moved hnext' hmove =>
    obtain ⟨rfl, rfl⟩ := Prod.mk.inj (Option.some.inj (hnext.symm.trans hnext'))
    generalize CoreSection.result cfg env (r.state.world.entered env) .tick = result at hmove
    cases hmove with
    | stays => exact absurd rfl hsame
    | saved => exact absurd rfl hsame
    | marked hs hd => exact hdue hs hd
    | markedSaved hs hd => exact hdue hs hd

end Runs

/-- In every run from an empty repository in which no command is older than the last event of
its session, the stored time is at least that of every event ingested for the session, and a
tick makes a session stale only if all its events are long ago. If no command fails on the
way either, the stored time of a session that is not stale is the latest of its events. -/
theorem last_event_latest {cfg : CoreConfig} {env : Env} {settings : PublicSettings}
    {s₀ : CoreState} {acts : List CoreAct} {r : Recorded}
    (hstart : startCore cfg env settings {} = some s₀)
    (hguard : Guarded (recordStep cfg) (SectionsIf (InOrder cfg)) ⟨s₀, fun _ => []⟩ acts)
    (hrun : run (recordStep cfg) ⟨s₀, fun _ => []⟩ acts = some r) :
    (∀ id session, r.state.world.registry.get id = some session →
      ∀ time ∈ r.times id, time ≤ session.lastEventAtMs) ∧
    (∀ a env t id before after, r.state.next a = some (env, .tick) →
      coreStep cfg r.state a = some t → r.state.world.registry.get id = some before →
      t.world.registry.get id = some after → before.status ≠ .stale → after.status = .stale →
      ∀ time ∈ r.times id, staleSessionMs ≤ env.now - time) ∧
    (Guarded (recordStep cfg) (SectionsIf (Completes cfg)) ⟨s₀, fun _ => []⟩ acts →
      ∀ id session, r.state.world.registry.get id = some session → session.status ≠ .stale →
        IsGreatest {time | time ∈ r.times id} session.lastEventAtMs) := by
  have h₀ : CoversAll ⟨s₀, fun _ => []⟩ := by
    refine ⟨held_start hstart, fun id => ?_⟩
    rw [sessionView_start hstart]
    exact ⟨fun _ => rfl, fun h => (by cases h), fun h => (by cases h)⟩
  have hr₀ : RecallsAll ⟨s₀, fun _ => []⟩ := by
    intro id
    rw [sessionView_start hstart]
    exact ⟨fun h => (by cases h), fun h => (by cases h)⟩
  have h : CoversAll r := Guarded.invariant (fun _ _ _ hok h hstep => coversAll_step hok h hstep)
    h₀ hguard hrun
  have hlatest : ∀ id session, r.state.world.registry.get id = some session →
      ∀ time ∈ r.times id, time ≤ session.lastEventAtMs :=
    fun id session hget => (h.covers id).memory (memory_of_lookup hget)
  refine ⟨hlatest, ?_, fun hcompletes id session hget hstale => ?_⟩
  · exact fun a env t id before after hnext hstep hb ha hactive hstale =>
      stale_of_tick h hnext hstep hb ha hactive hstale
  · obtain ⟨-, hrecalls⟩ : CoversAll r ∧ RecallsAll r :=
      Guarded.invariant (I := fun r => CoversAll r ∧ RecallsAll r)
        (fun _ _ _ hok h hstep => ⟨coversAll_step hok.1 h.1 hstep,
          recallsAll_step hok.2 h.1 h.2 hstep⟩) ⟨h₀, hr₀⟩ (hguard.and hcompletes) hrun
    exact ⟨(hrecalls id).memory (memory_of_lookup hget) hstale, hlatest id session hget⟩

/-! ## Sample runs -/

/-- A check of the order. -/
def inOrderCheck (cfg : CoreConfig) (_env : Env) (w : World) : CoreSection → Bool
  | .ingest (.sessionStart cmd) =>
    (w.registry.get (cfg.sessionIdFor cmd.source cmd.externalSessionId)).isNone
  | .ingest command => (command.target w.registry).all fun s =>
      s.lastEventAtMs ≤ command.occurredAtMs
  | _ => true

/-- A check that no command fails. -/
def completesCheck (cfg : CoreConfig) (env : Env) (w : World) : CoreSection → Bool
  | .ingest command => ((CoreSection.ingest command).result cfg env w).isSome
  | _ => true

section Checks

variable {cfg : CoreConfig} {env : Env} {w : World} {sec : CoreSection}

theorem inOrder_of_check (h : inOrderCheck cfg env w sec = true) : InOrder cfg env w sec := by
  cases sec with
  | ingest command =>
    have htarget : ∀ s, command.target w.registry = some s → (command.target w.registry).all
        (fun s => decide (s.lastEventAtMs ≤ command.occurredAtMs)) = true →
        s.lastEventAtMs ≤ command.occurredAtMs := by
      intro s hs hall
      rw [hs] at hall
      exact of_decide_eq_true hall
    cases command with
    | sessionStart cmd =>
      intro _ s hs
      rw [Option.isNone_iff_eq_none.1 h] at hs
      cases hs
    | _ => exact fun s hs _ => htarget s hs h
  | _ => trivial

theorem completes_of_check (h : completesCheck cfg env w sec = true) :
    Completes cfg env w sec := by
  cases sec with
  | ingest command =>
    cases command with
    | sessionStart cmd => exact fun _ => h
    | _ => exact fun _ _ _ => h
  | _ => trivial

theorem guarded_of_sectionsCheck {p : Env → World → CoreSection → Prop}
    {check : Env → World → CoreSection → Bool} {r : Recorded} {acts : List CoreAct}
    (hcheck : ∀ {env w sec}, check env w sec = true → p env w sec)
    (h : checkRun (recordStep cfg) (fun r a => stepsCheck check (fun _ => true) r.state a) r acts =
      true) : Guarded (recordStep cfg) (SectionsIf p) r acts :=
  Guarded.of_sound _ (fun _ _ ha => stepsIf_of_check hcheck (fun _ => trivial) ha) h

end Checks

/-- An event of the session. -/
def eventAt (tid : ℕ) (occurredAtMs : ℤ) : List CoreAct :=
  CoreAct.perform tid (.ingest (.lifecycleEvent
    { sampleEvent .generic "e" with occurredAtMs := occurredAtMs })) { uuid := tid }

/-- A session starts at 0 and has an event long after. -/
def activeRun : List CoreAct :=
  sampleOpening .running ++ eventAt 2 10000000

/-- The run meets the conditions. -/
theorem last_event_latest_activeRun :
    ∃ s₀ r, startCore sampleCoreConfig {} sampleSettings {} = some s₀ ∧
      run (recordStep sampleCoreConfig) ⟨s₀, fun _ => []⟩ activeRun = some r ∧
      r.times sampleId = [10000000, 0] ∧
      ∀ id session, r.state.world.registry.get id = some session → session.status ≠ .stale →
        IsGreatest {time | time ∈ r.times id} session.lastEventAtMs := by
  have hrun : ((startCore sampleCoreConfig {} sampleSettings {}).bind fun s₀ =>
      (run (recordStep sampleCoreConfig) ⟨s₀, fun _ => []⟩ activeRun).map fun r =>
        (checkRun (recordStep sampleCoreConfig) (fun r a => stepsCheck
            (inOrderCheck sampleCoreConfig) (fun _ => true) r.state a) ⟨s₀, fun _ => []⟩ activeRun,
          checkRun (recordStep sampleCoreConfig) (fun r a => stepsCheck
            (completesCheck sampleCoreConfig) (fun _ => true) r.state a) ⟨s₀, fun _ => []⟩
              activeRun, r.times sampleId)) = some (true, true, [10000000, 0]) := by
    decide
  obtain ⟨s₀, hs₀, hrun⟩ := Option.bind_eq_some_iff.1 hrun
  obtain ⟨r, hr, hvalues⟩ := Option.map_eq_some_iff.1 hrun
  simp only [Prod.mk.injEq] at hvalues
  obtain ⟨horder, hcompletes, htimes⟩ := hvalues
  refine ⟨s₀, r, hs₀, hr, htimes, ?_⟩
  exact (last_event_latest hs₀ (guarded_of_sectionsCheck inOrder_of_check horder) hr).2.2
    (guarded_of_sectionsCheck completes_of_check hcompletes)

/-- After a late event the stored time is not the latest one, and a tick one millisecond after
the latest event makes the session stale. -/
theorem late_event_makes_stale :
    ∃ s₀ r t, startCore sampleCoreConfig {} sampleSettings {} = some s₀ ∧
      run (recordStep sampleCoreConfig) ⟨s₀, fun _ => []⟩
        (activeRun ++ eventAt 3 1 ++ [.call 4 .tick]) = some r ∧
      r.times sampleId = [1, 10000000, 0] ∧
      (r.state.world.sessionView sampleId).memory = some ⟨.running, .none, 1, none, none⟩ ∧
      coreStep sampleCoreConfig r.state (.advance 4 { now := 10000001 }) = some t ∧
      (t.world.sessionView sampleId).memory = some ⟨.stale, .none, 10000001, none, none⟩ := by
  have hrun : ((startCore sampleCoreConfig {} sampleSettings {}).bind fun s₀ =>
      (run (recordStep sampleCoreConfig) ⟨s₀, fun _ => []⟩
        (activeRun ++ eventAt 3 1 ++ [.call 4 .tick])).bind fun r =>
          (coreStep sampleCoreConfig r.state (.advance 4 { now := 10000001 })).map fun t =>
            (r.times sampleId, (r.state.world.sessionView sampleId).memory,
              (t.world.sessionView sampleId).memory)) =
      some ([1, 10000000, 0], some ⟨.running, .none, 1, none, none⟩,
        some ⟨.stale, .none, 10000001, none, none⟩) := by
    decide +kernel
  obtain ⟨s₀, hs₀, hrun⟩ := Option.bind_eq_some_iff.1 hrun
  obtain ⟨r, hr, hrun⟩ := Option.bind_eq_some_iff.1 hrun
  obtain ⟨t, ht, hvalues⟩ := Option.map_eq_some_iff.1 hrun
  simp only [Prod.mk.injEq] at hvalues
  exact ⟨s₀, r, t, hs₀, hr, hvalues.1, hvalues.2.1, ht, hvalues.2.2⟩

end LlmNotch
