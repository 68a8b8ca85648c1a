import LlmNotch.EndedSessions

/-!
# Attention alerts

A session that asks for attention has its attention kind, its identifier among the known ones
and an alert. An attention command sets all three, and an acknowledgement clears all three if
the row can be written. The end, the removal and the eviction of a session, an attention
command that takes the attention back, a failed write and a restart change only some of them.

`AlertsAllowed` and `AlertsRestart` leave out these steps where they would make a difference.
In every other run there is one attention alert for the identifier of a session that asks for
attention and none for any other (`alerts_mirror_attention`). `alert_outlives_session_end` is
a run with such a step.
-/

namespace LlmNotch

/-- The session is stored and asks for attention. -/
def SessionView.Asks (v : SessionView) : Prop :=
  ∃ m, v.memory = some m ∧ m.attention ≠ .none

/-- The alerts of a session say whether it asks for attention. -/
structure Mirrors (v : SessionView) : Prop where
  known : v.known = true ↔ v.Asks
  raised : v.raised = if v.known then 1 else 0

/-! ## Conditions -/

/-- The session under this identifier, if there is one, asks for no attention. -/
def Unasked (w : World) (id : String) : Prop :=
  ∀ s, w.registry.get id = some s → s.attention = .none

/-- The steps that change the attention of a session and not its alert come while there is
nothing to change. -/
def AlertsAllowed (cfg : CoreConfig) (env : Env) (w : World) : CoreSection → Prop
  | .ingest (.sessionStart cmd) => StartsNew w cmd →
      Unasked w (cfg.sessionIdFor cmd.source cmd.externalSessionId) ∧
      ∀ id, w.registry.capacityEvictionCandidate env.sessionsRank = .ok (some id) → Unasked w id
  | .ingest (.attention cmd) => ∀ s,
      (IngestCommand.attention cmd).target w.registry = some s →
      (IngestCommand.attention cmd).accepted w s = true →
      (cmd.attention = .none → s.attention = .none) ∧
      (w.writes s = false → s.attention = .none → cmd.attention = .none)
  | .ingest (.sessionEnd cmd) => ∀ s,
      (IngestCommand.sessionEnd cmd).target w.registry = some s →
      (IngestCommand.sessionEnd cmd).accepted w s = true → s.attention = .none
  | .ingest (.acknowledgeAttention cmd) => ∀ s,
      (IngestCommand.acknowledgeAttention cmd).target w.registry = some s →
      (IngestCommand.acknowledgeAttention cmd).accepted w s = true →
      w.writes s = false → s.attention = .none
  | .removeSession id => Unasked w id
  | _ => True

/-- No row asks for attention. -/
def AlertsRestart (w : World) : Prop :=
  ∀ row ∈ w.db.sessions, row.attention = .none

/-! ## Steps -/

section Steps

variable {cfg : CoreConfig} {env : Env} {w : World} {id : String} {sec : CoreSection}
  {result : Option IngestResult} {v v' : SessionView}

/-- A change that keeps whether the session asks, and leaves its alerts. -/
theorem Mirrors.congr (h : Mirrors v) (hasks : v'.Asks ↔ v.Asks) (hknown : v'.known = v.known)
    (hraised : v'.raised = v.raised) : Mirrors v' :=
  ⟨by rw [hknown, h.known, hasks], by rw [hraised, hknown, h.raised]⟩

theorem asks_iff {m : Standing} (hm : v.memory = some m) : v.Asks ↔ m.attention ≠ .none := by
  constructor
  · rintro ⟨m', hm', hasks⟩
    rw [hm] at hm'
    exact Option.some.inj hm' ▸ hasks
  · exact fun h => ⟨m, hm, h⟩

theorem asks_congr {m m' : Standing} (hm : v.memory = some m) (hm' : v'.memory = some m')
    (h : m'.attention = m.attention) : v'.Asks ↔ v.Asks := by
  rw [asks_iff hm, asks_iff hm', h]

theorem not_asks_of_none (hm : v.memory = none) : ¬ v.Asks := by
  rintro ⟨m, hm', -⟩
  rw [hm] at hm'
  cases hm'

theorem Mirrors.of_silent (hknown : v.known = false) (hraised : v.raised = 0)
    (hasks : ¬ v.Asks) : Mirrors v := by
  refine ⟨?_, by rw [hknown, hraised]; rfl⟩
  rw [hknown]
  exact ⟨fun h => (by cases h), fun h => absurd h hasks⟩

theorem Mirrors.silent (h : Mirrors v) (hasks : ¬ v.Asks) : v.known = false ∧ v.raised = 0 := by
  have hknown : v.known = false := by
    by_contra hk
    exact hasks (h.known.1 (by simpa using hk))
  refine ⟨hknown, ?_⟩
  rw [h.raised, hknown]
  rfl

/-- After the attention command the alerts say what it asks. -/
theorem Mirrors.asked (h : Mirrors v) {m : Standing} {attention : AttentionKind}
    (hm : v'.memory = some m) (hattention : m.attention = attention)
    (hknown : v'.known = v.known) (hraised : v'.raised = v.raised)
    (hnone : attention = .none → ¬ v.Asks) : Mirrors (v'.asked attention) := by
  have hasks : (v'.asked attention).Asks ↔ attention ≠ .none := by
    rw [asks_iff ((SessionView.asked_memory v' attention).trans hm), hattention]
  by_cases hcase : attention = .none
  · have hsilent := h.silent (hnone hcase)
    refine .of_silent ?_ ?_ (fun h => hasks.1 h hcase)
    · rw [SessionView.asked, if_pos hcase]
    · rw [SessionView.asked, if_pos hcase]
      exact hraised.trans hsilent.2
  · constructor
    · rw [hasks, SessionView.asked, if_neg hcase]
      split
      · rename_i hk
        simp [hk, hcase]
      · simp [hcase]
    · have hcount := h.raised
      rw [← hknown, ← hraised] at hcount
      rw [SessionView.asked, if_neg hcase]
      split
      · rename_i hk
        rw [if_pos hk] at hcount
        exact hcount
      · rename_i hk
        rw [if_neg hk] at hcount
        simp only [hcount, if_true]

/-- A command that leaves the attention leaves the alerts. -/
theorem Mirrors.applied {command : IngestCommand} {s : Standing} {writes : Bool} (h : Mirrors v)
    (hs : v.memory = some s) (halert : ∀ v, command.alert v = v)
    (hedit : (command.edit s).attention = .none ↔ s.attention = .none) :
    Mirrors (command.applied writes s v) := by
  refine h.congr ?_ ?_ ?_
  · rw [asks_iff (IngestCommand.applied_memory ..), asks_iff hs, Ne, hedit]
  · unfold IngestCommand.applied
    rw [halert]
    split <;> rfl
  · unfold IngestCommand.applied
    rw [halert]
    split <;> rfl

theorem Mirrors.command {command : IngestCommand} {s : AgentSession}
    (h : Mirrors v) (hok : AlertsAllowed cfg env w (.ingest command))
    (ht : command.target w.registry = some s) (hs : v.memory = some s.standing)
    (ha : command.accepted w s = true) :
    Mirrors (command.applied (w.writes s) s.standing v) := by
  have hasks : v.Asks ↔ s.attention ≠ .none := asks_iff hs
  cases command with
  | attention cmd =>
    obtain ⟨hnone, hunsaved⟩ := hok s ht ha
    cases hwrites : w.writes s with
    | true =>
      refine h.asked rfl rfl rfl rfl fun hcmd => ?_
      rw [hasks]
      exact fun hne => hne (hnone hcmd)
    | false =>
      refine h.congr ?_ rfl rfl
      rw [asks_iff (IngestCommand.applied_memory ..), hasks]
      exact not_congr ⟨hnone, hunsaved hwrites⟩
  | acknowledgeAttention cmd =>
    cases hwrites : w.writes s with
    | true =>
      refine .of_silent rfl rfl ?_
      rw [asks_iff (IngestCommand.applied_memory ..)]
      exact fun hne => hne rfl
    | false =>
      refine h.congr ?_ rfl rfl
      rw [asks_iff (IngestCommand.applied_memory ..), hasks]
      exact not_congr ⟨fun _ => hok s ht ha hwrites, fun _ => rfl⟩
  | sessionEnd cmd =>
    exact h.applied hs (fun _ => rfl) ⟨fun _ => hok s ht ha, fun _ => rfl⟩
  | _ => exact h.applied hs (fun _ => rfl) Iff.rfl

theorem Unasked.not_asks (h : Unasked w id) : ¬ (w.sessionView id).Asks := by
  rintro ⟨m, hm, hasks⟩
  obtain ⟨s, hs, rfl⟩ := Option.map_eq_some_iff.1 hm
  exact hasks (h s hs)

theorem Mirrors.dropped (h : Mirrors v) (hasks : ¬ v.Asks) : Mirrors v.dropped :=
  .of_silent (h.silent hasks).1 (h.silent hasks).2 (not_asks_of_none rfl)

/-- An eviction leaves the alerts. -/
theorem alerts_of_base {v₀ : SessionView} (hv : v₀ = v ∨ v₀ = v.dropped ∧
      w.registry.capacityEvictionCandidate env.sessionsRank = .ok (some id)) :
    v₀.known = v.known ∧ v₀.raised = v.raised := by
  rcases hv with rfl | ⟨rfl, -⟩
  · exact ⟨rfl, rfl⟩
  · exact ⟨rfl, rfl⟩

theorem not_asks_opened {cmd : SessionStartCommand} (hv : v.memory = some (opened cmd)) :
    ¬ v.Asks := by
  rw [asks_iff hv]
  exact fun hne => hne rfl

theorem Move.mirrors (h : Move cfg env w id sec result v) (hok : AlertsAllowed cfg env w sec)
    (hm : Mirrors (w.sessionView id)) : Mirrors v := by
  cases h with
  | stays => exact hm
  | saved hs => exact hm.congr Iff.rfl rfl rfl
  | unrooted hs => exact hm.congr (asks_congr hs rfl rfl) rfl rfl
  | unrootedSaved hs => exact hm.congr (asks_congr hs rfl rfl) rfl rfl
  | applied ht hid hs ha hresult => exact hm.command hok ht hs ha
  | evicted hnew hc hresult => exact hm.dropped ((hok hnew).2 id hc).not_asks
  | opened hnew hid hv =>
    have hold := hm.silent (hid ▸ (hok hnew).1).not_asks
    obtain ⟨hknown, hraised⟩ := alerts_of_base hv
    exact .of_silent (hknown.trans hold.1) (hraised.trans hold.2) (not_asks_opened rfl)
  | created hnew hid hv hresult =>
    have hold := hm.silent (hid ▸ (hok hnew).1).not_asks
    obtain ⟨hknown, hraised⟩ := alerts_of_base hv
    exact .of_silent (hknown.trans hold.1) (hraised.trans hold.2) (not_asks_opened rfl)
  | marked hs hdue => exact hm.congr (asks_congr hs rfl rfl) rfl rfl
  | markedSaved hs hdue => exact hm.congr (asks_congr hs rfl rfl) rfl rfl
  | removed hs =>
    have hunasked : Unasked w id := hok
    exact hm.dropped hunasked.not_asks

theorem StepMove.mirrors {s : CoreState} {a : CoreAct} (h : StepMove cfg s id a v)
    (hok : StepsIf (AlertsAllowed cfg) AlertsRestart s a)
    (hm : Mirrors (s.world.sessionView id)) : Mirrors v := by
  cases h with
  | idle => exact hm
  | moved hnext hmove => exact hmove.mirrors (hok.of_next hnext) hm
  | restarted =>
    have hrestart : AlertsRestart s.world := hok
    refine .of_silent rfl rfl ?_
    rintro ⟨m, hrow, hasks⟩
    obtain ⟨row, hfind, rfl⟩ := Option.map_eq_some_iff.1 hrow
    exact hasks (hrestart row (List.mem_of_find?_eq_some hfind))

end Steps

/-! ## Runs -/

/-- In every run from an empty repository whose steps meet the conditions, there is one
attention alert for a session identifier if the session is stored and asks for attention, and
none otherwise. -/
theorem alerts_mirror_attention {cfg : CoreConfig} {env : Env} {settings : PublicSettings}
    {s₀ s : CoreState} {acts : List CoreAct} (hstart : startCore cfg env settings {} = some s₀)
    (hguard : Guarded (coreStep cfg) (StepsIf (AlertsAllowed cfg) AlertsRestart) s₀ acts)
    (hrun : run (coreStep cfg) s₀ acts = some s) (id : String) :
    s.world.inner.alerts.active.countP
        (fun a => a.kind = .newAttention && a.sessionId = some id) ≤ 1 ∧
      ((∃ a ∈ s.world.inner.alerts.active, a.kind = .newAttention ∧ a.sessionId = some id) ↔
        ∃ session, s.world.registry.get id = some session ∧ session.attention ≠ .none) := by
  have h₀ : Held s₀.world ∧ Mirrors (s₀.world.sessionView id) := by
    refine ⟨held_start hstart, ?_⟩
    rw [sessionView_start hstart]
    exact .of_silent rfl rfl (not_asks_of_none rfl)
  obtain ⟨-, h⟩ : Held s.world ∧ Mirrors (s.world.sessionView id) :=
    Guarded.invariant (I := fun s => Held s.world ∧ Mirrors (s.world.sessionView id))
      (fun _ _ _ hok h hstep => ⟨held_step h.1 hstep, (step_moves h.1 hstep id).mirrors hok h.2⟩)
      h₀ hguard hrun
  have hcount : s.world.inner.alerts.active.countP
      (fun a => a.kind = .newAttention && a.sessionId = some id) =
        if (s.world.sessionView id).known then 1 else 0 := h.raised
  have hasks : (s.world.sessionView id).known = true ↔
      ∃ session, s.world.registry.get id = some session ∧ session.attention ≠ .none := by
    rw [h.known]
    constructor
    · rintro ⟨m, hm, hasks⟩
      obtain ⟨session, hget, rfl⟩ := Option.map_eq_some_iff.1 hm
      exact ⟨session, hget, hasks⟩
    · rintro ⟨session, hget, hasks⟩
      exact ⟨session.standing, memory_of_lookup hget, hasks⟩
  rw [← hasks]
  constructor
  · rw [hcount]
    split <;> simp
  · have hpos := List.countP_pos_iff
      (p := fun a : ActiveAlert => a.kind = .newAttention && a.sessionId = some id)
      (l := s.world.inner.alerts.active)
    rw [hcount] at hpos
    simp only [Bool.and_eq_true, decide_eq_true_eq] at hpos
    rw [← hpos]
    split <;> simp_all

/-! ## Sample runs -/

/-- A check of the conditions, for runs without removals. -/
def alertsCheck (cfg : CoreConfig) (_env : Env) (w : World) : CoreSection → Bool
  | .ingest (.sessionStart cmd) => w.registry.len < maxSessions &&
      (w.registry.get (cfg.sessionIdFor cmd.source cmd.externalSessionId)).isNone
  | .ingest (.attention cmd) => ((IngestCommand.attention cmd).target w.registry).all fun s =>
      w.writes s && cmd.attention ≠ .none
  | .ingest (.sessionEnd cmd) => ((IngestCommand.sessionEnd cmd).target w.registry).all fun s =>
      s.attention = .none
  | .ingest (.acknowledgeAttention cmd) =>
    ((IngestCommand.acknowledgeAttention cmd).target w.registry).all w.writes
  | .removeSession _ => false
  | _ => true

theorem alertsAllowed_of_check {cfg : CoreConfig} {env : Env} {w : World} {sec : CoreSection}
    (h : alertsCheck cfg env w sec = true) : AlertsAllowed cfg env w sec := by
  cases sec with
  | ingest command =>
    cases command with
    | sessionStart cmd =>
      simp only [alertsCheck, Bool.and_eq_true, decide_eq_true_eq] at h
      refine fun _ => ⟨fun s hs => ?_, fun id hc => ?_⟩
      · rw [Option.isNone_iff_eq_none.1 h.2] at hs
        cases hs
      · rw [SessionRegistry.capacityEvictionCandidate, if_pos h.1] at hc
        cases hc
    | attention cmd =>
      intro s ht _
      simp only [alertsCheck, ht, Option.all_some, Bool.and_eq_true, decide_eq_true_eq] at h
      refine ⟨fun hnone => absurd hnone h.2, fun hwrites => ?_⟩
      rw [h.1] at hwrites
      cases hwrites
    | sessionEnd cmd =>
      intro s ht _
      simpa only [alertsCheck, ht, Option.all_some, decide_eq_true_eq] using h
    | acknowledgeAttention cmd =>
      intro s ht _ hwrites
      simp only [alertsCheck, ht, Option.all_some] at h
      rw [h] at hwrites
      cases hwrites
    | _ => trivial
  | removeSession id => cases h
  | _ => trivial

/-- The identifiers of the attention alerts after a run from an empty repository. -/
def finalAlerts (acts : List CoreAct) : Option (List (Option String)) :=
  (startCore sampleCoreConfig {} sampleSettings {}).bind fun s₀ =>
    (run (coreStep sampleCoreConfig) s₀ acts).map fun s =>
      (s.world.inner.alerts.active.filter (·.kind = .newAttention)).map (·.sessionId)

/-- A session asks for approval, the user acknowledges it, and it asks again. -/
def askingRun : List CoreAct :=
  sampleOpening .running ++
    CoreAct.perform 2 (.ingest (.attention (sampleAttention .approval))) { uuid := 2 } ++
    CoreAct.perform 3 (.ingest (.acknowledgeAttention ⟨sampleId, 0⟩)) {} ++
    CoreAct.perform 4 (.ingest (.attention (sampleAttention .question))) { uuid := 3 }

/-- The run meets the conditions. -/
theorem alerts_mirror_attention_askingRun :
    ∃ s₀ s, startCore sampleCoreConfig {} sampleSettings {} = some s₀ ∧
      run (coreStep sampleCoreConfig) s₀ askingRun = some s ∧
      ((∃ a ∈ s.world.inner.alerts.active, a.kind = .newAttention ∧
          a.sessionId = some sampleId) ↔
        ∃ session, s.world.registry.get sampleId = some session ∧
          session.attention ≠ .none) ∧ finalAlerts askingRun = some [some sampleId] := by
  have hrun : ((startCore sampleCoreConfig {} sampleSettings {}).bind fun s₀ =>
      (run (coreStep sampleCoreConfig) s₀ askingRun).map fun _ =>
        checkRun (coreStep sampleCoreConfig) (stepsCheck (alertsCheck sampleCoreConfig)
          fun _ => false) s₀ askingRun) = some true := by
    decide
  obtain ⟨s₀, hs₀, hrun⟩ := Option.bind_eq_some_iff.1 hrun
  obtain ⟨s, hs, hcheck⟩ := Option.map_eq_some_iff.1 hrun
  refine ⟨s₀, s, hs₀, hs, (alerts_mirror_attention hs₀ ?_ hs sampleId).2, by decide⟩
  exact guarded_of_stepsCheck alertsAllowed_of_check (fun h => by cases h) hcheck

/-- The alert stays after the session ended, and after it is removed. -/
theorem alert_outlives_session_end :
    finalSession endedRun = some (some ⟨.completed, .none, 0, some 0, none⟩) ∧
      finalAlerts endedRun = some [some sampleId] ∧
      finalSession (endedRun ++ CoreAct.perform 4 (.removeSession sampleId) {}) = some none ∧
      finalAlerts (endedRun ++ CoreAct.perform 4 (.removeSession sampleId) {}) =
        some [some sampleId] := by
  decide

end LlmNotch
