import LlmNotch.StatusHistory

/-!
# Sessions that ended

A session end stores when the session ended and clears its attention. The other ways to the
statuses completed and failed, an update and a start, do not, and the commands for attention
and the process root do not look at the status. `QuietAllowed` and `QuietRestart` leave these
steps out. In every other run a completed or failed session has its end and no attention, and
from then on no step gives it attention, another process root or an active status
(`ended_quiet`). `finished_not_quiet` has runs with such steps.
-/

namespace LlmNotch

/-- The session has the time of its end. -/
def Standing.Ended (s : Standing) : Prop :=
  s.endedAtMs.isSome = true

instance (s : Standing) : Decidable s.Ended :=
  inferInstanceAs (Decidable (s.endedAtMs.isSome = true))

/-- The session is completed or failed. -/
def Standing.Finished (s : Standing) : Prop :=
  s.status = .completed ∨ s.status = .failed

/-- A session that is completed or failed has its end, and one that has its end has a final
status and asks for no attention. -/
structure Calm (s : Standing) : Prop where
  ended : s.Finished → s.Ended
  attention : s.Ended → s.attention = .none
  terminal : s.Ended → isTerminal s.status = true

/-- A session that has its end keeps it, and gets no other process root. -/
def StaysEnded (s t : Standing) : Prop :=
  s.Ended → t.Ended ∧ (t.processRoot = none ∨ t.processRoot = s.processRoot)

/-! ## Conditions -/

/-- No start takes a stored identifier or fails at once, no update completes or fails a
session that has no end, and a session that has one gets no attention and no process root. -/
def QuietAllowed (cfg : CoreConfig) (_env : Env) (w : World) : CoreSection → Prop
  | .ingest (.sessionStart cmd) => StartsNew w cmd → cmd.status ≠ .failed ∧
      w.registry.get (cfg.sessionIdFor cmd.source cmd.externalSessionId) = none
  | .ingest (.sessionUpdate cmd) => ∀ s,
      (IngestCommand.sessionUpdate cmd).target w.registry = some s →
      (IngestCommand.sessionUpdate cmd).accepted w s = true → ¬ s.standing.Ended →
      ∀ status, cmd.status = some status → status ≠ .completed ∧ status ≠ .failed
  | .ingest (.attention cmd) => ∀ s,
      (IngestCommand.attention cmd).target w.registry = some s →
      (IngestCommand.attention cmd).accepted w s = true → s.standing.Ended →
      cmd.attention = .none
  | .ingest (.registerProcessRoot cmd) => ∀ s,
      (IngestCommand.registerProcessRoot cmd).target w.registry = some s →
      (IngestCommand.registerProcessRoot cmd).accepted w s = true → ¬ s.standing.Ended
  | _ => True

/-- The row of a session that has its end has it too, and no other process root. -/
def QuietRestart (w : World) : Prop :=
  ∀ id m r, (w.sessionView id).memory = some m → (w.sessionView id).row = some r →
    StaysEnded m r

/-! ## Steps -/

section Steps

variable {cfg : CoreConfig} {env : Env} {w : World} {id : String} {sec : CoreSection}
  {result : Option IngestResult} {v : SessionView}

/-- Memory and the row are calm. -/
structure CalmView (v : SessionView) : Prop where
  memory : ∀ {m}, v.memory = some m → Calm m
  row : ∀ {r}, v.row = some r → Calm r

theorem StaysEnded.refl (s : Standing) : StaysEnded s s :=
  fun h => ⟨h, Or.inr rfl⟩

/-- An allowed command keeps its session calm. -/
theorem calm_edit {command : IngestCommand} {s : AgentSession}
    (hok : QuietAllowed cfg env w (.ingest command)) (ht : command.target w.registry = some s)
    (ha : command.accepted w s = true) (h : Calm s.standing) :
    Calm (command.edit s.standing) ∧ StaysEnded s.standing (command.edit s.standing) := by
  have hvalid := valid_of_accepted ha
  cases command with
  | sessionUpdate cmd =>
    refine ⟨⟨fun hfinished => ?_, h.attention, fun hended => ?_⟩, .refl _⟩
    · by_contra hended
      have hallowed := hok s ht ha hended
      cases hstatus : cmd.status with
      | none =>
        have hsame : (IngestCommand.sessionUpdate cmd).edit s.standing =
            { s.standing with lastEventAtMs := cmd.occurredAtMs } := by
          simp only [IngestCommand.edit, hstatus, Option.getD_none]
        rw [hsame] at hfinished
        exact hended (h.ended hfinished)
      | some status =>
        have hnew : ((IngestCommand.sessionUpdate cmd).edit s.standing).status = status := by
          simp only [IngestCommand.edit, hstatus, Option.getD_some]
        rw [Standing.Finished, hnew] at hfinished
        obtain ⟨hcompleted, hfailed⟩ := hallowed status hstatus
        exact hfinished.elim hcompleted hfailed
    · exact isTerminal_of_valid hvalid (h.terminal hended)
  | sessionEnd cmd =>
    refine ⟨⟨fun _ => rfl, fun _ => rfl, fun _ => ?_⟩, fun _ => ⟨rfl, Or.inr rfl⟩⟩
    simp only [IngestCommand.accepted, Bool.and_eq_true, Bool.or_eq_true, decide_eq_true_eq] at ha
    show isTerminal cmd.status = true
    rcases ha.1.2 with hstatus | hstatus
    · rw [hstatus]
      rfl
    · rw [hstatus]
      rfl
  | attention cmd => exact ⟨⟨h.ended, fun hended => hok s ht ha hended, h.terminal⟩, .refl _⟩
  | registerProcessRoot cmd =>
    have hended : ¬ s.standing.Ended := hok s ht ha
    exact ⟨⟨h.ended, h.attention, h.terminal⟩, fun hs => absurd hs hended⟩
  | acknowledgeAttention cmd => exact ⟨⟨h.ended, fun _ => rfl, h.terminal⟩, .refl _⟩
  | sessionStart cmd => exact ⟨h, .refl _⟩
  | lifecycleEvent cmd => exact ⟨⟨h.ended, h.attention, h.terminal⟩, .refl _⟩
  | toolEvent cmd => exact ⟨⟨h.ended, h.attention, h.terminal⟩, .refl _⟩
  | integrationHealth cmd => exact ⟨h, .refl _⟩

/-- A new session has no end. -/
theorem calm_opened {cmd : SessionStartCommand} (hnew : StartsNew w cmd)
    (hstatus : cmd.status ≠ .failed) : Calm (opened cmd) := by
  refine ⟨fun hfinished => ?_, fun hended => (by cases hended),
    fun hended => (by cases hended)⟩
  rcases hfinished with hcompleted | hfailed
  · have hfollows : isValidTransition .starting cmd.status = true := hnew.follows
    have hcompleted' : cmd.status = .completed := hcompleted
    rw [hcompleted'] at hfollows
    cases hfollows
  · exact absurd hfailed hstatus

/-- A session that is due has no end. -/
theorem Calm.not_ended {s : Standing} {now : ℤ} (h : Calm s) (hdue : Due now s) : ¬ s.Ended := by
  intro hended
  have hterminal := h.terminal hended
  rw [hdue.1] at hterminal
  cases hterminal

theorem Calm.staled {s : Standing} {now : ℤ} (h : Calm s) (hdue : Due now s) :
    Calm (s.staled now) := by
  refine ⟨fun hfinished => ?_, fun hended => absurd hended (h.not_ended hdue), fun _ => rfl⟩
  rcases hfinished with hfinished | hfinished <;> cases hfinished

theorem Calm.unrooted {s : Standing} (h : Calm s) : Calm s.unrooted :=
  ⟨h.ended, h.attention, h.terminal⟩

/-- The view stays calm, and a session that has its end keeps it. -/
structure CalmStep (v v' : SessionView) : Prop where
  calm : CalmView v'
  stays : ∀ {m m'}, v.memory = some m → v'.memory = some m' → StaysEnded m m'

theorem CalmStep.of_memory {v' : SessionView} {m m' : Standing} (hm : v.memory = some m)
    (hm' : v'.memory = some m') (hcalm : Calm m') (hstays : StaysEnded m m')
    (hrow : ∀ {r}, v'.row = some r → Calm r) : CalmStep v v' where
  calm := ⟨fun h => Option.some.inj (hm'.symm.trans h) ▸ hcalm, hrow⟩
  stays h h' := Option.some.inj (hm.symm.trans h) ▸ Option.some.inj (hm'.symm.trans h') ▸ hstays

theorem CalmStep.dropped : CalmStep v v.dropped :=
  ⟨⟨fun h => (by cases h), fun h => (by cases h)⟩, fun _ h => (by cases h)⟩

theorem CalmStep.refl (h : CalmView v) : CalmStep v v :=
  ⟨h, fun h h' => Option.some.inj (h.symm.trans h') ▸ .refl _⟩

theorem Move.calm (h : Move cfg env w id sec result v) (hok : QuietAllowed cfg env w sec)
    (hcalm : CalmView (w.sessionView id)) : CalmStep (w.sessionView id) v := by
  cases h with
  | stays => exact .refl hcalm
  | @saved _ s hs =>
    exact .of_memory hs hs (hcalm.memory hs) (.refl s)
      fun hr => Option.some.inj hr ▸ hcalm.memory hs
  | @unrooted s hs =>
    have hunrooted := (hcalm.memory hs).unrooted
    exact .of_memory hs rfl hunrooted (fun hended => ⟨hended, Or.inl rfl⟩) hcalm.row
  | @unrootedSaved s hs =>
    have hunrooted := (hcalm.memory hs).unrooted
    exact .of_memory hs rfl hunrooted (fun hended => ⟨hended, Or.inl rfl⟩)
      fun hr => Option.some.inj hr ▸ hunrooted
  | applied ht hid hs ha hresult =>
    obtain ⟨hedit, hstays⟩ := calm_edit hok ht ha (hcalm.memory hs)
    refine .of_memory hs (IngestCommand.applied_memory ..) hedit hstays fun {r} hr => ?_
    rw [IngestCommand.applied_row] at hr
    split at hr
    · exact Option.some.inj hr ▸ hedit
    · exact hcalm.row hr
  | evicted => exact .dropped
  | @opened cmd v₀ hnew hid hv =>
    obtain ⟨hstatus, hget⟩ := hok hnew
    have hopened := calm_opened hnew hstatus
    have hmemory : (w.sessionView id).memory = none := by
      rw [hid] at hget
      simp only [World.sessionView, hget, Option.map_none]
    refine ⟨⟨fun h => Option.some.inj h ▸ hopened, fun {r} hr => ?_⟩, fun h => ?_⟩
    · rcases hv with rfl | ⟨rfl, -⟩
      · exact hcalm.row hr
      · cases hr
    · rw [hmemory] at h
      cases h
  | @created cmd v₀ _ hnew hid hv hresult =>
    obtain ⟨hstatus, hget⟩ := hok hnew
    have hopened := calm_opened hnew hstatus
    have hmemory : (w.sessionView id).memory = none := by
      rw [hid] at hget
      simp only [World.sessionView, hget, Option.map_none]
    refine ⟨⟨fun h => Option.some.inj h ▸ hopened, fun h => Option.some.inj h ▸ hopened⟩,
      fun h => ?_⟩
    rw [hmemory] at h
    cases h
  | @marked s hs hdue =>
    have hended := (hcalm.memory hs).not_ended hdue
    have hstaled := (hcalm.memory hs).staled hdue
    exact .of_memory hs rfl hstaled (fun h => absurd h hended) hcalm.row
  | @markedSaved s hs hdue =>
    have hended := (hcalm.memory hs).not_ended hdue
    have hstaled := (hcalm.memory hs).staled hdue
    exact .of_memory hs rfl hstaled (fun h => absurd h hended)
      fun h => Option.some.inj h ▸ hstaled
  | removed => exact .dropped

theorem StepMove.calm {s : CoreState} {a : CoreAct} (h : StepMove cfg s id a v)
    (hok : StepsIf (QuietAllowed cfg) QuietRestart s a)
    (hcalm : CalmView (s.world.sessionView id)) : CalmStep (s.world.sessionView id) v := by
  cases h with
  | idle => exact .refl hcalm
  | moved hnext hmove => exact hmove.calm (hok.of_next hnext) hcalm
  | restarted =>
    have hrestart : QuietRestart s.world := hok
    exact ⟨⟨hcalm.row, hcalm.row⟩, fun {m m'} hm hm' => hrestart id m m' hm hm'⟩

end Steps

/-! ## Runs -/

/-- Rows have their sessions, and everything is calm. -/
structure AllCalm (s : CoreState) : Prop where
  held : Held s.world
  calm : ∀ id, CalmView (s.world.sessionView id)

theorem calm_step {cfg : CoreConfig} {s t : CoreState} {a : CoreAct}
    (hok : StepsIf (QuietAllowed cfg) QuietRestart s a) (h : AllCalm s)
    (hstep : coreStep cfg s a = some t) (id : String) :
    CalmStep (s.world.sessionView id) (t.world.sessionView id) :=
  (step_moves h.held hstep id).calm hok (h.calm id)

/-- In every run from an empty repository whose steps meet the conditions, every completed or
failed session has its end and no attention, and from one state to the next a session that
has its end keeps it, asks for no attention, has no active status and gets no process root. -/
theorem ended_quiet {cfg : CoreConfig} {env : Env} {settings : PublicSettings}
    {s₀ : CoreState} {acts : List CoreAct} (hstart : startCore cfg env settings {} = some s₀)
    (hguard : Guarded (coreStep cfg) (StepsIf (QuietAllowed cfg) QuietRestart) s₀ acts) :
    (∀ s ∈ visited (coreStep cfg) s₀ acts, ∀ id session,
      s.world.registry.get id = some session →
      session.status = .completed ∨ session.status = .failed →
      session.endedAtMs.isSome = true ∧ session.attention = .none) ∧
    (visited (coreStep cfg) s₀ acts).IsChain fun s t => ∀ id before after,
      s.world.registry.get id = some before → t.world.registry.get id = some after →
      before.endedAtMs.isSome = true →
      after.endedAtMs.isSome = true ∧ after.attention = .none ∧ isTerminal after.status = true ∧
        (after.processRoot = none ∨ after.processRoot = before.processRoot) := by
  have h₀ : AllCalm s₀ := by
    refine ⟨held_start hstart, fun id => ?_⟩
    rw [sessionView_start hstart]
    exact ⟨fun h => (by cases h), fun h => (by cases h)⟩
  have hinv : ∀ s a t, StepsIf (QuietAllowed cfg) QuietRestart s a → AllCalm s →
      coreStep cfg s a = some t → AllCalm t :=
    fun _ _ _ hok h hstep => ⟨held_step h.held hstep, fun id => (calm_step hok h hstep id).calm⟩
  have hmemory : ∀ {s : CoreState} {id session}, s.world.registry.get id = some session →
      (s.world.sessionView id).memory = some session.standing :=
    fun hget => memory_of_lookup hget
  constructor
  · intro s hs id session hget hfinished
    have hcalm := ((hguard.forall_visited hinv h₀ s hs).calm id).memory (hmemory hget)
    have hended := hcalm.ended hfinished
    exact ⟨hended, hcalm.attention hended⟩
  · refine Guarded.isChain hinv (fun s a t hok h hstep id before after hb ha hended => ?_) h₀ hguard
    have hstep' := calm_step hok h hstep id
    obtain ⟨hstays, hroot⟩ := hstep'.stays (hmemory hb) (hmemory ha) hended
    have hcalm := hstep'.calm.memory (hmemory ha)
    exact ⟨hstays, hcalm.attention hstays, hcalm.terminal hstays, hroot⟩

/-! ## Sample runs -/

/-- A check of the conditions. -/
def quietCheck (cfg : CoreConfig) (_env : Env) (w : World) : CoreSection → Bool
  | .ingest (.sessionStart cmd) => cmd.status ≠ .failed &&
      (w.registry.get (cfg.sessionIdFor cmd.source cmd.externalSessionId)).isNone
  | .ingest (.sessionUpdate _) => false
  | .ingest (.attention cmd) => cmd.attention = .none ||
      ((IngestCommand.attention cmd).target w.registry).all fun s => s.endedAtMs.isNone
  | .ingest (.registerProcessRoot _) => false
  | _ => true

theorem quietAllowed_of_check {cfg : CoreConfig} {env : Env} {w : World} {sec : CoreSection}
    (h : quietCheck cfg env w sec = true) : QuietAllowed cfg env w sec := by
  cases sec with
  | ingest command =>
    cases command with
    | sessionStart cmd =>
      simp only [quietCheck, Bool.and_eq_true, decide_eq_true_eq] at h
      exact fun _ => ⟨h.1, Option.isNone_iff_eq_none.1 h.2⟩
    | sessionUpdate cmd => cases h
    | attention cmd =>
      intro s ht _ hended
      simp only [quietCheck, ht, Option.all_some, Bool.or_eq_true, decide_eq_true_eq] at h
      refine h.resolve_right fun hnone => ?_
      rw [Standing.Ended, AgentSession.standing, Option.isNone_iff_eq_none.1 hnone] at hended
      cases hended
    | registerProcessRoot cmd => cases h
    | _ => trivial
  | _ => trivial

def sampleAttention (attention : AttentionKind) : AttentionCommand where
  source := .generic
  externalSessionId := "e"
  attention := attention
  level := .info
  summary := "attention"
  occurredAtMs := 0

/-- A session asks for approval and then ends. -/
def endedRun : List CoreAct :=
  sampleOpening .running ++
    CoreAct.perform 2 (.ingest (.attention (sampleAttention .approval))) { uuid := 2 } ++
    CoreAct.perform 3 (.ingest (.sessionEnd sampleEnd)) { uuid := 3 }

/-- The session in memory after a run from an empty repository. -/
def finalSession (acts : List CoreAct) : Option (Option Standing) :=
  (startCore sampleCoreConfig {} sampleSettings {}).bind fun s₀ =>
    (run (coreStep sampleCoreConfig) s₀ acts).map fun s => (s.world.sessionView sampleId).memory

/-- The run meets the conditions. -/
theorem ended_quiet_endedRun :
    ∃ s₀, startCore sampleCoreConfig {} sampleSettings {} = some s₀ ∧
      finalSession endedRun = some (some ⟨.completed, .none, 0, some 0, none⟩) ∧
      ∀ s ∈ visited (coreStep sampleCoreConfig) s₀ endedRun, ∀ id session,
        s.world.registry.get id = some session →
        session.status = .completed ∨ session.status = .failed →
        session.endedAtMs.isSome = true ∧ session.attention = .none := by
  have hrun : (startCore sampleCoreConfig {} sampleSettings {}).map (fun s₀ =>
      checkRun (coreStep sampleCoreConfig) (stepsCheck (quietCheck sampleCoreConfig)
        fun _ => false) s₀ endedRun) = some true := by
    decide
  obtain ⟨s₀, hs₀, hcheck⟩ := Option.map_eq_some_iff.1 hrun
  refine ⟨s₀, hs₀, by decide, (ended_quiet hs₀ ?_).1⟩
  exact guarded_of_stepsCheck quietAllowed_of_check (fun h => by cases h) hcheck

/-- An update completes a session without an end, and a session that ended asks for approval. -/
theorem finished_not_quiet :
    finalSession (sampleOpening .running ++
        CoreAct.perform 2 (.ingest (.sessionUpdate (sampleUpdate .completed))) { uuid := 2 }) =
      some (some ⟨.completed, .none, 0, none, none⟩) ∧
    finalSession (endedRun ++
        CoreAct.perform 4 (.ingest (.attention (sampleAttention .approval))) { uuid := 4 }) =
      some (some ⟨.completed, .approval, 0, some 0, none⟩) := by
  decide

end LlmNotch
