import LlmNotch.SessionEffects

/-!
# Histories of the status of a session

The history of an identifier is what its status is in the states a run visits, in memory and
in the database. It is a path of the lifecycle if every status follows the one before
(`MayFollow`) : a session appears as starting or as a direct successor of it, moves along valid
transitions, and may disappear.

Handlers check a new status against the session in memory, assign it and then write the row;
if the write fails, memory is ahead of the row. `StatusAllowed` and `RestartAllowed` say when
that does no harm : the new status is a successor of the stored one too, and no restart takes
memory back. Under them all histories are paths (`status_histories`), and a session that
ended is never active again. `row_skips_status` is a run in which they are not.
-/

namespace LlmNotch

/-! ## Histories -/

/-- Whether one status, if there is a session, may come after another. -/
def MayFollow : Option SessionStatus → Option SessionStatus → Prop
  | none, some b => isValidTransition .starting b = true
  | some a, some b => isValidTransition a b = true
  | _, none => True

instance : DecidableRel MayFollow
  | none, some b => inferInstanceAs (Decidable (isValidTransition .starting b = true))
  | some a, some b => inferInstanceAs (Decidable (isValidTransition a b = true))
  | none, none => isTrue trivial
  | some _, none => isTrue trivial

theorem MayFollow.refl (x : Option SessionStatus) : MayFollow x x := by
  cases x with
  | none => trivial
  | some a => exact isValidTransition_self a

theorem follows_none (x : Option SessionStatus) : MayFollow x none := by
  cases x <;> trivial

/-- A session that ended may only become stale. -/
theorem isTerminal_of_valid {a b : SessionStatus} (h : isValidTransition a b = true)
    (ha : isTerminal a = true) : isTerminal b = true := by
  revert h ha
  cases a <;> cases b <;> decide

/-- Every status may become stale. -/
theorem isValidTransition_stale (a : SessionStatus) : isValidTransition a .stale = true := by
  cases a <;> decide

/-- A history is a path of the lifecycle, and while the session is there it stays ended once
it ended. -/
structure Lifecycle (history : List (Option SessionStatus)) : Prop where
  path : history.IsChain MayFollow
  final : ∀ {before a between b after},
    history = before ++ some a :: (between ++ some b :: after) →
    (∀ x ∈ between, x.isSome = true) → isTerminal a = true → isTerminal b = true

theorem Lifecycle.of_isChain {history : List (Option SessionStatus)}
    (h : history.IsChain MayFollow) : Lifecycle history := by
  refine ⟨h, fun {before a between b after} hsplit hsome ha => ?_⟩
  rw [hsplit] at h
  have hchain := h.right_of_append
  clear h hsplit
  induction between generalizing a with
  | nil =>
    obtain ⟨hab, -⟩ := List.isChain_cons_cons.1 hchain
    exact isTerminal_of_valid hab ha
  | cons x between ih =>
    obtain ⟨c, rfl⟩ := Option.isSome_iff_exists.1 (hsome x (by simp))
    obtain ⟨hac, hrest⟩ := List.isChain_cons_cons.1 hchain
    exact ih (fun y hy => hsome y (by simp [hy])) (isTerminal_of_valid hac ha) hrest

/-- The history of an identifier along a run, as `status` reads it. -/
def history (cfg : CoreConfig) (s : CoreState) (acts : List CoreAct)
    (status : SessionView → Option SessionStatus) (id : String) : List (Option SessionStatus) :=
  (visited (coreStep cfg) s acts).map fun t => status (t.world.sessionView id)

def SessionView.memoryStatus (v : SessionView) : Option SessionStatus :=
  v.memory.map (·.status)

def SessionView.rowStatus (v : SessionView) : Option SessionStatus :=
  v.row.map (·.status)

/-! ## Conditions -/

/-- A start takes no identifier of a stored session, and a command gives a session no status
that its row may not have next. -/
def StatusAllowed (cfg : CoreConfig) (_env : Env) (w : World) : CoreSection → Prop
  | .ingest (.sessionStart cmd) =>
    StartsNew w cmd → w.registry.get (cfg.sessionIdFor cmd.source cmd.externalSessionId) = none
  | .ingest command => ∀ s, command.target w.registry = some s → command.accepted w s = true →
      (command.edit s.standing).status ≠ s.status →
      MayFollow (w.sessionView s.id).rowStatus (some (command.edit s.standing).status)
  | _ => True

/-- The status of every row may follow the one in memory. -/
def RestartAllowed (w : World) : Prop :=
  ∀ id, MayFollow (w.sessionView id).memoryStatus (w.sessionView id).rowStatus

/-! ## Steps -/

section Steps

variable {cfg : CoreConfig} {env : Env} {w : World} {id : String} {sec : CoreSection}
  {result : Option IngestResult} {v : SessionView}

/-- The session in memory and the row follow, and memory stays ahead of the row. -/
structure Progress (v v' : SessionView) : Prop where
  memory : MayFollow v.memoryStatus v'.memoryStatus
  row : MayFollow v.rowStatus v'.rowStatus
  ahead : MayFollow v'.rowStatus v'.memoryStatus

/-- An accepted command changes the status along the lifecycle. -/
theorem valid_of_accepted {command : IngestCommand} {s : AgentSession}
    (h : command.accepted w s = true) :
    isValidTransition s.status (command.edit s.standing).status = true := by
  cases command with
  | sessionUpdate cmd =>
    have hall : cmd.status.all (isValidTransition s.status) = true := by
      simp only [IngestCommand.accepted, Bool.and_eq_true] at h
      exact h.2
    show isValidTransition s.status (cmd.status.getD s.status) = true
    cases hstatus : cmd.status with
    | none => exact isValidTransition_self _
    | some status =>
      rw [hstatus] at hall
      exact hall
  | sessionEnd cmd =>
    simp only [IngestCommand.accepted, Bool.and_eq_true] at h
    exact h.2
  | _ => exact isValidTransition_self _

theorem StatusAllowed.of_target {command : IngestCommand} {s : AgentSession}
    (h : StatusAllowed cfg env w (.ingest command)) (ht : command.target w.registry = some s)
    (ha : command.accepted w s = true) (hchange : (command.edit s.standing).status ≠ s.status) :
    MayFollow (w.sessionView s.id).rowStatus (some (command.edit s.standing).status) := by
  cases command with
  | sessionStart cmd => cases ht
  | _ => exact h s ht ha hchange

theorem follows_stale (x : Option SessionStatus) : MayFollow x (some .stale) := by
  cases x with
  | none => exact isValidTransition_stale _
  | some a => exact isValidTransition_stale a

/-- A start creates a session that is starting or a direct successor of it. -/
theorem StartsNew.follows {cmd : SessionStartCommand} (h : StartsNew w cmd) :
    MayFollow none (some (opened cmd).status) := by
  have hstatus := h.status
  unfold AppCore.validateStartStatus at hstatus
  split at hstatus
  · rename_i hstarting
    show isValidTransition .starting cmd.status = true
    rw [hstarting]
    exact isValidTransition_self _
  · exact isValidTransition_of_validate hstatus

/-- The view of a start that takes no stored identifier. -/
theorem statuses_of_fresh (hget : w.registry.get id = none)
    (hrows : (w.sessionView id).row.isSome = true → (w.sessionView id).memory.isSome = true)
    (hv : v = w.sessionView id ∨ v = (w.sessionView id).dropped ∧
      w.registry.capacityEvictionCandidate env.sessionsRank = .ok (some id)) :
    (w.sessionView id).memoryStatus = none ∧ (w.sessionView id).rowStatus = none ∧
      v.rowStatus = none := by
  have hmemory : (w.sessionView id).memory = none := by
    simp only [World.sessionView, hget, Option.map_none]
  have hrow : (w.sessionView id).row = none := by
    rw [hmemory] at hrows
    simpa using hrows
  refine ⟨by rw [SessionView.memoryStatus, hmemory]; rfl,
    by rw [SessionView.rowStatus, hrow]; rfl, ?_⟩
  rcases hv with rfl | ⟨rfl, -⟩
  · rw [SessionView.rowStatus, hrow]
    rfl
  · rfl

/-- Every move makes progress. -/
theorem Move.progress (h : Move cfg env w id sec result v) (hok : StatusAllowed cfg env w sec)
    (hrows : (w.sessionView id).row.isSome = true → (w.sessionView id).memory.isSome = true)
    (hahead : MayFollow (w.sessionView id).rowStatus (w.sessionView id).memoryStatus) :
    Progress (w.sessionView id) v := by
  cases h with
  | stays => exact ⟨.refl _, .refl _, hahead⟩
  | saved hs =>
    rw [SessionView.memoryStatus, hs] at hahead
    refine ⟨.refl _, hahead, ?_⟩
    show MayFollow _ ((w.sessionView id).memory.map (·.status))
    rw [hs]
    exact .refl _
  | unrooted hs =>
    rw [SessionView.memoryStatus, hs] at hahead
    refine ⟨?_, .refl _, hahead⟩
    rw [SessionView.memoryStatus, hs]
    exact .refl _
  | unrootedSaved hs =>
    rw [SessionView.memoryStatus, hs] at hahead
    refine ⟨?_, hahead, .refl _⟩
    rw [SessionView.memoryStatus, hs]
    exact .refl _
  | @applied command s _ ht hid hs ha hresult =>
    subst hid
    have hmemory : MayFollow (w.sessionView s.id).memoryStatus
        (some (command.edit s.standing).status) := by
      rw [SessionView.memoryStatus, hs]
      exact valid_of_accepted ha
    have hrow : MayFollow (w.sessionView s.id).rowStatus
        (some (command.edit s.standing).status) := by
      by_cases hchange : (command.edit s.standing).status = s.status
      · rw [SessionView.memoryStatus, hs] at hahead
        rw [hchange]
        exact hahead
      · exact hok.of_target ht ha hchange
    refine ⟨?_, ?_, ?_⟩
    · rw [SessionView.memoryStatus.eq_1 (IngestCommand.applied ..), IngestCommand.applied_memory]
      exact hmemory
    · rw [SessionView.rowStatus.eq_1 (IngestCommand.applied ..), IngestCommand.applied_row]
      split
      · exact hrow
      · exact .refl _
    · rw [SessionView.rowStatus, SessionView.memoryStatus, IngestCommand.applied_memory,
        IngestCommand.applied_row]
      split
      · exact .refl _
      · exact hrow
  | evicted => exact ⟨follows_none _, follows_none _, follows_none _⟩
  | @opened cmd v₀ hnew hid hv =>
    obtain ⟨hmemory, hrow, hrow₀⟩ := statuses_of_fresh (hid ▸ hok hnew) hrows hv
    refine ⟨hmemory ▸ hnew.follows, ?_, ?_⟩
    · rw [hrow]
      exact hrow₀ ▸ .refl none
    · exact hrow₀ ▸ hnew.follows
  | @created cmd v₀ _ hnew hid hv hresult =>
    obtain ⟨hmemory, hrow, -⟩ := statuses_of_fresh (hid ▸ hok hnew) hrows hv
    exact ⟨hmemory ▸ hnew.follows, hrow ▸ hnew.follows, .refl _⟩
  | marked hs hdue =>
    exact ⟨follows_stale _, .refl _, follows_stale _⟩
  | markedSaved hs hdue =>
    exact ⟨follows_stale _, follows_stale _, .refl _⟩
  | removed => exact ⟨follows_none _, follows_none _, follows_none _⟩

theorem StepMove.progress {s : CoreState} {a : CoreAct} (h : StepMove cfg s id a v)
    (hok : StepsIf (StatusAllowed cfg) RestartAllowed s a) (hheld : Held s.world)
    (hahead : MayFollow (s.world.sessionView id).rowStatus (s.world.sessionView id).memoryStatus) :
    Progress (s.world.sessionView id) v := by
  cases h with
  | idle => exact ⟨.refl _, .refl _, hahead⟩
  | moved hnext hmove => exact hmove.progress (hok.of_next hnext) (hheld.rows id) hahead
  | restarted =>
    have hrestart : RestartAllowed s.world := hok
    exact ⟨hrestart id, .refl _, .refl _⟩

end Steps

/-! ## Runs -/

/-- Rows have their sessions, and the status in memory may follow the one in the row. -/
def MemoryAhead (id : String) (s : CoreState) : Prop :=
  Held s.world ∧
    MayFollow (s.world.sessionView id).rowStatus (s.world.sessionView id).memoryStatus

variable {cfg : CoreConfig}

theorem progress_step {id : String} {s t : CoreState} {a : CoreAct}
    (hok : StepsIf (StatusAllowed cfg) RestartAllowed s a) (h : MemoryAhead id s)
    (hstep : coreStep cfg s a = some t) :
    Progress (s.world.sessionView id) (t.world.sessionView id) :=
  (step_moves h.1 hstep id).progress hok h.1 h.2

theorem memoryAhead_step {id : String} {s t : CoreState} {a : CoreAct}
    (hok : StepsIf (StatusAllowed cfg) RestartAllowed s a) (h : MemoryAhead id s)
    (hstep : coreStep cfg s a = some t) : MemoryAhead id t :=
  ⟨held_step h.1 hstep, (progress_step hok h hstep).ahead⟩

/-- In every run from an empty repository whose steps meet the conditions, the history of
every identifier is a path of the lifecycle, in memory and in the database. -/
theorem status_histories {cfg : CoreConfig} {env : Env} {settings : PublicSettings}
    {s₀ : CoreState} {acts : List CoreAct} (hstart : startCore cfg env settings {} = some s₀)
    (hguard : Guarded (coreStep cfg) (StepsIf (StatusAllowed cfg) RestartAllowed) s₀ acts)
    (id : String) :
    Lifecycle (history cfg s₀ acts SessionView.memoryStatus id) ∧
      Lifecycle (history cfg s₀ acts SessionView.rowStatus id) := by
  have h₀ : MemoryAhead id s₀ := by
    refine ⟨held_start hstart, ?_⟩
    rw [sessionView_start hstart]
    exact .refl none
  have hinv : ∀ s a t, StepsIf (StatusAllowed cfg) RestartAllowed s a → MemoryAhead id s →
      coreStep cfg s a = some t → MemoryAhead id t :=
    fun _ _ _ hok h hstep => memoryAhead_step hok h hstep
  constructor
  · refine .of_isChain ((List.isChain_map _).2 (Guarded.isChain hinv ?_ h₀ hguard))
    exact fun s a t hok h hstep => (progress_step hok h hstep).memory
  · refine .of_isChain ((List.isChain_map _).2 (Guarded.isChain hinv ?_ h₀ hguard))
    exact fun s a t hok h hstep => (progress_step hok h hstep).row

/-! ## Sample runs -/

/-- A check of the conditions. -/
def statusCheck (cfg : CoreConfig) (_env : Env) (w : World) : CoreSection → Bool
  | .ingest (.sessionStart cmd) =>
    (w.registry.get (cfg.sessionIdFor cmd.source cmd.externalSessionId)).isNone
  | .ingest command => (command.target w.registry).all fun s =>
      decide (MayFollow (w.sessionView s.id).rowStatus (some (command.edit s.standing).status))
  | _ => true

theorem statusAllowed_of_check {env : Env} {w : World} {sec : CoreSection}
    (h : statusCheck cfg env w sec = true) : StatusAllowed cfg env w sec := by
  cases sec with
  | ingest command =>
    have htarget : ∀ s, command.target w.registry = some s →
        (command.target w.registry).all (fun s => decide (MayFollow (w.sessionView s.id).rowStatus
          (some (command.edit s.standing).status))) = true →
        MayFollow (w.sessionView s.id).rowStatus (some (command.edit s.standing).status) := by
      intro s hs hall
      rw [hs] at hall
      exact of_decide_eq_true hall
    cases command with
    | sessionStart cmd => exact fun _ => Option.isNone_iff_eq_none.1 h
    | _ => exact fun s hs _ _ => htarget s hs h
  | _ => trivial

/-- A check that rows and sessions have the same statuses. -/
def restartCheck (w : World) : Bool :=
  w.db.sessions.all fun row => decide (MayFollow (w.sessionView row.id).memoryStatus
    (w.sessionView row.id).rowStatus)

theorem restartAllowed_of_check {w : World} (h : restartCheck w = true) : RestartAllowed w := by
  intro id
  cases hrow : w.db.sessions.find? (fun row => decide (row.id = id)) with
  | none =>
    have hnone : (w.sessionView id).rowStatus = none := by
      simp only [SessionView.rowStatus, World.sessionView, Database.standing, hrow,
        Option.map_none]
    rw [hnone]
    exact follows_none _
  | some row =>
    have hid : row.id = id := by simpa using List.find?_some hrow
    have hfollows := List.all_eq_true.1 h row (List.mem_of_find?_eq_some hrow)
    rw [hid] at hfollows
    exact of_decide_eq_true hfollows

def sampleUpdate (status : SessionStatus) : SessionUpdateCommand where
  source := .generic
  externalSessionId := "e"
  status := some status
  label := none
  workspaceLabel := none
  occurredAtMs := 0

def sampleEnd : SessionEndCommand where
  source := .generic
  externalSessionId := "e"
  status := .completed
  occurredAtMs := 0
  summary := none

/-- A session starts, runs and is completed; the update is written unless its statement
fails. -/
def completedRun (fails : Bool) : List CoreAct :=
  sampleOpening .starting ++
    CoreAct.perform 2 (.ingest (.sessionUpdate (sampleUpdate .running)))
      { uuid := 2, faults := [fails] } ++
    CoreAct.perform 3 (.ingest (.sessionEnd sampleEnd)) { uuid := 3 } ++
    [.restart {} sampleSettings]

/-- If the update is written the run meets the conditions. -/
theorem status_histories_completedRun :
    ∃ s₀, startCore sampleCoreConfig {} sampleSettings {} = some s₀ ∧
      history sampleCoreConfig s₀ (completedRun false) SessionView.rowStatus sampleId =
        [none, none, none, none, some .starting, some .starting, some .running, some .running,
          some .completed, some .completed] ∧
      Lifecycle (history sampleCoreConfig s₀ (completedRun false) SessionView.rowStatus
        sampleId) := by
  have hrun : (startCore sampleCoreConfig {} sampleSettings {}).map (fun s₀ =>
      (checkRun (coreStep sampleCoreConfig)
          (stepsCheck (statusCheck sampleCoreConfig) restartCheck) s₀ (completedRun false),
        history sampleCoreConfig s₀ (completedRun false) SessionView.rowStatus sampleId)) =
      some (true, [none, none, none, none, some .starting, some .starting, some .running,
        some .running, some .completed, some .completed]) := by
    decide +kernel
  obtain ⟨s₀, hs₀, hvalues⟩ := Option.map_eq_some_iff.1 hrun
  simp only [Prod.mk.injEq] at hvalues
  refine ⟨s₀, hs₀, hvalues.2, (status_histories hs₀ ?_ sampleId).2⟩
  exact guarded_of_stepsCheck statusAllowed_of_check restartAllowed_of_check hvalues.1

/-- If the update fails the row goes from starting to completed. -/
theorem row_skips_status :
    ∃ s₀, startCore sampleCoreConfig {} sampleSettings {} = some s₀ ∧
      ¬ (history sampleCoreConfig s₀ (completedRun true) SessionView.rowStatus sampleId).IsChain
        MayFollow := by
  have hrun : (startCore sampleCoreConfig {} sampleSettings {}).map (fun s₀ =>
      history sampleCoreConfig s₀ (completedRun true) SessionView.rowStatus sampleId) =
      some [none, none, none, none, some .starting, some .starting, some .starting,
        some .starting, some .completed, some .completed] := by
    decide +kernel
  obtain ⟨s₀, hs₀, hvalues⟩ := Option.map_eq_some_iff.1 hrun
  refine ⟨s₀, hs₀, ?_⟩
  rw [hvalues]
  decide

end LlmNotch
