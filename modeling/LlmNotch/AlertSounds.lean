import LlmNotch.Alerts
import Mathlib.Data.List.Induction

/-!
# Sounds of alerts

The notifier looks at the active alerts and the sessions from time to time and asks for a sound
where there is something new. It remembers what has sounded : the keys of the resource alerts,
which it forgets when no resource alert is left, the sessions that asked for attention, and the
last status of each session (`AlertNotifier.observe`).

While sound is enabled it never forgets a session that asked for attention. So a session sounds
at the first call that shows an alert for it and at no other (`attention_sounds_first`). This is
once for each time the alert appears exactly if no alert comes back after it was gone
(`attention_sounds_iff`); `second_question_is_silent` is a history in which one does.
-/

namespace LlmNotch

/-! ## Which sound -/

/-- The sound events of the protocol. -/
inductive ProtocolSoundEvent where
  | approval | question | completed | failed | notification
  deriving DecidableEq

def soundEventForAttention : AttentionKind → ProtocolSoundEvent
  | .approval | .permission => .approval
  | .question => .question
  | .error => .failed
  | .none => .notification

def soundEventForAlert : AlertKind → ProtocolSoundEvent
  | .cpuCritical | .memoryHigh => .notification
  | .cpuWarn => .notification
  | .newAttention => .notification

def soundEventForSessionStatus : SessionStatus → Option ProtocolSoundEvent
  | .completed => some .completed
  | .failed => some .failed
  | _ => none

/-- The serialized source. -/
def agentSourceLabel : AgentSource → String
  | .cursor => "cursor"
  | .claudeCode => "claudeCode"
  | .codex => "codex"
  | .gemini => "gemini"
  | .antigravityCli => "antigravityCli"
  | .copilotCli => "copilotCli"
  | .qwen => "qwen"
  | .generic => "generic"
  | .unknown => "unknown"

def agentSourceForSession (sessions : List AgentSession) (sessionId : String) : Option String :=
  (sessions.find? (·.id = sessionId)).map fun s => agentSourceLabel s.source

/-! ## The notifier -/

/-- Stable key for deduplicating sustained resource alerts. -/
structure AlertKey where
  kind : AlertKind
  sessionId : Option String
  deriving DecidableEq

/-- What `play_themed_event` is called with. -/
structure SoundRequest where
  event : ProtocolSoundEvent
  agent : Option String
  deriving DecidableEq

structure AlertNotifier where
  soundedResource : List AlertKey := []
  soundedAttention : List String := []
  lifecycleStatus : Dict String SessionStatus := ∅

/-- The sounds one call asks for, those of attention with their session, and the text of the
tray. -/
structure Observation where
  attention : List (String × SoundRequest) := []
  resource : List SoundRequest := []
  lifecycle : List SoundRequest := []
  tray : Option String

def isResourceAlert (alert : ActiveAlert) : Bool :=
  alert.kind = .cpuWarn ∨ alert.kind = .cpuCritical ∨ alert.kind = .memoryHigh

def alertSeverity : AlertKind → ℕ
  | .cpuCritical => 3
  | .memoryHigh => 2
  | .cpuWarn => 1
  | .newAttention => 0

/-- `max_by_key` : the last of the most severe. -/
def mostSevere (alerts : List ActiveAlert) : Option ActiveAlert :=
  alerts.foldl (fun best alert => some (match best with
    | some b => if alertSeverity b.kind ≤ alertSeverity alert.kind then alert else b
    | none => alert)) none

def resourceTrayMessage (alerts : List ActiveAlert) : Option String :=
  (mostSevere (alerts.filter isResourceAlert)).map (·.message)

/-- One alert of the loop in `play_attention_sounds`. -/
def playAttention (sessions : List AgentSession)
    (acc : List String × List (String × SoundRequest)) (alert : ActiveAlert) :
    List String × List (String × SoundRequest) :=
  match alert.sessionId with
  | none => acc
  | some sessionId =>
    if acc.1.contains sessionId then acc
    else
      (sessionId :: acc.1, acc.2 ++ [(sessionId,
        ⟨soundEventForAttention (alert.attention.getD .permission),
          agentSourceForSession sessions sessionId⟩)])

def playAttentionSounds (sounded : List String) (alerts : List ActiveAlert)
    (sessions : List AgentSession) : List String × List (String × SoundRequest) :=
  (alerts.filter (·.kind = .newAttention)).foldl (playAttention sessions) (sounded, [])

/-- One alert of the loop in `play_resource_sounds`. -/
def playResource (acc : List AlertKey × List SoundRequest) (alert : ActiveAlert) :
    List AlertKey × List SoundRequest :=
  let key : AlertKey := ⟨alert.kind, alert.sessionId⟩
  if acc.1.contains key then acc
  else (key :: acc.1, acc.2 ++ [⟨soundEventForAlert alert.kind, none⟩])

def playResourceSounds (sounded : List AlertKey) (alerts : List ActiveAlert) :
    List AlertKey × List SoundRequest :=
  let resource := alerts.filter isResourceAlert
  if resource.isEmpty then ([], [])
  else resource.foldl playResource (sounded, [])

/-- The sound of a session that ended since the last call. -/
def lifecycleSound (previous : Option SessionStatus) (session : AgentSession) :
    Option SoundRequest :=
  match previous with
  | none => none
  | some previous =>
    if isTerminal previous ∨ ¬ isTerminal session.status then none
    else (soundEventForSessionStatus session.status).map fun event =>
      ⟨event, some (agentSourceLabel session.source)⟩

/-- One session of the loop in `play_lifecycle_sounds`. -/
def playLifecycle (acc : Dict String SessionStatus × List SoundRequest) (session : AgentSession) :
    Dict String SessionStatus × List SoundRequest :=
  (acc.1.insert session.id session.status,
    acc.2 ++ (lifecycleSound (acc.1.lookup session.id) session).toList)

/-- The sessions that are gone are forgotten. -/
def playLifecycleSounds (lastStatus : Dict String SessionStatus) (sessions : List AgentSession) :
    Dict String SessionStatus × List SoundRequest :=
  let gone := lastStatus.keys.filter fun id => !(sessions.map (·.id)).contains id
  sessions.foldl playLifecycle (gone.foldl (fun m id => m.erase id) lastStatus, [])

namespace AlertNotifier

def resetSoundState (n : AlertNotifier) : AlertNotifier :=
  { n with soundedResource := [], soundedAttention := [] }

/-- Ask for the sounds of what is new; the text of the tray does not depend on sound. -/
def observe (n : AlertNotifier) (alerts : List ActiveAlert) (sessions : List AgentSession)
    (soundEnabled : Bool) : AlertNotifier × Observation :=
  if soundEnabled then
    let attention := playAttentionSounds n.soundedAttention alerts sessions
    let resource := playResourceSounds n.soundedResource alerts
    let lifecycle := playLifecycleSounds n.lifecycleStatus sessions
    (⟨resource.1, attention.1, lifecycle.1⟩,
      ⟨attention.2, resource.2, lifecycle.2, resourceTrayMessage alerts⟩)
  else (n.resetSoundState, { tray := resourceTrayMessage alerts })

end AlertNotifier

/-! ## One call -/

/-- The alerts contain one for the attention of the session. -/
def ShowsAttention (alerts : List ActiveAlert) (sessionId : String) : Prop :=
  ∃ alert ∈ alerts, alert.kind = .newAttention ∧ alert.sessionId = some sessionId

section Loop

variable {sessions : List AgentSession} {acc : List String × List (String × SoundRequest)}
  {alerts : List ActiveAlert} {id : String}

theorem playAttention_of_none (sessions : List AgentSession)
    (acc : List String × List (String × SoundRequest)) {alert : ActiveAlert}
    (h : alert.sessionId = none) :
    playAttention sessions acc alert = acc := by
  simp only [playAttention, h]

theorem playAttention_of_some (sessions : List AgentSession)
    (acc : List String × List (String × SoundRequest)) {alert : ActiveAlert}
    (h : alert.sessionId = some id) :
    ∃ request, playAttention sessions acc alert =
      if id ∈ acc.1 then acc else (id :: acc.1, acc.2 ++ [(id, request)]) := by
  simp only [playAttention, h, List.contains_iff_mem]
  exact ⟨_, rfl⟩

/-- What has sounded after the loop. -/
theorem mem_sounded_foldl : id ∈ (alerts.foldl (playAttention sessions) acc).1 ↔
    id ∈ acc.1 ∨ ∃ alert ∈ alerts, alert.sessionId = some id := by
  induction alerts generalizing acc with
  | nil => simp
  | cons alert alerts ih =>
    rw [List.foldl_cons, ih]
    simp only [List.mem_cons, exists_eq_or_imp, ← or_assoc]
    refine or_congr_left ?_
    cases hsession : alert.sessionId with
    | none => simp [playAttention_of_none sessions acc hsession]
    | some k =>
      obtain ⟨request, hplay⟩ := playAttention_of_some sessions acc hsession
      rw [hplay, Option.some.injEq]
      split
      · rename_i hmem
        exact ⟨Or.inl, fun h => h.elim (fun h => h) fun hk => hk ▸ hmem⟩
      · rw [List.mem_cons, or_comm, eq_comm]

/-- The sessions whose sound the loop asks for, each once. -/
theorem requests_foldl (sessions : List AgentSession) (alerts : List ActiveAlert)
    (acc : List String × List (String × SoundRequest)) (hsub : ∀ k ∈ acc.2.map Prod.fst, k ∈ acc.1)
    (hnodup : (acc.2.map Prod.fst).Nodup) :
    let out := (alerts.foldl (playAttention sessions) acc).2.map Prod.fst
    out.Nodup ∧ ∀ id, id ∈ out ↔ id ∈ acc.2.map Prod.fst ∨
      id ∉ acc.1 ∧ ∃ alert ∈ alerts, alert.sessionId = some id := by
  induction alerts generalizing acc with
  | nil => exact ⟨hnodup, fun id => by simp⟩
  | cons alert alerts ih =>
    cases hsession : alert.sessionId with
    | none =>
      have hskip := playAttention_of_none sessions acc hsession
      obtain ⟨hout, hmem⟩ := ih acc hsub hnodup
      refine ⟨by rw [List.foldl_cons, hskip]; exact hout, fun id => ?_⟩
      rw [List.foldl_cons, hskip, hmem]
      simp [hsession]
    | some k =>
      obtain ⟨request, hplay⟩ := playAttention_of_some sessions acc hsession
      by_cases hk : k ∈ acc.1
      · rw [if_pos hk] at hplay
        obtain ⟨hout, hmem⟩ := ih acc hsub hnodup
        refine ⟨by rw [List.foldl_cons, hplay]; exact hout, fun id => ?_⟩
        rw [List.foldl_cons, hplay, hmem]
        refine or_congr_right (and_congr_right fun hid => ?_)
        have hne : k ≠ id := fun h => hid (h ▸ hk)
        simp [hsession, hne]
      · rw [if_neg hk] at hplay
        have hnew : k ∉ acc.2.map Prod.fst := fun h => hk (hsub k h)
        have hsub' : ∀ j ∈ (acc.2 ++ [(k, request)]).map Prod.fst, j ∈ k :: acc.1 := by
          intro j hj
          rw [List.map_append, List.mem_append] at hj
          rcases hj with hj | hj
          · exact List.mem_cons_of_mem k (hsub j hj)
          · rw [List.map_singleton, List.mem_singleton] at hj
            exact hj ▸ List.mem_cons_self
        have hnodup' : ((acc.2 ++ [(k, request)]).map Prod.fst).Nodup := by
          rw [List.map_append, List.map_singleton, List.nodup_append]
          refine ⟨hnodup, List.nodup_singleton k, fun x hx y hy => ?_⟩
          rintro rfl
          rw [show x = k from List.mem_singleton.1 hy] at hx
          exact hnew hx
        obtain ⟨hout, hmem⟩ := ih (k :: acc.1, acc.2 ++ [(k, request)]) hsub' hnodup'
        refine ⟨by rw [List.foldl_cons, hplay]; exact hout, fun id => ?_⟩
        rw [List.foldl_cons, hplay, hmem]
        simp only [List.map_append, List.map_singleton, List.mem_append, List.mem_cons,
          exists_eq_or_imp, hsession, Option.some.injEq]
        by_cases hid : id = k
        · subst hid
          simp [hk]
        · simp [hid, Ne.symm hid]

end Loop

/-! ## Histories of calls -/

/-- A call while sound is enabled. -/
structure ObserveCall where
  alerts : List ActiveAlert
  sessions : List AgentSession

namespace AlertNotifier

/-- The notifier after a call. -/
def heard (n : AlertNotifier) (c : ObserveCall) : AlertNotifier :=
  (n.observe c.alerts c.sessions true).1

/-- The sessions that a call after others asks the sound of attention for. -/
def attentionSounds (before : List ObserveCall) (call : ObserveCall) : List String :=
  (((before.foldl heard {}).observe call.alerts call.sessions true).2.attention).map Prod.fst

theorem exists_newAttention {alerts : List ActiveAlert} {id : String} :
    (∃ alert ∈ alerts.filter (·.kind = .newAttention), alert.sessionId = some id) ↔
      ShowsAttention alerts id := by
  simp only [List.mem_filter, decide_eq_true_eq, ShowsAttention, and_assoc]

theorem mem_soundedAttention (calls : List ObserveCall) (id : String) :
    id ∈ (calls.foldl heard {}).soundedAttention ↔
      ∃ c ∈ calls, ShowsAttention c.alerts id := by
  induction calls using List.reverseRecOn with
  | nil => simp
  | append_singleton calls call ih =>
    rw [List.foldl_append, List.foldl_cons, List.foldl_nil]
    show id ∈ (playAttentionSounds _ call.alerts call.sessions).1 ↔ _
    rw [playAttentionSounds, mem_sounded_foldl, exists_newAttention, ih]
    simp only [List.mem_append, List.mem_singleton, or_and_right, exists_or, exists_eq_left]

/-- A session sounds at the first call that shows its alert, and once there. -/
theorem attention_sounds_first (before : List ObserveCall) (call : ObserveCall) :
    (attentionSounds before call).Nodup ∧ ∀ id, id ∈ attentionSounds before call ↔
      ShowsAttention call.alerts id ∧ ∀ c ∈ before, ¬ ShowsAttention c.alerts id := by
  have hloop := requests_foldl call.sessions (call.alerts.filter (·.kind = .newAttention))
    ((before.foldl heard {}).soundedAttention, []) (fun k hk => by cases hk) List.nodup_nil
  refine ⟨hloop.1, fun id => ?_⟩
  refine (hloop.2 id).trans ?_
  rw [exists_newAttention, mem_soundedAttention, and_comm]
  simp

/-- A session sounds exactly when its alert appears, in the histories in which no alert comes
back after it was gone. -/
theorem attention_sounds_iff (calls : List ObserveCall) :
    (∀ before call after, calls = before ++ call :: after → ∀ id,
      id ∈ attentionSounds before call ↔ ShowsAttention call.alerts id ∧
        ∀ last ∈ before.getLast?, ¬ ShowsAttention last.alerts id) ↔
    ∀ before call after, calls = before ++ call :: after → ∀ id,
      ShowsAttention call.alerts id →
      (∀ last ∈ before.getLast?, ¬ ShowsAttention last.alerts id) →
      ∀ c ∈ before, ¬ ShowsAttention c.alerts id := by
  refine forall₄_congr fun before call after _ => forall_congr' fun id => ?_
  rw [(attention_sounds_first before call).2 id]
  constructor
  · intro h hshows hlast
    exact (h.2 ⟨hshows, hlast⟩).2
  · intro h
    refine ⟨fun hfirst => ⟨hfirst.1, fun last hlast => ?_⟩, fun hnow => ⟨hnow.1, h hnow.1 hnow.2⟩⟩
    exact hfirst.2 last (List.mem_of_getLast? hlast)

/-- The alert of a session that asks a question. -/
def questionAlert (raisedAtMs : ℤ) : ActiveAlert :=
  ⟨.newAttention, some "s1", some .question, "Session requires attention: Question", raisedAtMs⟩

/-- A session asks, the user answers, and the session asks again. -/
def askedTwice : List ObserveCall :=
  [⟨[questionAlert 1], []⟩, ⟨[], []⟩, ⟨[questionAlert 2], []⟩]

/-- There is no sound for the second question. -/
theorem second_question_is_silent :
    ¬ ∀ before call after, askedTwice = before ++ call :: after → ∀ id,
      (id ∈ attentionSounds before call ↔ ShowsAttention call.alerts id ∧
        ∀ last ∈ before.getLast?, ¬ ShowsAttention last.alerts id) := by
  intro hclaim
  have hsilent : attentionSounds (askedTwice.take 2) ⟨[questionAlert 2], []⟩ = [] := by
    decide
  have hiff := hclaim (askedTwice.take 2) ⟨[questionAlert 2], []⟩ [] rfl "s1"
  rw [hsilent] at hiff
  refine absurd (hiff.2 ⟨⟨questionAlert 2, by simp, rfl, rfl⟩, fun last hlast => ?_⟩) (by simp)
  obtain rfl : last = ⟨[], []⟩ := (Option.some.inj hlast).symm
  rintro ⟨alert, halert, -⟩
  cases halert

end AlertNotifier

end LlmNotch
