import LlmNotch.SessionEnding

/-!
# The steps around the status

Before the host starts or updates the session of a payload it looks up the process the payload
names (`checkedRoot`). Afterwards it registers the root of the session, reports its attention
and its terminal, and reconciles the roots of all sessions. Whether these steps succeed is
known before the first of them (`Completes`); they keep the label and the status of the session
(`wp_rest_outcome`), and if one of them fails, the ones before it stay.
-/

namespace LlmNotch

namespace Host

open AppCore

/-! ## The root a payload names -/

/-- The root that is registered later, if any; `none` if the payload is rejected. -/
def checkedRoot (env : HostEnv) (incoming : AgentSession) :
    Option (Option (ProcessIdentity × AttributionQuality)) :=
  match incoming.processRoot with
  | none => some none
  | some root =>
    if isTerminal incoming.status then some none
    else match env.processes root.pid with
      | none => none
      | some observed =>
        if Metrics.startTimesMatch root.startedAtMs observed.startedAtMs then
          if attributionForSource incoming.source = .unknown then some none
          else some (some (observed, attributionForSource incoming.source))
        else none

/-- The process is looked up at most once. -/
def rootCalls (incoming : AgentSession) : ℕ :=
  if incoming.processRoot.isSome && !isTerminal incoming.status then 1 else 0

section Check

variable {h : HostWorld} {incoming : AgentSession}

/-- Only a session that has not ended gets a root, and only from a known source. -/
theorem checkedRoot_some {env : HostEnv} {r : ProcessIdentity × AttributionQuality}
    (hr : checkedRoot env incoming = some (some r)) :
    r.2 ≠ .unknown ∧ incoming.source ≠ .unknown ∧ isTerminal incoming.status = false := by
  unfold checkedRoot at hr
  split at hr
  · cases hr
  · split at hr
    · cases hr
    · rename_i hactive
      split at hr
      · cases hr
      · split at hr
        · split at hr
          · cases hr
          · rename_i hknown
            obtain rfl := Option.some.inj (Option.some.inj hr)
            refine ⟨hknown, fun hsource => hknown ?_, by simpa using hactive⟩
            rw [hsource]
            rfl
        · cases hr

theorem wp_validatedRoot_outcome
    {Q : Option (ProcessIdentity × AttributionQuality) → HostWorld → Prop}
    {E : HostFault → HostWorld → Prop}
    (hbad : checkedRoot h.env incoming = none →
      ∀ text h', h'.world = h.world → E (.rejected text) h')
    (hQ : ∀ r, checkedRoot h.env incoming = some r → ∀ h',
      h'.sketch = h.sketch.skip (rootCalls incoming) → h'.world = h.world → Q r h') :
    wp (validatedRoot incoming) h Q E := by
  unfold validatedRoot
  split
  · rename_i hnone
    refine hQ none ?_ h ?_ rfl
    · simp only [checkedRoot, hnone]
    · simp only [rootCalls, hnone]
      rfl
  · rename_i root hroot
    split
    · rename_i hterminal
      refine hQ none ?_ h ?_ rfl
      · simp only [checkedRoot, hroot, if_pos hterminal]
      · simp only [rootCalls, hroot, hterminal]
        rfl
    · rename_i hactive
      have hcalls : rootCalls incoming = 1 := by
        simp [rootCalls, hroot, hactive]
      rw [hcalls] at hQ
      rw [wp_bind, wp_resolveProcessIdentity]
      simp only [checkedRoot, hroot, if_neg hactive] at hbad hQ
      split
      · rename_i hprocess
        rw [hprocess] at hbad
        exact hbad rfl _ _ rfl
      · rename_i observed hprocess
        simp only [hprocess] at hbad hQ
        split
        · rename_i hmatch
          simp only [if_pos hmatch] at hQ
          refine hQ _ ?_ _ rfl rfl
          split <;> rfl
        · rename_i hmismatch
          rw [if_neg hmismatch] at hbad
          exact hbad rfl _ _ rfl

end Check

/-! ## When the steps succeed -/

namespace Sketch

/-- The identifier is valid, and the integration of the source supports the attention. -/
structure Supports (sk : Sketch) (incoming : AgentSession) : Prop where
  valid : validateExternalSessionId incoming.externalSessionId = .ok ()
  attention : ∃ c, sk.integrations.find? (·.source = incoming.source) = some c ∧
    supportsAttention c incoming.attention = true

/-- The session with the terminal of the payload. -/
def withTerminal (s : AgentSession) (terminal : VerifiedTerminalContext) : AgentSession :=
  { s with verifiedTerminal := some terminal }

/-- From the terminal on. -/
def CompletesTerminal (sk : Sketch) (s : AgentSession) : Option VerifiedTerminalContext → Prop
  | none => sk.settles = true
  | some terminal => validateSessionId s.id = .ok () ∧
      ((sk.change s.id fun _ => withTerminal s terminal).skip 1).settles = true

/-- From the attention on. -/
def CompletesAttention (sk : Sketch) (s incoming : AgentSession) : Prop :=
  if incoming.attention = .none then sk.CompletesTerminal s incoming.verifiedTerminal
  else sk.Supports incoming ∧
    ((sk.change s.id fun _ => alerted s (attentionOfSession incoming)).skip 1).CompletesTerminal
      (alerted s (attentionOfSession incoming)) incoming.verifiedTerminal

/-- All steps after the status succeed : there is room for the root, the attention is supported,
the identifier is valid if there is a terminal, and the roots fit in the end. -/
def Completes (sk : Sketch) (s incoming : AgentSession) :
    Option (ProcessIdentity × AttributionQuality) → Prop
  | none => sk.CompletesAttention s incoming
  | some (observed, attribution) => sk.Room s.id ∧
      (sk.register incoming s observed attribution).CompletesAttention
        (rooted s (rootOf incoming observed)) incoming

end Sketch

/-! ## What the steps keep -/

/-- Events were recorded, and the session kept its identity, its label and its status. -/
structure Continued (id : String) (s : AgentSession) (w w' : World) : Prop where
  grows : ∀ k, w.registry.nextEventSequence k ≤ w'.registry.nextEventSequence k
  stored : ∃ t, w'.registry.sessions.lookup id = some t ∧ t.key = s.key ∧ t.label = s.label ∧
    t.status = s.status

namespace Continued

variable {id : String} {s t : AgentSession} {w v u : World}

theorem trans (h : Continued id s w v) (h' : ∀ t, v.registry.sessions.lookup id = some t →
    Continued id t v u) : Continued id s w u := by
  obtain ⟨t, ht, hkey, hlabel, hstatus⟩ := h.stored
  obtain ⟨t', ht', hkey', hlabel', hstatus'⟩ := (h' t ht).stored
  exact ⟨fun k => (h.grows k).trans ((h' t ht).grows k), t', ht', hkey'.trans hkey,
    hlabel'.trans hlabel, hstatus'.trans hstatus⟩

end Continued

section Rest

variable {h : HostWorld} {incoming s : AgentSession} {cfg : CoreConfig}

theorem nextEventSequence_congr {r r' : SessionRegistry} (h : r'.events = r.events) (k : String) :
    r'.nextEventSequence k = r.nextEventSequence k := by
  unfold SessionRegistry.nextEventSequence SessionRegistry.eventsFor
  rw [h]

variable {id : String}

theorem Unrooted.continued {w w' : World} (hu : Unrooted w w')
    (hs : w.registry.sessions.lookup id = some s) : Continued id s w w' := by
  refine ⟨fun k => (nextEventSequence_congr hu.events k).ge, ?_⟩
  rcases hu.sessions hs with hs' | ⟨-, hs'⟩
  · exact ⟨s, hs', rfl, rfl, rfl⟩
  · exact ⟨s.withoutRoot, hs', rfl, rfl, rfl⟩

theorem continued_entered (hs : h.world.registry.sessions.lookup s.id = some s) :
    Continued s.id s h.world (h.called (h.world.entered h.env.core)).world :=
  ⟨fun _ => Nat.le_refl _, s, hs, rfl, rfl, rfl⟩

/-- The steps of an upsert from the terminal on. -/
abbrev fromTerminal (cfg : CoreConfig) (incoming : AgentSession) (id : String) : HostM Unit := do
  reportTerminal id incoming.verifiedTerminal
  recordConnectorTraffic incoming.source incoming.lastEventAtMs
  reconcileMetricRoots cfg

/-- The steps of an upsert from the attention on. -/
abbrev fromAttention (cfg : CoreConfig) (incoming : AgentSession) (id : String) : HostM Unit := do
  reportAttention cfg incoming
  fromTerminal cfg incoming id

/-- The steps of an upsert from the root on. -/
abbrev fromRoot (cfg : CoreConfig) (incoming : AgentSession) (id : String)
    (root : Option (ProcessIdentity × AttributionQuality)) : HostM Unit := do
  registerRoot cfg incoming id root
  fromAttention cfg incoming id

/-- A root to register is attributed, and is reported for a valid identifier. -/
def RootReports (incoming : AgentSession)
    (root : Option (ProcessIdentity × AttributionQuality)) : Prop :=
  ∀ r, root = some r → r.2 ≠ .unknown ∧ incoming.source ≠ .unknown ∧
    validateExternalSessionId incoming.externalSessionId = .ok ()

/-- Finish the steps from the terminal on. -/
theorem wp_restTerminal_outcome (hk : Keyed h.world.registry)
    (hs : h.world.registry.sessions.lookup s.id = some s) (hid : id = s.id) :
    wp (fromTerminal cfg incoming id) h
      (fun _ h' => h.sketch.CompletesTerminal s incoming.verifiedTerminal ∧
        Continued s.id s h.world h'.world)
      (fun f h' => Denied f ∨ Refusal f ∧ ¬ h.sketch.CompletesTerminal s incoming.verifiedTerminal ∧
        Continued s.id s h.world h'.world) := by
  subst hid
  unfold fromTerminal
  cases hterminal : incoming.verifiedTerminal with
  | none =>
    refine wp_mono (wp_finish (h := h) hk) ?_ ?_
    · rintro _ h' ⟨hsettles, hunrooted, -⟩
      exact ⟨hsettles, hunrooted.continued hs⟩
    · rintro f h' (hd | ⟨hf, hsettles, hunrooted, -⟩)
      · exact Or.inl hd
      · refine Or.inr ⟨hf, fun hyes => ?_, hunrooted.continued hs⟩
        rw [hyes] at hsettles
        cases hsettles
  | some terminal =>
    rw [wp_bind]
    refine wp_reportTerminal_outcome hs (fun f h' hd => Or.inl hd)
      (fun hbad f => Or.inr ⟨⟨_, rfl⟩, fun hc => hbad hc.1, continued_entered hs⟩) fun hok w' hw' => ?_
    set t := Sketch.withTerminal s terminal with ht
    have hsessions : w'.registry.sessions = h.world.registry.sessions.adjust s.id fun _ => t :=
      hw'.registry.sessions
    have hk' : Keyed w'.registry := keyed_change hk hsessions rfl
    have hlookup : w'.registry.sessions.lookup s.id = some t := by
      rw [hsessions, Dict.lookup_adjust, if_pos rfl, hs]
      rfl
    have hcontinued : Continued s.id s h.world w' :=
      ⟨fun k => (nextEventSequence_congr hw'.registry.events k).ge, t, hlookup, rfl, rfl, rfl⟩
    have hsketch : (h.called w').sketch = (h.sketch.change s.id fun _ => t).skip 1 :=
      Sketch.ext hsessions hw'.integrations rfl rfl
    have hcompletes : h.sketch.CompletesTerminal s (some terminal) ↔
        (h.called w').sketch.settles = true := by
      rw [hsketch]
      exact ⟨fun hc => hc.2, fun hc => ⟨hok, hc⟩⟩
    rw [hcompletes]
    refine wp_mono (wp_finish (h := h.called w') hk') ?_ ?_
    · rintro _ h' ⟨hsettles, hunrooted, -⟩
      exact ⟨hsettles, hcontinued.trans fun u hu => Unrooted.continued hunrooted hu⟩
    · rintro f h' (hd | ⟨hf, hsettles, hunrooted, -⟩)
      · exact Or.inl hd
      · refine Or.inr ⟨hf, fun hyes => ?_, hcontinued.trans fun u hu => Unrooted.continued hunrooted hu⟩
        rw [hyes] at hsettles
        cases hsettles

theorem Wrote.continued {t : AgentSession} {h' : HostWorld} (hw : Wrote id t h h')
    (hs : h.world.registry.sessions.lookup id = some s) (hkey : t.key = s.key)
    (hlabel : t.label = s.label) (hstatus : t.status = s.status) :
    Continued id s h.world h'.world :=
  ⟨hw.grows, t, hw.lookup hs, hkey, hlabel, hstatus⟩

/-- Finish the steps from the attention on. -/
theorem wp_restAttention_outcome (hk : Keyed h.world.registry)
    (hres : h.world.registry.resolveExternal incoming.source incoming.externalSessionId = some s)
    (hid : id = s.id) :
    wp (fromAttention cfg incoming id) h
      (fun _ h' => h.sketch.CompletesAttention s incoming ∧ Continued s.id s h.world h'.world)
      (fun f h' => Denied f ∨ Refusal f ∧ ¬ h.sketch.CompletesAttention s incoming ∧
        Continued s.id s h.world h'.world) := by
  have hs := lookup_of_resolve hk hres
  unfold fromAttention
  by_cases hattention : incoming.attention = .none
  · rw [reportAttention_none hattention, pure_bind]
    simp only [Sketch.CompletesAttention, if_pos hattention]
    exact wp_restTerminal_outcome hk hs hid
  · rw [wp_bind]
    simp only [Sketch.CompletesAttention, if_neg hattention]
    refine wp_reportAttention_outcome hk hres hattention (fun f h' hd => Or.inl hd)
      (fun hno f => Or.inr ⟨⟨_, rfl⟩, fun hc => hno ⟨hc.1.valid, hc.1.attention⟩,
        continued_entered hs⟩)
      fun hsupports h₁ hw => ?_
    have hcontinued : Continued s.id s h.world h₁.world := hw.continued hs rfl rfl rfl
    have hk₁ : Keyed h₁.world.registry := hw.keyed hk rfl
    have hs₁ := hw.lookup hs
    have hsupported : h.sketch.Supports incoming := ⟨hsupports.valid, hsupports.attention⟩
    rw [← hw.sketch]
    refine wp_mono (wp_restTerminal_outcome
      (s := alerted s (attentionOfSession incoming)) hk₁ hs₁ hid) ?_ ?_
    · rintro _ h' ⟨hc, hcontinued'⟩
      refine ⟨⟨hsupported, hc⟩, hcontinued.trans fun t ht => ?_⟩
      obtain rfl := Option.some.inj (hs₁.symm.trans ht)
      exact hcontinued'
    · rintro f h' (hd | ⟨hf, hno, hcontinued'⟩)
      · exact Or.inl hd
      · refine Or.inr ⟨hf, fun hc => hno hc.2, hcontinued.trans fun t ht => ?_⟩
        obtain rfl := Option.some.inj (hs₁.symm.trans ht)
        exact hcontinued'

/-- Finish the steps after the status. -/
theorem wp_rest_outcome {root : Option (ProcessIdentity × AttributionQuality)}
    (hk : Keyed h.world.registry)
    (hres : h.world.registry.resolveExternal incoming.source incoming.externalSessionId = some s)
    (hid : id = s.id) (hroot : RootReports incoming root) :
    wp (fromRoot cfg incoming id root) h
      (fun _ h' => h.sketch.Completes s incoming root ∧ Continued s.id s h.world h'.world)
      (fun f h' => Denied f ∨ Refusal f ∧ ¬ h.sketch.Completes s incoming root ∧
        Continued s.id s h.world h'.world) := by
  have hs := lookup_of_resolve hk hres
  subst hid
  cases hcases : root with
  | none => exact wp_restAttention_outcome hk hres rfl
  | some r =>
    obtain ⟨hattribution, hsource, hvalid⟩ := hroot r hcases
    obtain ⟨observed, attribution⟩ := r
    rw [wp_bind]
    refine wp_registerRoot_outcome hk hres hvalid hsource hattribution (fun f h' hd => Or.inl hd)
      (fun hfull f sk h' hsk hm => Or.inr ⟨⟨_, rfl⟩, fun hc => hfull hc.1, ?_⟩) fun hroom h₁ hm => ?_
    · exact ⟨hm.grows, _, hm.lookup hsk hs, rfl, rfl, rfl⟩
    · have hsk := h.sketch.register_sessions incoming s observed attribution
      have hs₁ := hm.lookup hsk hs
      have hcontinued : Continued s.id s h.world h₁.world := ⟨hm.grows, _, hs₁, rfl, rfl, rfl⟩
      simp only [Sketch.Completes, ← hm.sketch]
      refine wp_mono (wp_restAttention_outcome (hm.keyed hsk hk rfl) (hm.resolve hsk hk hres)
        rfl) ?_ ?_
      · rintro _ h' ⟨hc, hcontinued'⟩
        refine ⟨⟨hroom, hc⟩, hcontinued.trans fun t ht => ?_⟩
        obtain rfl := Option.some.inj (hs₁.symm.trans ht)
        exact hcontinued'
      · rintro f h' (hd | ⟨hf, hno, hcontinued'⟩)
        · exact Or.inl hd
        · refine Or.inr ⟨hf, fun hc => hno hc.2, hcontinued.trans fun t ht => ?_⟩
          obtain rfl := Option.some.inj (hs₁.symm.trans ht)
          exact hcontinued'

end Rest

end Host

end LlmNotch
