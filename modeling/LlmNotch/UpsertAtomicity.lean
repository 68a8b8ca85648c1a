import LlmNotch.StartOutcomes
import LlmNotch.UpsertOutcomes

/-!
# Ingests that fail halfway

An ingest that starts or updates a session is a sequence of calls of the core, each with checks
of its own, and what the earlier ones did is not taken back if a later one fails. So a payload
that is rejected, kept in the spool and ingested again may leave an event each time.

`upsert_atomic_iff` : a rejected ingest leaves the sessions, the events and the alerts of the
core as they were exactly if, once something was written, all that follows succeeds
(`Atomic`).
-/

namespace LlmNotch

namespace Host

open Ipc AppCore

/-! ## Failures -/

/-- The sessions, the events and the alerts of the core are the same. -/
structure SameCore (w w' : World) : Prop where
  sessions : w'.registry.sessions = w.registry.sessions
  events : w'.registry.events = w.registry.events
  alerts : w'.inner.alerts = w.inner.alerts

/-- The repository failed, or the call panicked although `c` holds, or it was refused and `c`
decides whether the core is as it was. -/
def Judged (c : Prop) (w : World) (f : HostFault) (h' : HostWorld) : Prop :=
  Denied f ∨ (c ∧ ∃ message, f = .panic message) ∨ Refusal f ∧ (c ↔ SameCore w h'.world)

section Failures

variable {w v w' : World} {f : HostFault} {h' : HostWorld} {c : Prop}

theorem refusal_rejected (text : String) : Refusal (.rejected text) :=
  ⟨text, rfl⟩

theorem SameCore.refl (w : World) : SameCore w w :=
  ⟨rfl, rfl, rfl⟩

theorem SameCore.trans (h : SameCore w v) (h' : SameCore v w') : SameCore w w' :=
  ⟨h'.sessions.trans h.sessions, h'.events.trans h.events, h'.alerts.trans h.alerts⟩

theorem SameCore.symm (h : SameCore w v) : SameCore v w :=
  ⟨h.sessions.symm, h.events.symm, h.alerts.symm⟩

/-- A change that makes no difference may be left out. -/
theorem SameCore.iff (h : SameCore w v) : SameCore w w' ↔ SameCore v w' :=
  ⟨fun h' => h.symm.trans h', fun h' => h.trans h'⟩

theorem judged_denied (h : Denied f) : Judged c w f h' :=
  Or.inl h

theorem judged_iff (hf : Refusal f) (h : c ↔ SameCore w h'.world) : Judged c w f h' :=
  Or.inr (Or.inr ⟨hf, h⟩)

theorem judged_clean {text : String} (hc : c) (h : SameCore w h'.world) :
    Judged c w (.rejected text) h' :=
  judged_iff (refusal_rejected text) (iff_of_true hc h)

theorem judged_dirty (hf : Refusal f) (hc : ¬ c) (h : ¬ SameCore w h'.world) : Judged c w f h' :=
  judged_iff hf (iff_of_false hc h)

theorem Judged.of_same (hj : Judged c v f h') (h : SameCore w v) : Judged c w f h' := by
  rcases hj with hd | hpanic | ⟨hf, hiff⟩
  · exact Or.inl hd
  · exact Or.inr (Or.inl hpanic)
  · exact judged_iff hf (hiff.trans h.iff.symm)

/-- A new event makes a difference. -/
theorem not_sameCore_of_later (id : String)
    (h : w.registry.nextEventSequence id < w'.registry.nextEventSequence id) :
    ¬ SameCore w w' := by
  intro hsame
  rw [nextEventSequence_congr hsame.events] at h
  exact lt_irrefl _ h

theorem not_sameCore_of_continued {id : String} {s : AgentSession}
    (h : w.registry.nextEventSequence id < v.registry.nextEventSequence id) :
    ∀ w', Continued id s v w' → ¬ SameCore w w' :=
  fun _ hc => not_sameCore_of_later id (h.trans_le (hc.grows id))

/-- A session that is written makes no difference exactly if it was stored. -/
theorem sameCore_withSession {id : String} {s t : AgentSession}
    (hs : w.registry.sessions.lookup id = some s) : SameCore w (w.withSession id t) ↔ t = s := by
  constructor
  · intro hsame
    have ht := lookup_withSession t hs
    rw [hsame.sessions, hs] at ht
    exact (Option.some.inj ht).symm
  · rintro rfl
    rw [withSession_self hs]
    exact SameCore.refl w

/-- The pass over the roots makes no difference exactly if it drops none. -/
theorem Unrooted.sameCore_iff {dropped : Bool} (hu : Unrooted w w')
    (hf : Unrooted.Forgot dropped w w') : SameCore w w' ↔ dropped = false := by
  cases dropped with
  | false =>
    have hstill : ∀ id, w'.registry.sessions.lookup id = w.registry.sessions.lookup id := hf
    exact iff_of_true ⟨(hu.still hstill).1, hu.events, hu.alerts⟩ rfl
  | true =>
    refine iff_of_false (fun hsame => ?_) Bool.noConfusion
    obtain ⟨id, s, hs, hroot, hs'⟩ := hf
    rw [hsame.sessions, hs] at hs'
    exact withoutRoot_ne hroot (Option.some.inj hs').symm

end Failures

/-! ## Steps after a status that was not written -/

namespace Sketch

/-- From the terminal on. -/
def RestsTerminal (sk : Sketch) (s : AgentSession) : Option VerifiedTerminalContext → Prop
  | none => sk.settles = true ∨ sk.drops = false
  | some terminal => validateSessionId s.id = .ok () →
      ((sk.change s.id fun _ => withTerminal s terminal).skip 1).settles = true ∨
        s.verifiedTerminal = some terminal ∧
          ((sk.change s.id fun _ => withTerminal s terminal).skip 1).drops = false

/-- From the attention on. -/
def RestsAttention (sk : Sketch) (s incoming : AgentSession) : Prop :=
  if incoming.attention = .none then sk.RestsTerminal s incoming.verifiedTerminal
  else sk.Supports incoming →
    ((sk.change s.id fun _ => alerted s (attentionOfSession incoming)).skip 1).CompletesTerminal
      (alerted s (attentionOfSession incoming)) incoming.verifiedTerminal

/-- If the steps after the status fail, the ones before have made no difference. -/
def Rests (sk : Sketch) (s incoming : AgentSession) :
    Option (ProcessIdentity × AttributionQuality) → Prop
  | none => sk.RestsAttention s incoming
  | some root => sk.Completes s incoming (some root)

end Sketch

section Rest

variable {h : HostWorld} {incoming s : AgentSession} {cfg : CoreConfig}

theorem sameCore_entered : SameCore h.world (h.called (h.world.entered h.env.core)).world :=
  ⟨rfl, rfl, rfl⟩

/-- A terminal makes no difference exactly if the session had it. -/
theorem sameCore_withTerminal {w w' v : World} {terminal : VerifiedTerminalContext} {dropped : Bool}
    (hs : w.registry.sessions.lookup s.id = some s)
    (hw : Published s.id (Sketch.withTerminal s terminal) w w') (hu : Unrooted w' v)
    (hf : Unrooted.Forgot dropped w' v) :
    SameCore w v ↔ s.verifiedTerminal = some terminal ∧ dropped = false := by
  by_cases hterminal : s.verifiedTerminal = some terminal
  · have hself : Sketch.withTerminal s terminal = s := by
      unfold Sketch.withTerminal
      rw [← hterminal]
    have hsame : SameCore w w' := by
      rw [hself] at hw
      have hr := hw.registry
      rw [withSession_self hs] at hr
      exact ⟨hr.sessions, hr.events, hw.alerts⟩
    rw [hsame.iff, hu.sameCore_iff hf]
    exact (and_iff_right hterminal).symm
  · refine iff_of_false (fun hsame => hterminal ?_) fun hno => hterminal hno.1
    have hw' : w'.registry.sessions.lookup s.id = some (Sketch.withTerminal s terminal) := by
      rw [hw.registry.sessions]
      exact lookup_withSession _ hs
    have hv : v.registry.sessions.lookup s.id = some s := by
      rw [hsame.sessions]
      exact hs
    rcases hu.sessions hw' with hs' | ⟨-, hs'⟩
    · rw [hv] at hs'
      exact congrArg AgentSession.verifiedTerminal (Option.some.inj hs')
    · rw [hv] at hs'
      exact congrArg AgentSession.verifiedTerminal (Option.some.inj hs')

variable {id : String} {root : Option (ProcessIdentity × AttributionQuality)}

section

variable (hk : Keyed h.world.registry)

include hk

/-- From the terminal on, if nothing was written before. -/
theorem wp_restTerminal_judged (hs : h.world.registry.sessions.lookup s.id = some s)
    (hid : id = s.id) :
    wp (fromTerminal cfg incoming id) h
      (fun _ _ => h.sketch.RestsTerminal s incoming.verifiedTerminal)
      (Judged (h.sketch.RestsTerminal s incoming.verifiedTerminal) h.world) := by
  subst hid
  unfold fromTerminal
  cases hterminal : incoming.verifiedTerminal with
  | none =>
    refine wp_mono (wp_finish (h := h) hk) (fun _ h' hok => Or.inl hok.1) ?_
    rintro f h' (hd | ⟨hrefusal, hsettles, hu, hf⟩)
    · exact judged_denied hd
    · refine judged_iff hrefusal ?_
      rw [hu.sameCore_iff hf]
      simp [Sketch.RestsTerminal, hsettles]
  | some terminal =>
    rw [wp_bind]
    refine wp_reportTerminal_outcome hs (fun _ _ hd => judged_denied hd)
      (fun hbad f => judged_clean (fun hok => absurd hok hbad) sameCore_entered)
      fun hok w' hw' => ?_
    have hsessions : w'.registry.sessions =
        h.world.registry.sessions.adjust s.id fun _ => Sketch.withTerminal s terminal :=
      hw'.registry.sessions
    have hk' : Keyed w'.registry := keyed_change hk hsessions rfl
    have hsketch : (h.called w').sketch =
        (h.sketch.change s.id fun _ => Sketch.withTerminal s terminal).skip 1 :=
      Sketch.ext hsessions hw'.integrations rfl rfl
    simp only [Sketch.RestsTerminal, hok, true_imp_iff, ← hsketch]
    refine wp_mono (wp_finish (h := h.called w') hk') (fun _ h' hdone => Or.inl hdone.1) ?_
    rintro f h' (hd | ⟨hrefusal, hsettles, hu, hf⟩)
    · exact judged_denied hd
    · refine judged_iff hrefusal ?_
      have hsame : SameCore h.world h'.world ↔
          s.verifiedTerminal = some terminal ∧ (h.called w').sketch.drops = false :=
        sameCore_entered.iff.trans (sameCore_withTerminal hs hw' hu hf)
      rw [hsame, hsettles]
      simp

/-- From the attention on, if nothing was written before. -/
theorem wp_restAttention_judged
    (hres : h.world.registry.resolveExternal incoming.source incoming.externalSessionId = some s)
    (hid : id = s.id) :
    wp (fromAttention cfg incoming id) h
      (fun _ _ => h.sketch.RestsAttention s incoming)
      (Judged (h.sketch.RestsAttention s incoming) h.world) := by
  have hs := lookup_of_resolve hk hres
  unfold fromAttention
  by_cases hattention : incoming.attention = .none
  · rw [reportAttention_none hattention, pure_bind]
    simp only [Sketch.RestsAttention, if_pos hattention]
    exact wp_restTerminal_judged hk hs hid
  · rw [wp_bind]
    simp only [Sketch.RestsAttention, if_neg hattention]
    refine wp_reportAttention_outcome hk hres hattention (fun _ _ hd => judged_denied hd)
      (fun hno f => judged_clean (fun hc => absurd ⟨hc.valid, hc.attention⟩ hno) sameCore_entered)
      fun hsupports h₁ hw => ?_
    have hsupported : h.sketch.Supports incoming := ⟨hsupports.valid, hsupports.attention⟩
    simp only [hsupported, true_imp_iff, ← hw.sketch]
    refine wp_mono (wp_restTerminal_outcome (s := alerted s (attentionOfSession incoming))
      (hw.keyed hk rfl) (hw.lookup hs) hid) (fun _ _ hok => hok.1) ?_
    rintro f h' (hd | ⟨hrefusal, hno, hcontinued⟩)
    · exact judged_denied hd
    · refine judged_dirty hrefusal hno (not_sameCore_of_later s.id ?_)
      exact hw.later.trans_le (hcontinued.grows _)

/-- The steps after the status, if nothing was written before. -/
theorem wp_rests_judged
    (hres : h.world.registry.resolveExternal incoming.source incoming.externalSessionId = some s)
    (hid : id = s.id) (hroot : RootReports incoming root) :
    wp (fromRoot cfg incoming id root) h
      (fun _ _ => h.sketch.Rests s incoming root)
      (Judged (h.sketch.Rests s incoming root) h.world) := by
  subst hid
  cases hcases : root with
  | none => exact wp_restAttention_judged hk hres rfl
  | some r =>
    obtain ⟨hattribution, hsource, hvalid⟩ := hroot r hcases
    obtain ⟨observed, attribution⟩ := r
    rw [wp_bind]
    refine wp_registerRoot_outcome hk hres hvalid hsource hattribution
      (fun _ _ hd => judged_denied hd)
      (fun hfull f _ h' _ hm => judged_dirty (refusal_rejected f) (fun hc => hfull hc.1)
        (not_sameCore_of_later _ hm.later)) fun hroom h₁ hm => ?_
    have hsk := h.sketch.register_sessions incoming s observed attribution
    have hrests : h.sketch.Rests s incoming (some (observed, attribution)) ↔
        h₁.sketch.CompletesAttention (rooted s (rootOf incoming observed)) incoming := by
      rw [hm.sketch]
      exact and_iff_right hroom
    rw [hrests]
    refine wp_mono (wp_restAttention_outcome (hm.keyed hsk hk rfl) (hm.resolve hsk hk hres) rfl)
      (fun _ _ hok => hok.1) ?_
    rintro f h' (hd | ⟨hrefusal, hno, hcontinued⟩)
    · exact judged_denied hd
    · refine judged_dirty hrefusal hno (not_sameCore_of_later s.id ?_)
      exact hm.later.trans_le (hcontinued.grows _)

/-- The steps after a status that was written. -/
theorem wp_rest_judged {w : World}
    (hres : h.world.registry.resolveExternal incoming.source incoming.externalSessionId = some s)
    (hid : id = s.id) (hroot : RootReports incoming root)
    (hwrote : ∀ w', Continued s.id s h.world w' → ¬ SameCore w w') :
    wp (fromRoot cfg incoming id root) h
      (fun _ _ => h.sketch.Completes s incoming root)
      (Judged (h.sketch.Completes s incoming root) w) := by
  refine wp_mono (wp_rest_outcome hk hres hid hroot) (fun _ _ hok => hok.1) ?_
  rintro f h' (hd | ⟨hrefusal, hno, hcontinued⟩)
  · exact judged_denied hd
  · exact judged_dirty hrefusal hno (hwrote _ hcontinued)

end

end Rest

/-! ## Sessions the host has -/

/-- The update keeps the labels of the session, as far as it comes to assign them. -/
def KeepsLabels (s : AgentSession) (cmd : SessionUpdateCommand) : Prop :=
  validateOptional validateSessionLabel cmd.label = .ok () → KeepsLabel s cmd ∧
    (validateOptional validateWorkspaceLabel cmd.workspaceLabel = .ok () →
      KeepsWorkspaceLabel s cmd)

theorem leftover_eq_self {s : AgentSession} {cmd : SessionUpdateCommand} :
    leftover s cmd = s ↔ KeepsLabels s cmd := by
  unfold leftover KeepsLabels
  split
  · rename_i hlabel
    split
    · rename_i hworkspace
      rw [replaced_eq_self]
      exact ⟨fun h _ => ⟨h.1, fun _ => h.2⟩, fun h => ⟨(h hlabel).1, (h hlabel).2 hworkspace⟩⟩
    · rename_i hworkspace
      rw [relabelled_eq_self]
      exact ⟨fun h _ => ⟨h, fun hok => absurd hok hworkspace⟩, fun h => (h hlabel).1⟩
  · rename_i hlabel
    exact iff_of_true rfl fun hok => absurd hok hlabel

/-- The update of a session that is sent for a payload. -/
def currentUpdate (incoming : AgentSession) : SessionUpdateCommand :=
  updateOf incoming incoming.status (some incoming.label) incoming.workspaceLabel

/-- An update that is carried out is followed by steps that succeed, and one that is refused has
assigned no label. -/
structure AtomicUpdate (w : World) (sk : Sketch) (incoming e : AgentSession)
    (root : Option (ProcessIdentity × AttributionQuality)) : Prop where
  completes : Updatable w e (currentUpdate incoming) →
    ((sk.change e.id fun _ => updated e (currentUpdate incoming)).skip 1).Completes
      (updated e (currentUpdate incoming)) incoming root
  refused : ¬ Updatable w e (currentUpdate incoming) →
    Reporting w incoming.source incoming.externalSessionId → KeepsLabels e (currentUpdate incoming)

/-- An end that is carried out is followed by steps that succeed. -/
def AtomicEnd (w : World) (sk : Sketch) (incoming e : AgentSession)
    (root : Option (ProcessIdentity × AttributionQuality)) : Prop :=
  e.status ≠ .stale → Reporting w incoming.source incoming.externalSessionId →
    (((sk.change e.id fun _ => ended e (endOf incoming)).forget e.id).skip
      (endCalls e - 1)).Completes (ended e (endOf incoming)) incoming root

/-- A payload for a session that is stored. An end of a session that ended already is not
sent. -/
def AtomicExisting (w : World) (sk : Sketch) (incoming e : AgentSession)
    (root : Option (ProcessIdentity × AttributionQuality)) : Prop :=
  if hasEnded incoming.status then
    if hasEnded e.status then sk.Rests e incoming root else AtomicEnd w sk incoming e root
  else AtomicUpdate w sk incoming e root

section Existing

variable {h : HostWorld} {incoming e : AgentSession} {cfg : CoreConfig}
  {root : Option (ProcessIdentity × AttributionQuality)}

/-- The root of a payload is registered only if it is known and the session is still live. -/
structure RootKnown (incoming : AgentSession)
    (root : Option (ProcessIdentity × AttributionQuality)) : Prop where
  known : ∀ r, root = some r → r.2 ≠ .unknown ∧ incoming.source ≠ .unknown
  active : root.isSome = true → hasEnded incoming.status = false

theorem rootKnown_of_checked {env : HostEnv} (hr : checkedRoot env incoming = some root) :
    RootKnown incoming root := by
  refine ⟨fun r he => ?_, fun hsome => ?_⟩
  · obtain ⟨hattribution, hsource, -⟩ := checkedRoot_some (he ▸ hr)
    exact ⟨hattribution, hsource⟩
  · obtain ⟨r, rfl⟩ := Option.isSome_iff_exists.1 hsome
    obtain ⟨-, -, hactive⟩ := checkedRoot_some hr
    revert hactive
    cases incoming.status <;> decide

theorem RootKnown.valid (hr : RootKnown incoming root)
    (hvalid : hasEnded incoming.status = false →
      validateExternalSessionId incoming.externalSessionId = .ok ()) :
    RootReports incoming root := by
  intro r he
  obtain ⟨hattribution, hsource⟩ := hr.known r he
  exact ⟨hattribution, hsource, hvalid (hr.active (by rw [he]; rfl))⟩

/-- An ingest that updates a stored session. -/
theorem wp_update_judged (hk : Keyed h.world.registry)
    (hres : h.world.registry.resolveExternal incoming.source incoming.externalSessionId = some e)
    (hopen : hasEnded incoming.status = false) (hr : RootKnown incoming root) :
    wp (do
      updateExisting cfg incoming e
      fromRoot cfg incoming e.id root) h
      (fun _ _ => AtomicUpdate h.world h.sketch incoming e root)
      (Judged (AtomicUpdate h.world h.sketch incoming e root) h.world) := by
  have hs := lookup_of_resolve hk hres
  have hsend : updateExisting cfg incoming e =
      sendUpdate cfg incoming incoming.status (some incoming.label) incoming.workspaceLabel := by
    simp [updateExisting, hopen]
  rw [hsend, wp_bind]
  refine wp_sendUpdate_outcome hk hres (fun _ _ hd => judged_denied hd) (fun hno f => ⟨fun hrep => ?_,
    fun hsilent => ?_⟩) fun hc h₁ _ hw => ?_
  · have hatomic : AtomicUpdate h.world h.sketch incoming e root ↔
        KeepsLabels e (currentUpdate incoming) :=
      ⟨fun ha => ha.refused hno hrep, fun hkeeps => ⟨fun hc => absurd hc hno, fun _ _ => hkeeps⟩⟩
    rw [hatomic, ← leftover_eq_self]
    refine judged_iff (refusal_rejected f) ?_
    exact ((sameCore_withSession (w := h.world.entered h.env.core) hs).symm).trans
      sameCore_entered.iff.symm
  · refine judged_clean ⟨fun hc => absurd hc hno, fun _ hrep => absurd hrep hsilent⟩ ?_
    exact sameCore_entered
  · have hatomic : AtomicUpdate h.world h.sketch incoming e root ↔
        h₁.sketch.Completes (updated e (currentUpdate incoming)) incoming root := by
      rw [hw.sketch]
      exact ⟨fun ha => ha.completes hc, fun hdone => ⟨fun _ => hdone, fun hno => absurd hc hno⟩⟩
    rw [hatomic]
    exact wp_rest_judged (s := updated e (currentUpdate incoming)) (hw.keyed hk rfl)
      (hw.resolve hk hres) rfl (hr.valid fun _ => hc.reports.valid)
      (not_sameCore_of_continued hw.later)

/-- An ingest that ends a stored session. -/
theorem wp_end_judged (hk : Keyed h.world.registry)
    (hres : h.world.registry.resolveExternal incoming.source incoming.externalSessionId = some e)
    (hfinal : hasEnded incoming.status = true) (hopen : hasEnded e.status = false)
    (hr : RootKnown incoming root) :
    wp (do
      updateExisting cfg incoming e
      fromRoot cfg incoming e.id root) h
      (fun _ _ => AtomicEnd h.world h.sketch incoming e root)
      (Judged (AtomicEnd h.world h.sketch incoming e root) h.world) := by
  rw [wp_bind]
  refine wp_endExisting hk hres hfinal hopen (fun _ _ hd => judged_denied hd)
    (fun hno f => judged_clean (fun hlive hrep => absurd ⟨hlive, hrep⟩ hno) sameCore_entered)
    fun hlive hrep h₁ hm => ?_
  have hatomic : AtomicEnd h.world h.sketch incoming e root ↔
      h₁.sketch.Completes (ended e (endOf incoming)) incoming root := by
    rw [hm.sketch]
    exact ⟨fun ha => ha hlive hrep, fun hdone _ _ => hdone⟩
  rw [hatomic]
  exact wp_rest_judged (s := ended e (endOf incoming)) (hm.keyed rfl hk rfl)
    (hm.resolve rfl hk hres) rfl (hr.valid fun _ => hrep.valid) (not_sameCore_of_continued hm.later)

/-- An ingest for a stored session. -/
theorem wp_existing_judged (hk : Keyed h.world.registry)
    (hres : h.world.registry.resolveExternal incoming.source incoming.externalSessionId = some e)
    (hr : RootKnown incoming root) :
    wp (do
      updateExisting cfg incoming e
      fromRoot cfg incoming e.id root) h
      (fun _ _ => AtomicExisting h.world h.sketch incoming e root)
      (Judged (AtomicExisting h.world h.sketch incoming e root) h.world) := by
  unfold AtomicExisting
  split
  · rename_i hfinal
    split
    · rename_i hended
      have hnothing : updateExisting cfg incoming e = pure () := by
        simp [updateExisting, hfinal, hended, onlyIf]
      rw [hnothing, pure_bind]
      refine wp_rests_judged hk hres rfl (hr.valid fun hopen => ?_)
      rw [hfinal] at hopen
      cases hopen
    · rename_i hopen
      exact wp_end_judged hk hres hfinal (by simpa using hopen) hr
  · rename_i hopen
    exact wp_update_judged hk hres (by simpa using hopen) hr

end Existing

/-! ## Sessions that are started -/

/-- The start of a session the host sends. -/
def startOf (incoming : AgentSession) : SessionStartCommand where
  idempotencyKey := none
  source := incoming.source
  externalSessionId := incoming.externalSessionId
  label := incoming.label
  workspaceLabel := incoming.workspaceLabel
  status := startStatus incoming.status
  occurredAtMs := incoming.startedAtMs

/-- Whether a start is followed by a call for the status. -/
def follows : SessionStatus → Bool
  | .starting | .running => false
  | _ => true

/-- The session after that call. -/
def followed (incoming s : AgentSession) : AgentSession :=
  if hasEnded incoming.status then ended s (endOf incoming)
  else updated s (updateOf incoming incoming.status none none)

/-- The state after a session was created. -/
def Sketch.create (sk : Sketch) (candidate : Option String) (s : AgentSession) : Sketch :=
  { sk.skip 1 with sessions := (evicted sk.sessions candidate).insert s.id s }

/-- After a start that created the session `s`, all steps succeed. -/
def AtomicCreated (sk : Sketch) (incoming s : AgentSession)
    (root : Option (ProcessIdentity × AttributionQuality)) : Prop :=
  if follows incoming.status then
    ((sk.change s.id fun _ => followed incoming s).skip 1).Completes (followed incoming s)
      incoming root
  else sk.Completes s incoming root

/-- After a start that was a replay of session `s`, the steps succeed once the status of the
payload was written. -/
def AtomicReplayed (sk : Sketch) (incoming s : AgentSession)
    (root : Option (ProcessIdentity × AttributionQuality)) : Prop :=
  if follows incoming.status then
    isValidTransition s.status incoming.status = true →
      ((sk.change s.id fun _ => followed incoming s).skip 1).Completes (followed incoming s)
        incoming root
  else sk.Rests s incoming root

/-- A payload for a session the host does not have. -/
def AtomicNew (cfg : CoreConfig) (w : World) (sk : Sketch) (incoming : AgentSession)
    (root : Option (ProcessIdentity × AttributionQuality)) : Prop :=
  Startable w (startOf incoming) →
    match w.registry.resolveExternal incoming.source incoming.externalSessionId with
    | some s => AtomicReplayed (sk.skip 1) incoming s root
    | none =>
      w.registry.externalIndex.lookup
        (externalKey incoming.source incoming.externalSessionId) = none →
      ∀ candidate, w.registry.capacityEvictionCandidate (sk.envs 0).core.sessionsRank =
        .ok candidate →
      let s := newSession (startOf incoming)
        (cfg.sessionIdFor incoming.source incoming.externalSessionId)
      AtomicCreated (sk.create candidate s) incoming s root

section Started

variable {h : HostWorld} {incoming s : AgentSession} {cfg : CoreConfig}
  {root : Option (ProcessIdentity × AttributionQuality)}

theorem followed_id : (followed incoming s).id = s.id := by
  unfold followed
  split <;> rfl

theorem followed_key : (followed incoming s).key = s.key := by
  unfold followed
  split <;> rfl

/-- A new session may take the status of the payload. -/
theorem valid_startStatus {status : SessionStatus} :
    isValidTransition (startStatus status) status = true := by
  cases status <;> decide

/-- An update without labels is refused only for its status. -/
theorem updatable_status {w : World}
    (hrep : Reporting w incoming.source incoming.externalSessionId) :
    Updatable w s (updateOf incoming incoming.status none none) ↔
      isValidTransition s.status incoming.status = true := by
  constructor
  · intro hc
    cases hvalid : isValidTransition s.status incoming.status with
    | true => rfl
    | false => exact absurd ⟨_, rfl, hvalid⟩ hc.status
  · rintro hvalid
    refine ⟨hrep, rfl, rfl, ?_⟩
    rintro ⟨status, hstatus, hinvalid⟩
    cases hstatus
    rw [hvalid] at hinvalid
    cases hinvalid

variable {E : HostFault → HostWorld → Prop}

/-- The call that follows a start, if there is one. -/
theorem wp_updateStarted_outcome {Q : Unit → HostWorld → Prop} (hk : Keyed h.world.registry)
    (hres : h.world.registry.resolveExternal incoming.source incoming.externalSessionId = some s)
    (hrep : Reporting h.world incoming.source incoming.externalSessionId)
    (hfollows : follows incoming.status = true) (hE : ∀ f h', Denied f → E f h')
    (hbad : isValidTransition s.status incoming.status = false →
      ∀ text h', SameCore h.world h'.world → E (.rejected text) h')
    (hQ : isValidTransition s.status incoming.status = true →
      ∀ h', Wrote s.id (followed incoming s) h h' → Q () h') :
    wp (updateStarted cfg incoming) h Q E := by
  have hs := lookup_of_resolve hk hres
  cases hfinal : hasEnded incoming.status with
  | true =>
    have hend : updateStarted cfg incoming = sendEnd cfg incoming := by
      unfold updateStarted
      revert hfinal
      cases incoming.status <;> simp [hasEnded]
    have hfollowed : followed incoming s = ended s (endOf incoming) := by
      simp [followed, hfinal]
    rw [hfollowed] at hQ
    rw [hend]
    refine wp_sendEnd_outcome hk hres hfinal hE (fun hno f => hbad ?_ _ _ sameCore_entered)
      fun hc h' _ hw => hQ hc.valid h' hw
    cases hvalid : isValidTransition s.status incoming.status with
    | true => exact absurd ⟨hrep, hvalid⟩ hno
    | false => rfl
  | false =>
    have hupdate : updateStarted cfg incoming =
        sendUpdate cfg incoming incoming.status none none := by
      unfold updateStarted
      revert hfinal hfollows
      cases incoming.status <;> simp [hasEnded, follows]
    have hfollowed : followed incoming s =
        updated s (updateOf incoming incoming.status none none) := by
      simp [followed, hfinal]
    rw [hfollowed] at hQ
    rw [hupdate]
    refine wp_sendUpdate_outcome hk hres hE (fun hno f => ⟨fun _ => ?_, fun hno => ?_⟩)
      fun hc h' _ hw => hQ ((updatable_status hrep).1 hc) h' hw
    · refine hbad ?_ _ _ ?_
      · cases hvalid : isValidTransition s.status incoming.status with
        | true => exact absurd ((updatable_status hrep).2 hvalid) hno
        | false => rfl
      · have hplain : leftover s (updateOf incoming incoming.status none none) = s := by
          refine leftover_eq_self.2 fun _ => ⟨?_, fun _ => ?_⟩
          · intro label hlabel
            cases hlabel
          · intro workspace hworkspace
            cases hworkspace
        rw [hplain]
        exact sameCore_entered.trans
          ((sameCore_withSession (w := h.world.entered h.env.core) hs).2 rfl)
    · exact absurd hrep hno

theorem updateStarted_nothing (hfollows : follows incoming.status = false) :
    updateStarted cfg incoming = pure () := by
  unfold updateStarted
  revert hfollows
  cases incoming.status <;> simp [follows]

section

variable (hk : Keyed h.world.registry)

include hk

/-- The steps after a start that was a replay. -/
theorem wp_replayed_judged {id : String}
    (hres : h.world.registry.resolveExternal incoming.source incoming.externalSessionId = some s)
    (hid : id = s.id) (hrep : Reporting h.world incoming.source incoming.externalSessionId)
    (hr : RootKnown incoming root) :
    wp (do
      updateStarted cfg incoming
      fromRoot cfg incoming id root) h
      (fun _ _ => AtomicReplayed h.sketch incoming s root)
      (Judged (AtomicReplayed h.sketch incoming s root) h.world) := by
  have hroot := hr.valid fun _ => hrep.valid
  unfold AtomicReplayed
  split
  · rename_i hfollows
    rw [wp_bind]
    refine wp_updateStarted_outcome hk hres hrep hfollows (fun _ _ hd => judged_denied hd)
      (fun hno f h' hsame => judged_clean (fun hvalid => ?_) hsame) fun hvalid h₁ hw => ?_
    · rw [hvalid] at hno
      cases hno
    · simp only [hvalid, true_imp_iff, ← hw.sketch]
      refine wp_rest_judged (hw.keyed hk followed_id) (hw.resolve hk hres)
        (hid.trans followed_id.symm) hroot ?_
      rw [followed_id]
      exact not_sameCore_of_continued hw.later
  · rename_i hfollows
    rw [updateStarted_nothing (by simpa using hfollows), pure_bind]
    exact wp_rests_judged hk hres hid hroot

/-- The steps after a start that created the session. -/
theorem wp_created_judged {id : String} {w : World}
    (hres : h.world.registry.resolveExternal incoming.source incoming.externalSessionId = some s)
    (hid : id = s.id) (hrep : Reporting h.world incoming.source incoming.externalSessionId)
    (hr : RootKnown incoming root) (hstatus : s.status = startStatus incoming.status)
    (hnew : NoneWith w.registry s.key) :
    wp (do
      updateStarted cfg incoming
      fromRoot cfg incoming id root) h
      (fun _ _ => AtomicCreated h.sketch incoming s root)
      (Judged (AtomicCreated h.sketch incoming s root) w) := by
  have hroot := hr.valid fun _ => hrep.valid
  have hwrote : ∀ {t : AgentSession} {v : World}, t.key = s.key →
      ∀ w', Continued t.id t v w' → ¬ SameCore w w' := by
    intro t v hkey w' hc hsame
    obtain ⟨u, hu, hukey, -⟩ := hc.stored
    rw [hsame.sessions] at hu
    exact hnew _ _ hu (hukey.trans hkey)
  unfold AtomicCreated
  split
  · rename_i hfollows
    rw [wp_bind]
    refine wp_updateStarted_outcome hk hres hrep hfollows (fun _ _ hd => judged_denied hd)
      (fun hno f h' _ => ?_) fun _ h₁ hw => ?_
    · rw [hstatus, valid_startStatus] at hno
      cases hno
    · rw [← hw.sketch]
      exact wp_rest_judged (hw.keyed hk followed_id) (hw.resolve hk hres)
        (hid.trans followed_id.symm) hroot (hwrote followed_key)
  · rename_i hfollows
    rw [updateStarted_nothing (by simpa using hfollows), pure_bind]
    exact wp_rest_judged hk hres hid hroot (hwrote rfl)

theorem wp_startSession_outcome {Q : String → HostWorld → Prop} (hf : Findable h.world.registry)
    (hE : ∀ f h', Denied f → E f h') (hbad : ¬ Startable h.world (startOf incoming) →
      ∀ text h', SameCore h.world h'.world → E (.rejected text) h')
    (hreplay : Startable h.world (startOf incoming) → ∀ s,
      h.world.registry.resolveExternal incoming.source incoming.externalSessionId = some s →
      ∀ h', h'.sketch = h.sketch.skip 1 → SameRegistry h.world.registry h'.world.registry →
        SameCore h.world h'.world → Q s.id h')
    (hfull : h.world.registry.resolveExternal incoming.source incoming.externalSessionId = none →
      (∀ candidate, h.world.registry.capacityEvictionCandidate h.env.core.sessionsRank ≠
        .ok candidate) → ∀ text h', SameCore h.world h'.world → E (.rejected text) h')
    (hlost : h.world.registry.resolveExternal incoming.source incoming.externalSessionId = none →
      h.world.registry.externalIndex.lookup
        (externalKey incoming.source incoming.externalSessionId) ≠ none →
      ∀ message h', E (.panic message) h') (hQ : Startable h.world (startOf incoming) →
      h.world.registry.externalIndex.lookup
        (externalKey incoming.source incoming.externalSessionId) = none →
      ∀ candidate,
        h.world.registry.capacityEvictionCandidate h.env.core.sessionsRank = .ok candidate →
      ∀ s, s = newSession (startOf incoming)
          (cfg.sessionIdFor incoming.source incoming.externalSessionId) →
      ∀ h', h'.sketch = h.sketch.create candidate s → Created candidate s h.world h'.world →
        Q s.id h') : wp (startSession cfg incoming) h Q E := by
  have hstartable : Startable (h.world.entered h.env.core) (startOf incoming) ↔
      Startable h.world (startOf incoming) :=
    ⟨fun hc => ⟨reporting_entered.1 hc.reports, hc.label, hc.workspaceLabel, hc.status⟩,
      fun hc => ⟨reporting_entered.2 hc.reports, hc.label, hc.workspaceLabel, hc.status⟩⟩
  unfold startSession
  rw [wp_bind, ingestCore, wp_callCore, AppCore.ingest, wp_bind]
  refine wp_sessionStart_outcome (startOf incoming) hk hf rfl
    (fun f w' hd => hE _ _ (denied_of_storeFails hd))
    (fun hno e => hbad (fun hc => hno (hstartable.2 hc)) _ _ sameCore_entered)
    (fun hc s hres => ?_) (fun hres hno e => hfull hres hno _ _ sameCore_entered)
    (fun hres hthere message w' => hlost hres hthere _ _)
    fun hc hindex candidate hcandidate r w' hr hw' => ?_
  · have hsame : SameRegistry h.world.registry
        ((h.world.entered h.env.core).flush h.env.core).registry := by
      rw [registry_flush]
      exact SameRegistry.refl _
    refine hreplay (hstartable.1 hc) s hres _ ?_ hsame
      ⟨hsame.sessions, hsame.events, World.alerts_flush _ _⟩
    exact Sketch.ext hsame.sessions (integrations_flush _ _) rfl rfl
  · have hcreated := hw'.flush h.env.core
    have hw : Created candidate _ h.world (w'.flush h.env.core) :=
      ⟨hcreated.sessions, hcreated.index, hcreated.integrations, hcreated.keyed⟩
    simp only [flushPending, wp_bind, wp_modify, wp_pure, hr]
    refine hQ (hstartable.1 hc) hindex candidate hcandidate _ rfl _ ?_ hw
    exact Sketch.ext hw.sessions hw.integrations rfl rfl

/-- An ingest for a session the host does not have. -/
theorem wp_new_judged (hf : Findable h.world.registry) (hr : RootKnown incoming root) :
    wp (do
      let id ← startSession cfg incoming
      updateStarted cfg incoming
      fromRoot cfg incoming id root) h
      (fun _ _ => AtomicNew cfg h.world h.sketch incoming root)
      (Judged (AtomicNew cfg h.world h.sketch incoming root) h.world) := by
  rw [wp_bind]
  refine wp_startSession_outcome hk hf (fun _ _ hd => judged_denied hd)
    (fun hno f h' hsame => judged_clean (fun hc => absurd hc hno) hsame)
    (fun hc s hres h₁ hsketch hsame hcore => ?_) (fun hres hno f h' hsame => judged_clean ?_ hsame)
    (fun hres hthere message h' => Or.inr (Or.inl ⟨?_, message, rfl⟩))
    fun hc hindex candidate hcandidate s hs h₁ hsketch hw => ?_
  · have hatomic : AtomicNew cfg h.world h.sketch incoming root ↔
        AtomicReplayed h₁.sketch incoming s root := by
      simp only [AtomicNew, hc, true_imp_iff, hres, hsketch]
    have hres₁ : h₁.world.registry.resolveExternal incoming.source incoming.externalSessionId =
        some s := by
      rw [SessionRegistry.resolveExternal, hsame.sessions, hsame.externalIndex]
      exact hres
    rw [hatomic]
    refine wp_mono (wp_replayed_judged (hk.of_eq hsame.sessions) hres₁ rfl ?_ hr) (fun _ _ h => h)
      fun f h' hj => hj.of_same hcore
    exact hc.reports.congr (congrArg Sketch.integrations hsketch)
  · intro _
    simp only [hres]
    exact fun _ candidate hcandidate => absurd hcandidate (hno candidate)
  · intro _
    simp only [hres]
    exact fun hindex => absurd hindex hthere
  · have hres : h.world.registry.resolveExternal incoming.source incoming.externalSessionId =
        none := by
      rw [SessionRegistry.resolveExternal, hindex]
      rfl
    have hatomic : AtomicNew cfg h.world h.sketch incoming root ↔
        AtomicCreated h₁.sketch incoming s root := by
      simp only [AtomicNew, hc, true_imp_iff, hres, hindex, hsketch, ← hs]
      refine ⟨fun ha => ha candidate hcandidate, fun hdone candidate' hcandidate' => ?_⟩
      obtain rfl := Except.ok.inj (hcandidate.symm.trans hcandidate')
      exact hdone
    have hres₁ : h₁.world.registry.resolveExternal incoming.source incoming.externalSessionId =
        some s := by
      have hfound := hw.resolve
      rw [hs] at hfound ⊢
      exact hfound
    rw [hatomic]
    refine wp_created_judged hw.keyed hres₁ rfl ?_ hr (by rw [hs]; rfl) ?_
    · exact hc.reports.congr (congrArg Sketch.integrations hsketch)
    · rw [hs]
      exact hf.noneWith hres

end

end Started

/-! ## The whole ingest -/

/-- Unless the process the payload names is rejected, once something was written all that follows
succeeds. -/
def Atomic (cfg : CoreConfig) (h : HostWorld) (incoming : AgentSession) : Prop :=
  ∀ root, checkedRoot (h.envs 1) incoming = some root →
    match h.sketch.existing incoming with
    | some e => AtomicExisting h.world (h.sketch.skip (1 + rootCalls incoming)) incoming e root
    | none => AtomicNew cfg h.world (h.sketch.skip (1 + rootCalls incoming)) incoming root

section Upsert

variable {h : HostWorld} {incoming : AgentSession} {cfg : CoreConfig}

/-- A session the host finds in the snapshot is the one the core resolves. -/
theorem resolve_existing {e : AgentSession} (hk : Keyed h.world.registry)
    (hf : Findable h.world.registry) (he : h.sketch.existing incoming = some e) :
    h.world.registry.resolveExternal incoming.source incoming.externalSessionId = some e := by
  have hs : h.world.registry.sessions.lookup e.id = some e :=
    (mem_snapshot hk).1 (List.mem_of_find?_eq_some he)
  have hsame : e.source = incoming.source ∧ e.externalSessionId = incoming.externalSessionId := by
    simpa using List.find?_some he
  rw [← hsame.1, ← hsame.2]
  exact hf.resolve hs

theorem wp_upsert_judged (hk : Keyed h.world.registry) (hf : Findable h.world.registry) :
    wp (ingestNormalized cfg (.sessionUpsert incoming)) h (fun _ _ => Atomic cfg h incoming)
      (Judged (Atomic cfg h incoming) h.world) := by
  simp only [ingestNormalized, ingestSessionUpsert]
  rw [wp_bind, wp_snapshotSessions, snapshot_sketch, wp_bind]
  refine wp_validatedRoot_outcome (fun hno f h' hworld => ?_) fun root hroot h₁ hsketch hworld => ?_
  · refine judged_clean (fun root hroot => ?_) ?_
    · have hnone : checkedRoot (h.envs 1) incoming = none := hno
      rw [hnone] at hroot
      cases hroot
    · rw [hworld]
      exact SameCore.refl _
  · have hr := rootKnown_of_checked hroot
    have hroot₁ : checkedRoot (h.envs 1) incoming = some root := hroot
    have hworld₁ : h₁.world = h.world := hworld
    have hk₁ : Keyed h₁.world.registry := hworld₁ ▸ hk
    have hf₁ : Findable h₁.world.registry := hworld₁ ▸ hf
    have hsketch₁ : h₁.sketch = h.sketch.skip (1 + rootCalls incoming) := by
      rw [hsketch]
      refine Sketch.ext rfl rfl rfl (funext fun n => ?_)
      show h.envs (n + rootCalls incoming + 1) = h.envs (n + (1 + rootCalls incoming))
      congr 1
      omega
    cases hexisting : h.sketch.existing incoming with
    | some e =>
      have hatomic : Atomic cfg h incoming ↔
          AtomicExisting h₁.world h₁.sketch incoming e root := by
        simp only [Atomic, hroot₁, Option.some.injEq, forall_eq', hexisting, hsketch₁, hworld₁]
      rw [show (h.sketch.snapshot.find? fun s => s.source = incoming.source ∧
        s.externalSessionId = incoming.externalSessionId) = some e from hexisting, hatomic]
      refine wp_mono (wp_existing_judged hk₁ ?_ hr) (fun _ _ h => h) fun f h' hj => hworld₁ ▸ hj
      rw [hworld₁]
      exact resolve_existing hk hf hexisting
    | none =>
      have hatomic : Atomic cfg h incoming ↔ AtomicNew cfg h₁.world h₁.sketch incoming root := by
        simp only [Atomic, hroot₁, Option.some.injEq, forall_eq', hexisting, hsketch₁, hworld₁]
      rw [show (h.sketch.snapshot.find? fun s => s.source = incoming.source ∧
        s.externalSessionId = incoming.externalSessionId) = none from hexisting, hatomic]
      refine wp_mono (wp_new_judged hk₁ hf₁ hr) (fun _ _ h => h) fun f h' hj => hworld₁ ▸ hj

end Upsert

/-- In every reachable state, whatever is measured, an ingest of a session that is rejected leaves
the sessions, the events and the alerts of the core as they were exactly if it is atomic, unless a
call of the repository fails. -/
theorem upsert_atomic_iff {cfg : CoreConfig} {env : Env} {settings : PublicSettings}
    {db : Database} {s₀ s : CoreState} {acts : List CoreAct} (hdb : DistinctRows db.sessions)
    (hstart : startCore cfg env settings db = some s₀)
    (hrun : run (coreStep cfg) s₀ acts = some s) {h : HostWorld} (hworld : h.world = s.world)
    {incoming : AgentSession}
    (hrepo : ∀ text h', ingestNormalized cfg (.sessionUpsert incoming) h =
      .error (.rejected text) h' → text ∉ sqliteErrors) :
    (∀ text h', ingestNormalized cfg (.sessionUpsert incoming) h = .error (.rejected text) h' →
      SameCore h.world h'.world) ↔ Atomic cfg h incoming := by
  have hk : Keyed h.world.registry := hworld ▸ keyed_run hstart hrun
  have hf : Findable h.world.registry := hworld ▸ findable_run hdb hstart hrun
  have hwp : wp (ingestNormalized cfg (.sessionUpsert incoming)) h _ _ := wp_upsert_judged hk hf
  have hjudged : ∀ {text : String} {h' : HostWorld},
      ingestNormalized cfg (.sessionUpsert incoming) h = .error (.rejected text) h' →
      (Atomic cfg h incoming ↔ SameCore h.world h'.world) := by
    intro text h' hexec
    rcases wp_error hwp hexec with ⟨text', htext, he⟩ | ⟨-, message, he⟩ | ⟨-, hiff⟩
    · obtain rfl := HostFault.rejected.inj he
      exact absurd htext (hrepo text h' hexec)
    · cases he
    · exact hiff
  constructor
  · intro hclean
    cases hexec : ingestNormalized cfg (.sessionUpsert incoming) h with
    | ok a h' => exact wp_ok (Q := fun _ _ => Atomic cfg h incoming) hwp hexec
    | error f h' =>
      rcases wp_error hwp hexec with ⟨text, -, rfl⟩ | ⟨hc, -⟩ | ⟨⟨text, rfl⟩, -⟩
      · exact (hjudged hexec).2 (hclean text h' hexec)
      · exact hc
      · exact (hjudged hexec).2 (hclean text h' hexec)
  · intro hatomic text h' hexec
    exact (hjudged hexec).1 hatomic

/-- A payload that updates a session and asks for a permission. -/
def askingPayload (source : String) : IngestPayload :=
  { samplePayload source "update" none (some "e") with attention := some "permission" }

/-- What it becomes. -/
def incomingAsking (source : AgentSource) : AgentSession :=
  { AppCore.newSession (sampleStart source "e") (sampleCoreConfig.sessionIdFor source "e") with
    label := "Agent session"
    attention := .permission }

/-- A core with the shipped integration of one source. -/
def shippedWith (source : AgentSource) : Database where
  integrations := [⟨AdapterCapabilities.template source, true, none, 0⟩]

/-- One session of the source is started. -/
def startedWith (source : AgentSource) : List CoreAct :=
  CoreAct.perform 0 (.ingest (.sessionStart (sampleStart source "e"))) { uuid := 1 }

/-- An integration that reports attention takes the payload as a whole. -/
theorem upsert_atomic_generic : ∃ s₀ s,
    startCore sampleCoreConfig {} sampleSettings (shippedWith .generic) = some s₀ ∧
    run (coreStep sampleCoreConfig) s₀ (startedWith .generic) = some s ∧
    Atomic sampleCoreConfig (sampleHost s.world) (incomingAsking .generic) := by
  have hrun : ((startCore sampleCoreConfig {} sampleSettings (shippedWith .generic)).bind fun s₀ =>
      (run (coreStep sampleCoreConfig) s₀ (startedWith .generic)).bind fun s =>
        (returnedState (ingestNormalized sampleCoreConfig
          (.sessionUpsert (incomingAsking .generic)) (sampleHost s.world))).map fun _ => ()) =
      some () := by
    decide +kernel
  obtain ⟨s₀, hs₀, hrun⟩ := Option.bind_eq_some_iff.1 hrun
  obtain ⟨s, hs, hrun⟩ := Option.bind_eq_some_iff.1 hrun
  obtain ⟨h', hreturned, -⟩ := Option.map_eq_some_iff.1 hrun
  obtain ⟨u, hexec⟩ := returnedState_eq_some.1 hreturned
  have hnever : ∀ text h'', ingestNormalized sampleCoreConfig
      (.sessionUpsert (incomingAsking .generic)) (sampleHost s.world) ≠
        .error (.rejected text) h'' := by
    intro text h'' herror
    rw [hexec] at herror
    cases herror
  refine ⟨s₀, s, hs₀, hs, ?_⟩
  exact (upsert_atomic_iff (h := sampleHost s.world) ⟨by simp [shippedWith],
    by simp [shippedWith]⟩ hs₀ hs rfl fun text h'' herror => absurd herror (hnever text h'')).1
    fun text h'' herror => absurd herror (hnever text h'')

/-- An integration without attention takes the update before it refuses the payload. -/
theorem refused_attention_leaves_update : ∃ s₀ s h',
    startCore sampleCoreConfig {} sampleSettings (shippedWith .codex) = some s₀ ∧
    run (coreStep sampleCoreConfig) s₀ (startedWith .codex) = some s ∧
    normalizeIngest externalKey (askingPayload "codex") 0 0 =
      .ok (.sessionUpsert (incomingAsking .codex)) ∧
    ingestNormalized sampleCoreConfig (.sessionUpsert (incomingAsking .codex))
      (sampleHost s.world) = .error (.rejected
        "unsupported capability: integration does not support attention reporting") h' ∧
    ¬ SameCore s.world h'.world := by
  have hnormal : normalizeIngest externalKey (askingPayload "codex") 0 0 =
      .ok (.sessionUpsert (incomingAsking .codex)) := by
    decide
  have hrun : ((startCore sampleCoreConfig {} sampleSettings (shippedWith .codex)).bind fun s₀ =>
      (run (coreStep sampleCoreConfig) s₀ (startedWith .codex)).bind fun s =>
        (failedState (ingestNormalized sampleCoreConfig
          (.sessionUpsert (incomingAsking .codex)) (sampleHost s.world))).map fun failed =>
            (failed.1, s.world.registry.nextEventSequence "Codex:e",
              failed.2.world.registry.nextEventSequence "Codex:e")) =
      some (.rejected "unsupported capability: integration does not support attention reporting",
        2, 3) := by
    decide
  obtain ⟨s₀, hs₀, hrun⟩ := Option.bind_eq_some_iff.1 hrun
  obtain ⟨s, hs, hrun⟩ := Option.bind_eq_some_iff.1 hrun
  obtain ⟨⟨f, h'⟩, hfailed, hvalues⟩ := Option.map_eq_some_iff.1 hrun
  have hexec := failedState_eq_some.1 hfailed
  simp only [Prod.mk.injEq] at hvalues
  obtain ⟨rfl, hbefore, hafter⟩ := hvalues
  refine ⟨s₀, s, h', hs₀, hs, hnormal, hexec, not_sameCore_of_later "Codex:e" ?_⟩
  rw [hbefore, hafter]
  decide

end Host

end LlmNotch
