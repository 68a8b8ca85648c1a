import LlmNotch.DecisionEffects

/-!
# Fail-open safety

A hook that waits for a decision gets an output other than the neutral one only if some
`submit_decision` returned `Ok` before, and then the output is the one the adapter built for
that answer from the registration the submission found.

`Sound` is the invariant. Every stored entry is a registration with a changed state, an
entry with an output (`chosen` or `delivered`) owes it to an accepted submission, and so
does every reply a call carries. A submission changes the entry before it returns, but it
keeps the lock until it does, so until then nobody reads that entry.
-/

namespace LlmNotch

/-- The output an entry holds for its hook. -/
def InternalDeliveryState.stdout : InternalDeliveryState → Option String
  | .chosen _ _ stdoutJson => some stdoutJson
  | .delivered stdoutJson _ => some stdoutJson
  | _ => none

/-- The response `a` is accepted for the registration `p` of `nonce` at time `now`, with
output `stdout`. -/
structure Justified (cfg : BrokerConfig) (h : List Event) (nonce : String)
    (entry : ActiveDecision) (response : DecisionResponse) (now : ℤ) (stdout : String)
    (p : DecisionWaitPayload) (a : DecisionResponseAction) : Prop where
  registered : .registered p ∈ h
  nonce_eq : p.nonce = nonce
  entry_eq : entry = cfg.registration p
  response_eq : response = .action a
  actionable : p.hasActionablePayload = true
  unexpired : now < entry.expiresAtMs
  built : buildVendorStdout p.source p.respondableHook (.action a) p.vendorContext = .ok stdout

/-- Some submission of `nonce` returned `Ok` with output `stdout`, for a registration that
was active, actionable and unexpired. -/
def Answered (cfg : BrokerConfig) (h : List Event) (nonce stdout : String) : Prop :=
  ∃ entry response now p a, .accepted nonce entry response now stdout ∈ h ∧
    Justified cfg h nonce entry response now stdout p a

/-- A reply that is neutral, or answered. -/
def ReplyOk (cfg : BrokerConfig) (h : List Event) (nonce : String)
    (reply : DecisionReplyPayload) : Prop :=
  reply.stdoutJson = neutralStdout ∨ Answered cfg h nonce reply.stdoutJson

/-- The entry is a registration of `nonce` whose state has changed since. -/
def Registered (cfg : BrokerConfig) (h : List Event) (nonce : String) (entry : ActiveDecision) :
    Prop :=
  ∃ p, .registered p ∈ h ∧ p.nonce = nonce ∧
    entry = { cfg.registration p with internalState := entry.internalState }

/-- An entry whose output is backed by an accepted submission. -/
def Backed (cfg : BrokerConfig) (h : List Event) (nonce : String) (entry : ActiveDecision) : Prop :=
  Registered cfg h nonce entry ∧
    ∀ stdout, entry.internalState.stdout = some stdout → Answered cfg h nonce stdout

/-- What a call in flight knows. -/
def ProcOk (cfg : BrokerConfig) (h : List Event) : Proc → Prop
  | .waitRestore p entry => Backed cfg h p.nonce entry
  | .waitRetain p reply | .waitRemove p reply _ | .waitForget p reply => ReplyOk cfg h p.nonce reply
  | .submitLock _ response _ => ∃ a, response = .action a
  | _ => True

/-- A submission that will return `Ok` is justified. -/
def VerdictOk (cfg : BrokerConfig) (h : List Event) (q : Proc) : Prop :=
  ∀ nonce entry response now stdout,
    q.verdict = some (nonce, .accepted entry response now stdout) →
      ∃ p a, Justified cfg h nonce entry response now stdout p a

/-- A submission in flight is about to return `Ok` for `nonce` with output `stdout`. -/
def Accepting (b : Broker) (nonce stdout : String) : Prop :=
  ∃ tid entry response now,
    (b.procs tid).verdict = some (nonce, .accepted entry response now stdout)

/-- A stored entry is backed, now or once the submission in flight has returned. -/
def EntryOk (cfg : BrokerConfig) (b : Broker) (nonce : String) (entry : ActiveDecision) : Prop :=
  Registered cfg b.history nonce entry ∧
    ∀ stdout, entry.internalState.stdout = some stdout →
      Answered cfg b.history nonce stdout ∨ Accepting b nonce stdout

/-- Every reply of a history is neutral or answered earlier. -/
def RepliesOk (cfg : BrokerConfig) (h : List Event) : Prop :=
  ∀ h₁ h₂ nonce reply, h = h₁ ++ .replied nonce reply :: h₂ → ReplyOk cfg h₂ nonce reply

/-- The invariant of the broker behind fail-open safety. -/
structure Sound (cfg : BrokerConfig) (b : Broker) : Prop where
  entries : ∀ nonce entry, b.active.lookup nonce = some entry → EntryOk cfg b nonce entry
  procs : ∀ tid, ProcOk cfg b.history (b.procs tid)
  verdicts : ∀ tid, VerdictOk cfg b.history (b.procs tid)
  replies : RepliesOk cfg b.history
  accepts : ∀ nonce entry response now stdout,
    .accepted nonce entry response now stdout ∈ b.history →
      ∃ p a, Justified cfg b.history nonce entry response now stdout p a

variable {cfg : BrokerConfig} {b b' x : Broker} {h h' : List Event} {nonce stdout : String}
  {entry : ActiveDecision} {tid : ℕ} {c : Choice} {q : Proc}

/-! ## Events are never forgotten -/

section

variable (hs : h ⊆ h')

include hs

theorem Justified.mono {response : DecisionResponse} {now : ℤ} {p : DecisionWaitPayload}
    {a : DecisionResponseAction} (hj : Justified cfg h nonce entry response now stdout p a) :
    Justified cfg h' nonce entry response now stdout p a :=
  { hj with registered := hs hj.registered }

theorem Answered.mono : Answered cfg h nonce stdout → Answered cfg h' nonce stdout := by
  rintro ⟨entry, response, now, p, a, hm, hj⟩
  exact ⟨entry, response, now, p, a, hs hm, hj.mono hs⟩

theorem ReplyOk.mono {reply : DecisionReplyPayload} :
    ReplyOk cfg h nonce reply → ReplyOk cfg h' nonce reply :=
  Or.imp_right (Answered.mono hs)

theorem Registered.mono : Registered cfg h nonce entry → Registered cfg h' nonce entry := by
  rintro ⟨p, hp, hn, he⟩
  exact ⟨p, hs hp, hn, he⟩

theorem Backed.mono (hb : Backed cfg h nonce entry) : Backed cfg h' nonce entry :=
  ⟨hb.1.mono hs, fun s hst => (hb.2 s hst).mono hs⟩

theorem ProcOk.mono (hq : ProcOk cfg h q) : ProcOk cfg h' q := by
  cases q with
  | waitRestore p entry => exact Backed.mono hs hq
  | waitRetain p reply => exact ReplyOk.mono hs hq
  | waitRemove p reply retain => exact ReplyOk.mono hs hq
  | waitForget p reply => exact ReplyOk.mono hs hq
  | submitLock nonce response now => exact hq
  | _ => trivial

theorem VerdictOk.mono (hq : VerdictOk cfg h q) : VerdictOk cfg h' q := by
  intro nonce entry response now stdout hv
  obtain ⟨p, a, hj⟩ := hq nonce entry response now stdout hv
  exact ⟨p, a, hj.mono hs⟩

end

theorem RepliesOk.cons {e : Event} (hr : RepliesOk cfg h)
    (he : ∀ nonce reply, e = .replied nonce reply → ReplyOk cfg h nonce reply) :
    RepliesOk cfg (e :: h) := by
  intro h₁ h₂ nonce reply heq
  cases h₁ with
  | nil =>
    obtain ⟨rfl, rfl⟩ := List.cons.inj heq
    exact he nonce reply rfl
  | cons e' h₁ =>
    exact hr h₁ h₂ nonce reply (List.cons.inj heq).2

/-! ## The invariant under the operations of the broker -/

namespace Sound

section

variable (hb : Sound cfg b)

include hb

/-- Continue a call; a submission that has accepted an answer goes on to return it, or has
returned it. -/
theorem goto (hv : ∀ n e r now s, (b.procs tid).verdict = some (n, .accepted e r now s) →
      q.verdict = some (n, .accepted e r now s) ∨ Answered cfg b.history n s)
    (hok : VerdictOk cfg b.history q) (hq : ProcOk cfg b.history q) : Sound cfg (b.goto tid q) where
  entries nonce entry he := by
    obtain ⟨hr, hs⟩ := hb.entries nonce entry he
    refine ⟨hr, fun stdout hst => ?_⟩
    rcases hs stdout hst with ha | ⟨t, e, r, now, hacc⟩
    · exact Or.inl ha
    by_cases ht : t = tid
    · subst ht
      exact (hv nonce e r now stdout hacc).symm.imp_right fun h => ⟨t, e, r, now, by simpa using h⟩
    · exact Or.inr ⟨t, e, r, now, by simpa [ht] using hacc⟩
  procs t := by
    by_cases ht : t = tid
    · subst ht
      simpa using hq
    · simpa [ht] using hb.procs t
  verdicts t := by
    by_cases ht : t = tid
    · subst ht
      simpa using hok
    · simpa [ht] using hb.verdicts t
  replies := hb.replies
  accepts := hb.accepts

/-- Continue a call outside the locked section of a submission. -/
theorem goto_free (hv : (b.procs tid).verdict = none) (hn : q.verdict = none)
    (hq : ProcOk cfg b.history q) : Sound cfg (b.goto tid q) :=
  hb.goto (by simp [hv]) (by simp [VerdictOk, hn]) hq

/-- Continue a submission inside its locked section. -/
theorem goto_locked (hv : q.verdict = (b.procs tid).verdict) (hq : ProcOk cfg b.history q) :
    Sound cfg (b.goto tid q) := by
  refine hb.goto (fun n e r now s h => Or.inl (hv.trans h)) ?_ hq
  simpa [VerdictOk, hv] using hb.verdicts tid

/-- Record an event; a reply must be neutral or answered, an accepted answer justified. -/
theorem log {e : Event}
    (he : ∀ nonce reply, e = .replied nonce reply → ReplyOk cfg b.history nonce reply)
    (ha : ∀ nonce entry response now stdout, e = .accepted nonce entry response now stdout →
      ∃ p a, Justified cfg b.history nonce entry response now stdout p a) :
    Sound cfg (b.log e) where
  entries nonce entry hn := by
    have hs := List.subset_cons_self e b.history
    obtain ⟨hr, ha⟩ := hb.entries nonce entry hn
    exact ⟨hr.mono hs, fun stdout hst => (ha stdout hst).imp_left (Answered.mono hs)⟩
  procs t := (hb.procs t).mono (List.subset_cons_self _ _)
  verdicts t := (hb.verdicts t).mono (List.subset_cons_self _ _)
  replies := hb.replies.cons he
  accepts n en r now s hm := by
    have hj : ∃ p a, Justified cfg b.history n en r now s p a := by
      rcases List.mem_cons.1 hm with h | h
      · exact ha n en r now s h.symm
      · exact hb.accepts n en r now s h
    obtain ⟨p, a, hj⟩ := hj
    exact ⟨p, a, hj.mono (List.subset_cons_self _ _)⟩

theorem setActive (nonce : String) (entry : ActiveDecision) (he : EntryOk cfg b nonce entry) :
    Sound cfg (b.setActive nonce entry) where
  entries n e hn := by
    rw [Broker.setActive_active, Dict.lookup_insert_ite] at hn
    split_ifs at hn with h
    · cases hn
      exact h ▸ he
    · exact hb.entries n e hn
  procs := hb.procs
  verdicts := hb.verdicts
  replies := hb.replies
  accepts := hb.accepts

theorem eraseActive (nonce : String) : Sound cfg (b.eraseActive nonce) where
  entries n e hn := by
    rw [Broker.eraseActive_active, Dict.lookup_erase_ite] at hn
    split_ifs at hn with h
    exact hb.entries n e hn
  procs := hb.procs
  verdicts := hb.verdicts
  replies := hb.replies
  accepts := hb.accepts

/-- Nothing depends on the audit table, the waiters or the lock. -/
theorem congr (ha : x.active = b.active) (hp : x.procs = b.procs) (hh : x.history = b.history) :
    Sound cfg x where
  entries n e hn := by
    rw [ha] at hn
    simpa [EntryOk, Accepting, hp, hh] using hb.entries n e hn
  procs t := by simpa [hp, hh] using hb.procs t
  verdicts t := by simpa [hp, hh] using hb.verdicts t
  replies := by simpa [hh] using hb.replies
  accepts := by simpa [hh] using hb.accepts

theorem acquire (tid : ℕ) : Sound cfg (b.acquire tid) :=
  hb.congr rfl rfl rfl

theorem release : Sound cfg b.release :=
  hb.congr rfl rfl rfl

theorem audited {state : DecisionDeliveryState} (ha : x.active = b.active)
    (hp : x.procs = b.procs)
    (hh : x.history = b.history ∨ x.history = .audited nonce state :: b.history) : Sound cfg x := by
  rcases hh with hh | hh
  · exact hb.congr ha hp hh
  · exact (hb.log (e := .audited nonce state) (by simp) (by simp)).congr ha hp hh

theorem auditUpsert (ok : Bool) (p : DecisionWaitPayload) : Sound cfg (b.auditUpsert ok cfg p) :=
  hb.audited (by simp) (by simp) (b.auditUpsert_history ok cfg p)

theorem auditUpdate (ok : Bool) (nonce : String) (write : AuditWrite) :
    Sound cfg (b.auditUpdate ok nonce write) :=
  hb.audited (by simp) (by simp) (b.auditUpdate_history ok nonce write)

theorem wakeWaiter (nonce : String) : Sound cfg (b.wakeWaiter nonce) :=
  hb.congr (by simp) (by simp) (by simp)

/-- While the lock is free every stored entry is backed. -/
theorem backed (hl : b.LockOk) (hf : b.activeLock = none)
    (he : b.active.lookup nonce = some entry) : Backed cfg b.history nonce entry := by
  obtain ⟨hr, hs⟩ := hb.entries nonce entry he
  refine ⟨hr, fun stdout hst => ?_⟩
  rcases hs stdout hst with ha | ⟨t, _, _, _, hv⟩
  · exact ha
  · simp [hl.verdict_eq_none hf t] at hv

end

end Sound

/-! ## Replies of backed entries -/

theorem Backed.replyForActive (he : Backed cfg h nonce entry) :
    ReplyOk cfg h nonce (replyForActive nonce entry) := by
  obtain ⟨-, hs⟩ := he
  unfold ReplyOk LlmNotch.replyForActive
  cases hst : entry.internalState with
  | chosen response at' stdout =>
    exact Or.inr (hs stdout (by simp [hst, InternalDeliveryState.stdout]))
  | delivered stdout at' =>
    exact Or.inr (hs stdout (by simp [hst, InternalDeliveryState.stdout]))
  | _ => exact Or.inl rfl

theorem Backed.replayTerminal (he : Backed cfg h nonce entry) :
    ReplyOk cfg h nonce (replayTerminal nonce entry) := by
  obtain ⟨-, hs⟩ := he
  unfold ReplyOk LlmNotch.replayTerminal
  cases hst : entry.internalState with
  | delivered stdout at' =>
    exact Or.inr (hs stdout (by simp [hst, InternalDeliveryState.stdout]))
  | _ => exact Or.inl rfl

/-- An entry keeps its registration when its state changes. -/
theorem Registered.withState (hr : Registered cfg h nonce entry) (s : InternalDeliveryState) :
    Registered cfg h nonce { entry with internalState := s } := by
  obtain ⟨p, hp, hn, he⟩ := hr
  exact ⟨p, hp, hn, by rw [he]⟩

/-- A pending entry that passes the checks of `submit_decision` justifies its answer. -/
theorem Registered.justified {a : DecisionResponseAction} {now : ℤ}
    (hr : Registered cfg h nonce entry)
    (ha : Broker.Acceptable entry (.action a) now stdout) :
    ∃ p, Justified cfg h nonce entry (.action a) now stdout p a := by
  obtain ⟨p, hp, hn, he⟩ := hr
  rw [ha.pending] at he
  obtain rfl : entry = cfg.registration p := he
  exact ⟨p, hp, hn, rfl, rfl, ha.actionable, ha.unexpired, ha.built⟩

/-! ## Steps -/

namespace Sound

variable {p : DecisionWaitPayload}

section

variable (hb : Sound cfg b)

include hb

theorem waitCheck (hl : b.LockOk) (hf : b.activeLock = none) (hq : b.procs tid = .waitCheck p) :
    Sound cfg (b.waitCheck tid p) := by
  rcases b.waitCheck_cases tid p with ⟨reply, entry, he, hr, hx⟩ | hx <;> rw [hx]
  · refine (hb.log (fun n r heq => ?_) (by simp)).goto_free (by rw [Broker.log_procs, hq]; rfl) rfl
      trivial
    cases heq
    rcases hr with rfl | rfl
    · exact Or.inl rfl
    · exact (hb.backed hl hf he).replayTerminal
  · exact hb.goto_free (by rw [hq]; rfl) rfl trivial

theorem waitExpire (hl : b.LockOk) (hf : b.activeLock = none) (hq : b.procs tid = .waitExpire p) :
    Sound cfg (b.waitExpire tid p) := by
  have hv : (b.procs tid).verdict = none := by rw [hq]; rfl
  rcases b.waitExpire_cases tid p with ⟨entry, he, -, hx⟩ | ⟨entry, -, -, hx⟩ | ⟨-, hx⟩ <;>
    rw [hx]
  · exact (hb.eraseActive p.nonce).goto_free hv rfl (hb.backed hl hf he)
  · exact (hb.eraseActive p.nonce).goto_free hv rfl trivial
  · exact hb.goto_free hv rfl trivial

theorem finalReply (hl : b.LockOk) (hf : b.activeLock = none) (nonce : String) :
    ReplyOk cfg b.history nonce (b.finalReply nonce) := by
  unfold Broker.finalReply
  cases he : b.active.lookup nonce with
  | none => exact Or.inl rfl
  | some entry => exact (hb.backed hl hf he).replyForActive

/-- An entry that loses its output needs no further backing. -/
theorem setActive_silent (he : b.active.lookup nonce = some entry) {s : InternalDeliveryState}
    (hs : s.stdout = none) : Sound cfg (b.setActive nonce { entry with internalState := s }) := by
  refine hb.setActive _ _ ⟨(hb.entries nonce entry he).1.withState s, fun stdout hst => ?_⟩
  simp [hs] at hst

theorem submitLock {response : DecisionResponse} {now : ℤ}
    (hq : b.procs tid = .submitLock nonce response now) :
    Sound cfg (b.submitLock tid nonce response now) := by
  have hv : (b.procs tid).verdict = none := by rw [hq]; rfl
  obtain ⟨a, rfl⟩ : ∃ a, response = .action a := by
    have := hb.procs tid
    rwa [hq] at this
  rcases b.submitLock_cases tid nonce (.action a) now with
    ⟨_, hx⟩ | ⟨_, -, -, hx⟩ | ⟨entry, detail, write, error, he, -, -, hx⟩ |
      ⟨entry, stdout, write, he, ha, -, hx⟩ <;> rw [hx]
  · exact hb.goto_free hv rfl trivial
  · exact hb.goto_free hv rfl trivial
  · have hset : Sound cfg (b.setActive nonce { entry with internalState := .failed detail }) :=
      hb.setActive_silent he rfl
    refine (hset.acquire tid).goto (fun _ _ _ _ _ h => by simp [hv] at h) ?_ trivial
    simp [VerdictOk, Proc.verdict]
  · have hr := (hb.entries nonce entry he).1
    have hgoto : Sound cfg
        (b.goto tid (.submitPersist nonce write (.accepted entry (.action a) now stdout))) := by
      refine hb.goto (by simp [hv]) ?_ trivial
      rintro _ _ _ _ _ heq
      cases heq
      obtain ⟨p, hj⟩ := hr.justified ha
      exact ⟨p, a, hj⟩
    refine (hgoto.setActive nonce { entry with internalState := .chosen (.action a) now stdout }
      ⟨hr.withState _, fun s hs => Or.inr ⟨tid, entry, .action a, now, ?_⟩⟩).congr rfl rfl rfl
    cases hs
    simp [Proc.verdict]

theorem submitReturn {v : Verdict} (hq : b.procs tid = .submitReturn nonce v) :
    Sound cfg (b.submitReturn tid nonce v) := by
  cases v with
  | refused error =>
    refine hb.release.goto (fun n e r now s h => ?_) (by simp [VerdictOk, Proc.verdict]) trivial
    simp [hq, Proc.verdict] at h
  | accepted entry response now stdout =>
    have hj := hb.verdicts tid nonce entry response now stdout (by rw [hq]; rfl)
    have hlog : Sound cfg (b.release.log (.accepted nonce entry response now stdout)) := by
      refine hb.release.log (by simp) fun n en r t s heq => ?_
      cases heq
      exact hj
    refine hlog.goto (fun n e r t s h => Or.inr ?_) (by simp [VerdictOk, Proc.verdict]) trivial
    obtain ⟨p, a, hj⟩ := hlog.verdicts tid n e r t s h
    rw [Broker.log_procs, Broker.release_procs, hq] at h
    cases h
    exact ⟨entry, response, now, p, a, by simp, hj⟩

theorem settleLock (hl : b.LockOk) (hf : b.activeLock = none) {settlement : Settlement}
    (hq : b.procs tid = .settleLock nonce settlement) :
    Sound cfg (b.settleLock tid nonce settlement) := by
  have hv : (b.procs tid).verdict = none := by rw [hq]; rfl
  rcases b.settleLock_cases tid nonce settlement with
    ⟨_, hx⟩ | ⟨entry, response, now, stdout, write, he, hs, -, hx⟩ <;> rw [hx]
  · exact hb.goto_free hv rfl trivial
  · obtain ⟨hr, hbk⟩ := hb.backed hl hf he
    have hset : Sound cfg
        (b.setActive nonce { entry with internalState := settlement.settle now stdout }) := by
      refine hb.setActive _ _ ⟨hr.withState _, fun s hst => Or.inl (hbk s ?_)⟩
      cases settlement <;> simp_all [InternalDeliveryState.stdout, Settlement.settle]
    exact (hset.acquire tid).goto_free hv rfl trivial

theorem observeLock {evidence : String} {now : ℤ} (hq : b.procs tid = .observeLock nonce evidence) :
    Sound cfg (b.observeLock tid nonce evidence now) := by
  have hv : (b.procs tid).verdict = none := by rw [hq]; rfl
  rcases b.observeLock_cases tid nonce evidence now with
    ⟨_, hx⟩ | ⟨entry, stdout, _, he, -, hx⟩ <;> rw [hx]
  · exact hb.goto_free hv rfl trivial
  · have hset : Sound cfg
        (b.setActive nonce { entry with internalState := .effectObserved evidence now }) :=
      hb.setActive_silent he rfl
    exact (hset.acquire tid).goto_free hv rfl trivial

theorem waitRemove {reply : DecisionReplyPayload} {retain : Bool}
    (hq : b.procs tid = .waitRemove p reply retain)
    (h : b.exec cfg tid c (.waitRemove p reply retain) = some b') : Sound cfg b' := by
  have hv : (b.procs tid).verdict = none := by rw [hq]; rfl
  have hok : ProcOk cfg b.history (.waitRemove p reply retain) := hq ▸ hb.procs tid
  cases retain with
  | true =>
    cases h
    exact hb.goto_free hv rfl hok
  | false =>
    obtain ⟨-, rfl⟩ := Broker.whenFree_eq_some.1 h
    exact (hb.eraseActive p.nonce).goto_free hv rfl hok

theorem waitForget {reply : DecisionReplyPayload} (hq : b.procs tid = .waitForget p reply)
    (h : b.exec cfg tid c (.waitForget p reply) = some b') : Sound cfg b' := by
  have hv : (b.procs tid).verdict = none := by rw [hq]; rfl
  have hok : ProcOk cfg b.history (.waitForget p reply) := hq ▸ hb.procs tid
  cases h
  have hforget : Sound cfg { b with waiters := b.waiters.erase p.nonce } :=
    hb.congr rfl rfl rfl
  refine (hforget.log (fun n r heq => ?_) (by simp)).goto_free hv rfl trivial
  cases heq
  exact hok

theorem submitStart {response : DecisionResponse} (hv : (b.procs tid).verdict = none)
    (h : b.exec cfg tid c (.submitStart nonce response) = some b') : Sound cfg b' := by
  cases response with
  | answer text =>
    cases h
    exact hb.goto_free hv rfl trivial
  | action a =>
    have hgo : some (b.goto tid (.submitLock nonce (.action a) c.now)) = some b' := by
      cases a <;> exact h
    cases hgo
    exact hb.goto_free hv rfl ⟨a, rfl⟩

/-- Every section of a call keeps the invariant. -/
theorem exec (hl : b.LockOk) (hq : b.procs tid = q) (h : b.exec cfg tid c q = some b') :
    Sound cfg b' := by
  have hv : (b.procs tid).verdict = q.verdict := by rw [hq]
  have hok : ProcOk cfg b.history q := hq ▸ hb.procs tid
  cases q with
  | idle | waitDone | done => simp [Broker.exec] at h
  | waitCheck p =>
    obtain ⟨hf, rfl⟩ := Broker.whenFree_eq_some.1 h
    exact hb.waitCheck hl hf hq
  | waitUpsert p =>
    cases h
    exact (hb.auditUpsert c.storeOk p).goto_free (by simpa [Proc.verdict] using hv) rfl trivial
  | waitNotify p =>
    cases h
    exact (hb.congr (x := (b.waiterEntry p.nonce).1) (by simp) (by simp) (by simp)).goto_free
      (by simpa [Proc.verdict] using hv) rfl trivial
  | waitInsert p notify =>
    obtain ⟨-, rfl⟩ := Broker.whenFree_eq_some.1 h
    have hlog := hb.log (e := .registered p) (by simp) (by simp)
    refine (hlog.setActive p.nonce (cfg.registration p)
      ⟨⟨p, by simp, rfl, rfl⟩, fun s hs => by cases hs⟩).goto_free hv rfl trivial
  | waitListen p notify =>
    cases h
    exact hb.goto_free hv rfl trivial
  | waitSelect p notify seen =>
    simp only [Broker.exec] at h
    split_ifs at h <;> obtain rfl := Option.some.inj h <;> exact hb.goto_free hv rfl trivial
  | waitExpire p =>
    obtain ⟨hf, rfl⟩ := Broker.whenFree_eq_some.1 h
    exact hb.waitExpire hl hf hq
  | waitRestore p entry =>
    obtain ⟨-, rfl⟩ := Broker.whenFree_eq_some.1 h
    exact (hb.setActive _ _ ⟨hok.1, fun s hs => Or.inl (hok.2 s hs)⟩).goto_free hv rfl trivial
  | waitFinalize p =>
    cases h
    exact (hb.auditUpdate _ _ _).goto_free (by simpa [Proc.verdict] using hv) rfl trivial
  | waitReply p =>
    obtain ⟨hf, rfl⟩ := Broker.whenFree_eq_some.1 h
    exact hb.goto_free hv rfl (hb.finalReply hl hf p.nonce)
  | waitRetain p reply =>
    obtain ⟨-, rfl⟩ := Broker.whenFree_eq_some.1 h
    exact hb.goto_free hv rfl hok
  | waitRemove p reply retain => exact hb.waitRemove hq h
  | waitForget p reply => exact hb.waitForget hq h
  | submitStart nonce response => exact hb.submitStart hv h
  | submitLock nonce response now =>
    obtain ⟨-, rfl⟩ := Broker.whenFree_eq_some.1 h
    exact hb.submitLock hq
  | submitFinalize nonce =>
    cases h
    exact (hb.auditUpdate _ _ _).goto_free (by simpa [Proc.verdict] using hv) rfl trivial
  | submitRemove nonce =>
    obtain ⟨-, rfl⟩ := Broker.whenFree_eq_some.1 h
    exact (hb.eraseActive nonce).goto_free hv rfl trivial
  | submitWakeExpired nonce =>
    cases h
    exact (hb.wakeWaiter nonce).goto_free (by simpa [Proc.verdict] using hv) rfl trivial
  | submitPersist nonce write verdict =>
    cases h
    exact (hb.auditUpdate _ _ _).goto_locked (by simpa [Proc.verdict] using hv.symm) trivial
  | submitWake nonce verdict =>
    cases h
    exact (hb.wakeWaiter nonce).goto_locked (by simpa [Proc.verdict] using hv.symm) trivial
  | submitReturn nonce verdict =>
    cases h
    exact hb.submitReturn hq
  | settleLock nonce settlement =>
    obtain ⟨hf, rfl⟩ := Broker.whenFree_eq_some.1 h
    exact hb.settleLock hl hf hq
  | settlePersist nonce write =>
    cases h
    exact (hb.auditUpdate _ _ _).release.goto_free (by simpa [Proc.verdict] using hv) rfl trivial
  | settleRemove nonce =>
    obtain ⟨-, rfl⟩ := Broker.whenFree_eq_some.1 h
    exact (hb.eraseActive nonce).goto_free hv rfl trivial
  | observeLock nonce evidence =>
    obtain ⟨-, rfl⟩ := Broker.whenFree_eq_some.1 h
    exact hb.observeLock hq
  | observePersist nonce evidence =>
    cases h
    exact (hb.auditUpdate _ _ _).release.goto_free (by simpa [Proc.verdict] using hv) rfl trivial

theorem step {act : Act} (hl : b.LockOk) (h : b.step cfg act = some b') : Sound cfg b' := by
  cases act with
  | exec tid c => exact hb.exec hl rfl h
  | spawn tid call =>
    simp only [Broker.step] at h
    split at h
    · rename_i hidle
      cases h
      refine hb.goto_free (by rw [hidle]; rfl) call.start_verdict ?_
      cases call <;> trivial
    · cases h

end

end Sound

theorem sound_initial : Sound cfg Broker.initial where
  entries nonce entry he := by simp [Broker.initial] at he
  procs tid := trivial
  verdicts tid _ _ _ _ _ hv := by simp [Broker.initial, Proc.verdict] at hv
  replies h₁ h₂ nonce reply heq := by simp [Broker.initial] at heq
  accepts _ _ _ _ _ hm := by simp [Broker.initial] at hm

/-- The invariant holds in every state a run reaches. -/
theorem sound_of_run {acts : List Act}
    (hr : run (Broker.step cfg) Broker.initial acts = some b) : Sound cfg b ∧ b.LockOk :=
  Guarded.invariant (I := fun b => Sound cfg b ∧ b.LockOk)
    (fun _ _ _ _ hi hs => ⟨hi.1.step hi.2 hs, hi.2.step hs⟩)
    ⟨sound_initial, Broker.lockOk_initial⟩ (Guarded.trivial _ _ acts) hr

/-- Fail-open safety : in every run, an output other than the neutral one was accepted
earlier by a `submit_decision` for that nonce that returned `Ok` on an active, actionable and
unexpired registration, and is the output the adapter builds for that registration. -/
theorem reply_neutral_or_accepted (cfg : BrokerConfig) (acts : List Act) (b : Broker)
    (hr : run (Broker.step cfg) Broker.initial acts = some b)
    (later earlier : List Event) (nonce : String) (reply : DecisionReplyPayload)
    (hh : b.history = later ++ .replied nonce reply :: earlier)
    (hne : reply.stdoutJson ≠ neutralStdout) :
    ∃ p a now, .registered p ∈ earlier ∧ p.nonce = nonce ∧
      .accepted nonce (cfg.registration p) (.action a) now reply.stdoutJson ∈ earlier ∧
      p.hasActionablePayload = true ∧ now < (cfg.registration p).expiresAtMs ∧
      buildVendorStdout p.source p.respondableHook (.action a) p.vendorContext =
        .ok reply.stdoutJson := by
  obtain ⟨hs, -⟩ := sound_of_run hr
  rcases hs.replies later earlier nonce reply hh with hneutral | ⟨_, _, now, p, a, hm, hj⟩
  · exact absurd hneutral hne
  · obtain ⟨hp, hn, rfl, rfl, hact, hexp, hbuilt⟩ := hj
    exact ⟨p, a, now, hp, hn, hm, hact, hexp, hbuilt⟩

/-- In the run of the broker's own test the reply is not neutral, so it was accepted. -/
theorem reply_accepted_submitDeliversRun :
    ∃ b later earlier reply,
      run (Broker.step sampleConfig) Broker.initial submitDeliversRun = some b ∧
      b.history = later ++ .replied "ack-1" reply :: earlier ∧ reply.stdoutJson ≠ neutralStdout ∧
      ∃ p a now, .registered p ∈ earlier ∧ p.nonce = "ack-1" ∧
        .accepted "ack-1" (sampleConfig.registration p) (.action a) now reply.stdoutJson ∈ earlier ∧
        p.hasActionablePayload = true ∧ now < (sampleConfig.registration p).expiresAtMs ∧
        buildVendorStdout p.source p.respondableHook (.action a) p.vendorContext =
          .ok reply.stdoutJson :=
  ⟨_, [], _, _, rfl, rfl, by decide,
    reply_neutral_or_accepted sampleConfig submitDeliversRun _ rfl [] _ "ack-1" _ rfl (by decide)⟩

end LlmNotch
