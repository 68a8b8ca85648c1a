import LlmNotch.DecisionAnswer
import LlmNotch.DecisionSafety

/-!
# An accepted answer is delivered

The invariant of `DecisionAnswer` says where an accepted answer is. Here it is brought to
the hook : from every state with an accepted answer the calls in flight finish on their own,
with no timer and no further call (`Finishes`), and the reply they produce is the answer.
The call that keeps the lock goes first (`locked_step`), then the wait, which is never
blocked while the lock is free (`finishes_free`).
-/

namespace LlmNotch

namespace Broker

variable {cfg : BrokerConfig} {b b' : Broker} {tid w : ℕ} {nonce stdout : String}

/-- The calls in flight can reach a state with `P` without a timer and without a new call. -/
def Finishes (cfg : BrokerConfig) (P : Broker → Prop) (b : Broker) : Prop :=
  ∃ acts b', (∀ a ∈ acts, ∃ tid now, a = Act.go tid now) ∧
    run (Broker.step cfg) b acts = some b' ∧ P b'

theorem Finishes.here {P : Broker → Prop} (h : P b) : Finishes cfg P b :=
  ⟨[], b, by simp, rfl, h⟩

theorem Finishes.step {P : Broker → Prop} (hs : b.step cfg (.go tid 0) = some b')
    (h : Finishes cfg P b') : Finishes cfg P b := by
  obtain ⟨acts, x, hacts, hr, hp⟩ := h
  refine ⟨.go tid 0 :: acts, x, ?_, run_cons.2 ⟨b', hs, hr⟩, hp⟩
  rintro a (_ | ⟨_, ha⟩)
  · exact ⟨tid, 0, rfl⟩
  · exact hacts a ha

theorem step_go {q : Proc} {now : ℤ} (hq : b.procs tid = q) :
    b.step cfg (.go tid now) = b.exec cfg tid ⟨now, false, true⟩ q := by
  rw [Act.go, Broker.step, hq]

/-- The wait for `nonce` has returned `stdout`. -/
def Replied (nonce stdout : String) (b : Broker) : Prop :=
  ∃ reply, .replied nonce reply ∈ b.history ∧ reply.stdoutJson = stdout

/-! ## The wait, while the lock is free -/

section Wait

variable (p : DecisionWaitPayload) (reply : DecisionReplyPayload)

theorem finishes_forget (hq : b.procs w = .waitForget p reply) (hs : reply.stdoutJson = stdout) :
    Finishes cfg (Replied p.nonce stdout) b :=
  .step ((step_go hq).trans rfl) (.here ⟨reply, by simp, hs⟩)

theorem finishes_remove (hq : b.procs w = .waitRemove p reply true)
    (hs : reply.stdoutJson = stdout) : Finishes cfg (Replied p.nonce stdout) b := by
  refine .step ((step_go hq).trans rfl) (finishes_forget (w := w) p reply ?_ hs)
  simp

theorem finishes_retain (hf : b.activeLock = none) (hc : b.Stores p.nonce stdout)
    (hq : b.procs w = .waitRetain p reply) (hs : reply.stdoutJson = stdout) :
    Finishes cfg (Replied p.nonce stdout) b := by
  obtain ⟨entry, r, at', he, hst⟩ := hc
  refine .step ((step_go hq).trans (whenFree_eq_some.2 ⟨hf, rfl⟩))
    (finishes_remove (w := w) p reply ?_ hs)
  simp [retainActive, he, hst, InternalDeliveryState.isChosen]

theorem finishes_reply (hf : b.activeLock = none) (hc : b.Stores p.nonce stdout)
    (hq : b.procs w = .waitReply p) : Finishes cfg (Replied p.nonce stdout) b := by
  refine .step ((step_go hq).trans (whenFree_eq_some.2 ⟨hf, rfl⟩))
    (finishes_retain (w := w) p (b.finalReply p.nonce) hf hc ?_ ?_)
  · simp
  · obtain ⟨entry, r, at', he, hst⟩ := hc
    simp [finalReply, he, replyForActive, hst]

theorem finishes_select {k seen : ℕ} (hf : b.activeLock = none) (hc : b.Stores p.nonce stdout)
    (hq : b.procs w = .waitSelect p k seen) (hne : b.notifyCalls k ≠ seen) :
    Finishes cfg (Replied p.nonce stdout) b := by
  have hstep : b.step cfg (.go w 0) = some (b.goto w (.waitReply p)) := by
    simp [step_go hq, Broker.exec, hne]
  refine .step hstep (finishes_reply (w := w) p hf hc ?_)
  simp

end Wait

/-- While the lock is free, the wait for an accepted answer returns it by itself. -/
theorem finishes_free (H : Tracked b nonce w) (hl : b.LockOk) (hf : b.activeLock = none)
    (ha : b.HasAnswer nonce stdout) : Finishes cfg (Replied nonce stdout) b := by
  obtain ⟨hc, -, -, hway⟩ := H.answered stdout ha
  have hn : b.procs w ≠ .idle → (b.procs w).nonce = some nonce := fun hi =>
    (H.waiter.resolve_left hi).2
  cases hq : b.procs w with
  | waitSelect p k seen =>
    rw [hq] at hway hn
    obtain rfl := Option.some.inj (hn (by simp))
    rcases hway with hne | ⟨-, t, write, v, hcall⟩
    · exact finishes_select p hf hc hq hne
    · have hv := hl.verdict_eq_none hf t
      rcases hcall with hcall | hcall <;> simp [hcall, Proc.verdict] at hv
  | waitReply p =>
    rw [hq] at hn
    obtain rfl := Option.some.inj (hn (by simp))
    exact finishes_reply p hf hc hq
  | waitRetain p reply =>
    rw [hq] at hn hway
    obtain rfl := Option.some.inj (hn (by simp))
    exact finishes_retain p reply hf hc hq hway
  | waitRemove p reply retain =>
    rw [hq] at hn hway
    obtain rfl := Option.some.inj (hn (by simp))
    obtain ⟨rfl, hs⟩ := hway
    exact finishes_remove p reply hq hs
  | waitForget p reply =>
    rw [hq] at hn hway
    obtain rfl := Option.some.inj (hn (by simp))
    exact finishes_forget p reply hq hway
  | waitDone p reply =>
    rw [hq] at hway
    exact .here ⟨reply, H.returned p reply hq, hway⟩
  | _ =>
    rw [hq] at hway
    exact hway.elim

/-! ## The call that keeps the lock -/

/-- How many sections the call that keeps the lock needs to release it. -/
def lockRank : Proc → ℕ
  | .submitPersist .. => 3
  | .submitWake .. => 2
  | .submitReturn .. | .settlePersist .. | .observePersist .. => 1
  | _ => 0

/-- The call that keeps the lock is never blocked, and comes closer to releasing it. -/
theorem locked_step (cfg : BrokerConfig) (hl : b.LockOk) (hk : b.activeLock = some tid) :
    ∃ b', b.step cfg (.go tid 0) = some b' ∧
      (b'.activeLock = none ∨
        b'.activeLock = some tid ∧ lockRank (b'.procs tid) < lockRank (b.procs tid)) := by
  have hkeep := (hl tid).2 hk
  cases hq : b.procs tid with
  | submitPersist n write v =>
    exact ⟨_, (step_go hq).trans rfl, Or.inr ⟨by simpa using hk, by simp [lockRank]⟩⟩
  | submitWake n v =>
    exact ⟨_, (step_go hq).trans rfl, Or.inr ⟨by simpa using hk, by simp [lockRank]⟩⟩
  | submitReturn n v =>
    cases v with
    | accepted => exact ⟨_, (step_go hq).trans rfl, Or.inl rfl⟩
    | refused => exact ⟨_, (step_go hq).trans rfl, Or.inl rfl⟩
  | settlePersist n write => exact ⟨_, (step_go hq).trans rfl, Or.inl rfl⟩
  | observePersist n evidence => exact ⟨_, (step_go hq).trans rfl, Or.inl rfl⟩
  | _ =>
    rw [hq] at hkeep
    cases hkeep

/-- A step of the call that keeps the lock loses nothing. -/
theorem not_loses_locked (hl : b.LockOk) (hk : b.activeLock = some tid) :
    ¬ b.Loses nonce w (.go tid 0) := by
  have hkeep := (hl tid).2 hk
  intro h
  simp only [Act.go, Loses] at h
  split at h <;> simp_all [Proc.keepsLock]

theorem mem_history_step {act : Act} {e : Event} (h : b.step cfg act = some b')
    (hm : e ∈ b.history) : e ∈ b'.history := by
  cases act with
  | spawn tid call =>
    simp only [Broker.step] at h
    split at h
    · cases h
      exact hm
    · cases h
  | exec tid c =>
    rcases exec_history h with hh | ⟨_, -, hh⟩ <;> rw [hh]
    · exact hm
    · exact List.mem_cons_of_mem _ hm

/-- From every state with an accepted answer the calls in flight lead to the reply. -/
theorem finishes_of_accepted (H : Tracked b nonce w) (hl : b.LockOk) {entry : ActiveDecision}
    {r : DecisionResponse} {now : ℤ} (ha : .accepted nonce entry r now stdout ∈ b.history) :
    Finishes cfg (Replied nonce stdout) b := by
  cases hk : b.activeLock with
  | none => exact finishes_free H hl hk (Or.inl ⟨entry, r, now, ha⟩)
  | some tid =>
    -- induction on the sections the lock holder still needs
    induction hn : lockRank (b.procs tid) using Nat.strong_induction_on generalizing b with
    | _ n ih =>
      obtain ⟨b', hs, hcase⟩ := locked_step cfg hl hk
      have H' : Tracked b' nonce w := H.exec (not_loses_locked hl hk) hs
      have ha' := mem_history_step hs ha
      refine .step hs ?_
      rcases hcase with hfree | ⟨hkeep, hlt⟩
      · exact finishes_free H' (hl.step hs) hfree (Or.inl ⟨entry, r, now, ha'⟩)
      · exact ih _ (hn ▸ hlt) H' (hl.step hs) ha' hkeep rfl

/-! ## The answer reaches the waiter -/

/-- In a run of one wait for `nonce`, any number of submissions of it and any other calls
that has none of the losing steps, an accepted answer is the text the adapter built for the
response, every reply of the wait is this text, the audit row is never set to expired, and
the calls in flight lead to the reply. -/
theorem accepted_reaches_waiter (cfg : BrokerConfig) (nonce : String) (w : ℕ) (acts : List Act)
    (b : Broker) (hscope : ∀ a ∈ acts, InScope nonce w a)
    (hg : Guarded (Broker.step cfg) (fun b a => ¬ b.Loses nonce w a) initial acts)
    (hr : run (Broker.step cfg) initial acts = some b) (entry : ActiveDecision)
    (response : DecisionResponse) (now : ℤ) (stdout : String)
    (ha : .accepted nonce entry response now stdout ∈ b.history) :
    buildStdoutForActive entry response = .ok stdout ∧
    (∀ reply, .replied nonce reply ∈ b.history → reply.stdoutJson = stdout) ∧
    .audited nonce .expired ∉ b.history ∧
    Finishes cfg (Replied nonce stdout) b := by
  obtain ⟨H, hl⟩ : Tracked b nonce w ∧ b.LockOk :=
    (hg.and_forall hscope).invariant (I := fun b => Tracked b nonce w ∧ b.LockOk)
      (fun _ _ _ hok hi hs => ⟨hi.1.step hok.1 hok.2 hs, hi.2.step hs⟩)
      ⟨tracked_initial nonce w, lockOk_initial⟩ hr
  have hsec := H.answered stdout (Or.inl ⟨entry, response, now, ha⟩)
  refine ⟨?_, fun reply hm => ?_, hsec.not_expired, finishes_of_accepted H hl ha⟩
  · obtain ⟨p, a, hj⟩ := (sound_of_run hr).1.accepts nonce entry response now stdout ha
    obtain ⟨-, -, rfl, rfl, -, -, hbuilt⟩ := hj
    exact hbuilt
  · have hway := hsec.waiter
    obtain ⟨p, hd⟩ := H.replies reply hm
    rwa [hd] at hway

/-! ## Two runs of the tests' registration -/

/-- A sufficient check, for calls with thread numbers below 8, that a step loses no answer. -/
def keepsAnswer (nonce : String) (w : ℕ) (b : Broker) (act : Act) : Bool :=
  act.tid < 8 && match act with
  | .spawn .. => true
  | .exec tid c =>
    match b.procs tid with
    | .submitLock .. => (b.procs w).isParked &&
      (List.range 8).all fun t => !(b.procs t).late nonce
    | .waitSelect .. => !c.timer
    | _ => true

theorem not_loses_of_keepsAnswer {act : Act} (hb : b.FewCalls)
    (hc : keepsAnswer nonce w b act = true) : ¬ b.Loses nonce w act := by
  cases act with
  | spawn tid call => exact id
  | exec tid c =>
    simp only [keepsAnswer, Bool.and_eq_true] at hc
    obtain ⟨-, hc⟩ := hc
    simp only [Loses]
    cases hq : b.procs tid with
    | submitLock n r now =>
      simp only [hq, Bool.and_eq_true, List.all_eq_true, List.mem_range] at hc
      rintro ⟨-, -, hpark | ⟨t, ht⟩⟩
      · exact hpark hc.1
      · by_cases h8 : t < 8
        · simpa [ht] using hc.2 t h8
        · rw [hb t (by omega)] at ht
          cases ht
    | waitSelect p k seen =>
      simp only [hq] at hc
      rintro ⟨-, htimer, -⟩
      simp [htimer] at hc
    | _ => exact id

/-- In the run of the broker's own test the accepted answer is the reply. -/
theorem accepted_reaches_waiter_submitDeliversRun :
    ∃ b entry now stdout, run (Broker.step sampleConfig) initial submitDeliversRun = some b ∧
      .accepted "ack-1" entry (.action .allow) now stdout ∈ b.history ∧
      buildStdoutForActive entry (.action .allow) = .ok stdout ∧
      (∀ reply, .replied "ack-1" reply ∈ b.history → reply.stdoutJson = stdout) ∧
      .audited "ack-1" .expired ∉ b.history ∧
      Finishes sampleConfig (Replied "ack-1" stdout) b := by
  have hscope : ∀ a ∈ submitDeliversRun, InScope "ack-1" 0 a := by
    simp [submitDeliversRun, Act.park, Act.submit, Act.go, InScope, sampleWait]
  have hg : Guarded (Broker.step sampleConfig) (fun b a => ¬ b.Loses "ack-1" 0 a) initial
      submitDeliversRun :=
    Guarded.of_check (I := FewCalls) (keepsAnswer "ack-1" 0)
      (fun _ _ _ hb hc h => hb.step (of_decide_eq_true (Bool.and_eq_true_iff.1 hc).1) h)
      (fun _ _ hb hc => not_loses_of_keepsAnswer hb hc) (fun _ _ => rfl) (by decide)
  refine ⟨_, sampleConfig.registration (sampleWait "ack-1"), 1001, _, rfl,
    .tail _ (.head _), ?_⟩
  exact accepted_reaches_waiter sampleConfig "ack-1" 0 submitDeliversRun _ hscope hg rfl _ _ _ _
    (.tail _ (.head _))

/-- A submission accepted before the wait has created its `Notified` future, and the timer. -/
def lostAnswerRun : List Act :=
  .spawn 0 (.handleWait (sampleWait "ack-1")) :: List.replicate 4 (.go 0 1000) ++
    Act.submit 1 "ack-1" (.action .allow) 1001 ++ [.go 0 1001, .fire 0] ++
    List.replicate 6 (.go 0 1050)

/-- The answer of `lostAnswerRun` is accepted, but the hook gets the neutral output and the
audit row says that the decision expired. -/
theorem answer_lost_before_listening :
    (∀ a ∈ lostAnswerRun, InScope "ack-1" 0 a) ∧
    ∃ b entry now stdout reply, run (Broker.step sampleConfig) initial lostAnswerRun = some b ∧
      .accepted "ack-1" entry (.action .allow) now stdout ∈ b.history ∧
      .replied "ack-1" reply ∈ b.history ∧ reply.stdoutJson = neutralStdout ∧
      reply.stdoutJson ≠ stdout ∧ b.row "ack-1" = some .expired := by
  refine ⟨by simp [lostAnswerRun, Act.submit, Act.go, Act.fire, InScope, sampleWait], ?_⟩
  exact ⟨_, sampleConfig.registration (sampleWait "ack-1"), 1001, _, _, rfl,
    .tail _ (.tail _ (.head _)), .head _, rfl, by decide, rfl⟩

end Broker

end LlmNotch
