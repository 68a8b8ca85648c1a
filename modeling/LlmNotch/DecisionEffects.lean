import LlmNotch.DecisionSections

/-!
# Effects of one section

What one section of a call can do to each part of the broker, as one inversion lemma per
part : the control state of the call (`exec_goes`), the events recorded (`exec_history`),
the audit row of a nonce (`exec_row`), the active entry of a nonce (`exec_active`) and the
number of accepted answers (`exec_answers`). The invariants of the broker are proved from
these lemmas and do not unfold `exec`.
-/

namespace LlmNotch

/-! ## Control -/

/-- The calls that keep the `active` lock between two sections. -/
def Proc.keepsLock : Proc → Bool
  | .submitPersist .. | .submitWake .. | .submitReturn .. | .settlePersist ..
  | .observePersist .. => true
  | _ => false

/-- The result a submission inside its locked section will return. -/
def Proc.verdict : Proc → Option (String × Verdict)
  | .submitPersist nonce _ v | .submitWake nonce v | .submitReturn nonce v => some (nonce, v)
  | _ => none

theorem Proc.keepsLock_of_verdict {q : Proc} {nv : String × Verdict} (h : q.verdict = some nv) :
    q.keepsLock = true := by
  cases q <;> simp_all [verdict, keepsLock]

theorem Call.start_keepsLock (call : Call) : call.start.keepsLock = false := by
  cases call <;> rfl

theorem Call.start_verdict (call : Call) : call.start.verdict = none := by
  cases call <;> rfl

/-- The audit write a call makes next : the nonce and the state it sets. -/
def Proc.auditWrite : Proc → Option (String × DecisionDeliveryState)
  | .waitUpsert p => some (p.nonce, .pending)
  | .waitFinalize p => some (p.nonce, .expired)
  | .submitFinalize nonce => some (nonce, .expired)
  | .submitPersist nonce write _ => some (nonce, write.state)
  | .settlePersist nonce write => some (nonce, write.state)
  | .observePersist nonce _ => some (nonce, .effectObserved)
  | _ => none

/-- The call erases the entry of `nonce` next. -/
def Proc.erases : Proc → Option String
  | .waitExpire p | .waitRemove p _ false => some p.nonce
  | .submitRemove nonce | .settleRemove nonce => some nonce
  | _ => none

/-- A section that changes the state of a stored entry : what it needs and what it leaves. -/
inductive Proc.Alters (entry : ActiveDecision) : Proc → String → InternalDeliveryState → Prop
  | fail {nonce response now} (detail : String) (hp : entry.internalState = .pending) :
    Proc.Alters entry (.submitLock nonce response now) nonce (.failed detail)
  | choose {nonce response now stdout} (ha : Broker.Acceptable entry response now stdout) :
    Proc.Alters entry (.submitLock nonce response now) nonce (.chosen response now stdout)
  | settle {nonce settlement response now stdout}
    (hc : entry.internalState = .chosen response now stdout) :
    Proc.Alters entry (.settleLock nonce settlement) nonce (settlement.settle now stdout)
  | observe {nonce evidence stdout at'} (now : ℤ)
      (hd : entry.internalState = .delivered stdout at') :
    Proc.Alters entry (.observeLock nonce evidence) nonce (.effectObserved evidence now)

/-- The events a section can record. -/
inductive Proc.Logs (b : Broker) : Proc → Event → Prop
  | registered (p : DecisionWaitPayload) (k : ℕ) : Logs b (.waitInsert p k) (.registered p)
  | replied (p : DecisionWaitPayload) (reply : DecisionReplyPayload) :
    Logs b (.waitForget p reply) (.replied p.nonce reply)
  | refused (p : DecisionWaitPayload) (reply : DecisionReplyPayload) (entry : ActiveDecision)
    (he : b.active.lookup p.nonce = some entry) :
    Logs b (.waitCheck p) (.replied p.nonce reply)
  | accepted (nonce : String) (entry : ActiveDecision) (response : DecisionResponse) (now : ℤ)
    (stdout : String) :
    Logs b (.submitReturn nonce (.accepted entry response now stdout))
      (.accepted nonce entry response now stdout)
  | audited {q : Proc} {nonce : String} {s : DecisionDeliveryState}
    (hw : q.auditWrite = some (nonce, s)) : Logs b q (.audited nonce s)

/-- Where a call goes next, and under which conditions on the state. -/
inductive Proc.Goes (b : Broker) (c : Choice) : Proc → Proc → Prop
  | refuse (p : DecisionWaitPayload) (reply : DecisionReplyPayload) (entry : ActiveDecision)
    (he : b.active.lookup p.nonce = some entry) : Goes b c (.waitCheck p) (.waitDone p reply)
  | register (p : DecisionWaitPayload) : Goes b c (.waitCheck p) (.waitUpsert p)
  | upsert (p : DecisionWaitPayload) : Goes b c (.waitUpsert p) (.waitNotify p)
  | notify (p : DecisionWaitPayload) :
    Goes b c (.waitNotify p) (.waitInsert p (b.waiterEntry p.nonce).2)
  | insert (p : DecisionWaitPayload) (k : ℕ) (hf : b.activeLock = none) :
    Goes b c (.waitInsert p k) (.waitListen p k)
  | listen (p : DecisionWaitPayload) (k : ℕ) :
    Goes b c (.waitListen p k) (.waitSelect p k (b.notifyCalls k))
  | timer (p : DecisionWaitPayload) (k seen : ℕ) (ht : c.timer = true) :
    Goes b c (.waitSelect p k seen) (.waitExpire p)
  | woken (p : DecisionWaitPayload) (k seen : ℕ) (hw : b.notifyCalls k ≠ seen) :
    Goes b c (.waitSelect p k seen) (.waitReply p)
  | keep (p : DecisionWaitPayload) (entry : ActiveDecision) (hf : b.activeLock = none)
    (he : b.active.lookup p.nonce = some entry) (ht : entry.internalState.isTerminal = true) :
    Goes b c (.waitExpire p) (.waitRestore p entry)
  | expire (p : DecisionWaitPayload) (entry : ActiveDecision) (hf : b.activeLock = none)
    (he : b.active.lookup p.nonce = some entry) (ht : entry.internalState.isTerminal = false) :
    Goes b c (.waitExpire p) (.waitFinalize p)
  | gone (p : DecisionWaitPayload) (he : b.active.lookup p.nonce = none) :
    Goes b c (.waitExpire p) (.waitReply p)
  | restore (p : DecisionWaitPayload) (entry : ActiveDecision) :
    Goes b c (.waitRestore p entry) (.waitReply p)
  | finalize (p : DecisionWaitPayload) : Goes b c (.waitFinalize p) (.waitReply p)
  | reply (p : DecisionWaitPayload) (hf : b.activeLock = none) :
    Goes b c (.waitReply p) (.waitRetain p (b.finalReply p.nonce))
  | retain (p : DecisionWaitPayload) (reply : DecisionReplyPayload) (hf : b.activeLock = none) :
    Goes b c (.waitRetain p reply) (.waitRemove p reply (b.retainActive p.nonce))
  | remove (p : DecisionWaitPayload) (reply : DecisionReplyPayload) (retain : Bool) :
    Goes b c (.waitRemove p reply retain) (.waitForget p reply)
  | forget (p : DecisionWaitPayload) (reply : DecisionReplyPayload) :
    Goes b c (.waitForget p reply) (.waitDone p reply)
  | invalid (nonce : String) (response : DecisionResponse) (error : Option BrokerError) :
    Goes b c (.submitStart nonce response) (.done nonce error)
  | submit (nonce : String) (response : DecisionResponse) :
    Goes b c (.submitStart nonce response) (.submitLock nonce response c.now)
  | reject (nonce : String) (response : DecisionResponse) (now : ℤ) (error : Option BrokerError) :
    Goes b c (.submitLock nonce response now) (.done nonce error)
  | late (nonce : String) (response : DecisionResponse) (now : ℤ) (entry : ActiveDecision)
    (hf : b.activeLock = none) (he : b.active.lookup nonce = some entry)
    (hp : entry.internalState = .pending) :
    Goes b c (.submitLock nonce response now) (.submitFinalize nonce)
  | fail (nonce : String) (response : DecisionResponse) (now : ℤ) (entry : ActiveDecision)
    (write : AuditWrite) (error : BrokerError) (hf : b.activeLock = none)
    (he : b.active.lookup nonce = some entry) (hp : entry.internalState = .pending)
    (hw : write.state = .failed) :
    Goes b c (.submitLock nonce response now) (.submitPersist nonce write (.refused error))
  | accept (nonce : String) (response : DecisionResponse) (now : ℤ) (entry : ActiveDecision)
    (write : AuditWrite) (stdout : String) (hf : b.activeLock = none)
    (he : b.active.lookup nonce = some entry)
    (ha : Broker.Acceptable entry response now stdout) (hw : write.state = .pending) :
    Goes b c (.submitLock nonce response now)
      (.submitPersist nonce write (.accepted entry response now stdout))
  | lateRemove (nonce : String) : Goes b c (.submitFinalize nonce) (.submitRemove nonce)
  | lateWake (nonce : String) : Goes b c (.submitRemove nonce) (.submitWakeExpired nonce)
  | lateReturn (nonce : String) (error : Option BrokerError) :
    Goes b c (.submitWakeExpired nonce) (.done nonce error)
  | wake (nonce : String) (write : AuditWrite) (verdict : Verdict) :
    Goes b c (.submitPersist nonce write verdict) (.submitWake nonce verdict)
  | leave (nonce : String) (verdict : Verdict) :
    Goes b c (.submitWake nonce verdict) (.submitReturn nonce verdict)
  | finish (nonce : String) (verdict : Verdict) (error : Option BrokerError) :
    Goes b c (.submitReturn nonce verdict) (.done nonce error)
  | unsettled (nonce : String) (settlement : Settlement) (error : Option BrokerError) :
    Goes b c (.settleLock nonce settlement) (.done nonce error)
  | settle (nonce : String) (settlement : Settlement) (entry : ActiveDecision)
    (response : DecisionResponse) (now : ℤ) (stdout : String) (write : AuditWrite)
    (hf : b.activeLock = none) (he : b.active.lookup nonce = some entry)
    (hc : entry.internalState = .chosen response now stdout)
    (hw : write.state = (settlement.settle now stdout).wireState) :
    Goes b c (.settleLock nonce settlement) (.settlePersist nonce write)
  | settleRemove (nonce : String) (write : AuditWrite) :
    Goes b c (.settlePersist nonce write) (.settleRemove nonce)
  | settled (nonce : String) (error : Option BrokerError) :
    Goes b c (.settleRemove nonce) (.done nonce error)
  | unobserved (nonce evidence : String) (error : Option BrokerError) :
    Goes b c (.observeLock nonce evidence) (.done nonce error)
  | observe (nonce evidence : String) (hf : b.activeLock = none) :
    Goes b c (.observeLock nonce evidence) (.observePersist nonce evidence)
  | observed (nonce evidence : String) (error : Option BrokerError) :
    Goes b c (.observePersist nonce evidence) (.done nonce error)

/-- Who has the `active` lock after a section of `tid` that goes from `q` to `q'`. -/
inductive LockMove (tid : ℕ) (q q' : Proc) (lock : Option ℕ) : Option ℕ → Prop
  | same (hk : q'.keepsLock = q.keepsLock) : LockMove tid q q' lock lock
  | acquire (hf : lock = none) (hq : q.keepsLock = false) (hk : q'.keepsLock = true) :
    LockMove tid q q' lock (some tid)
  | release (hq : q.keepsLock = true) (hk : q'.keepsLock = false) : LockMove tid q q' lock none

namespace Broker

variable {cfg : BrokerConfig} {b b' : Broker} {tid : ℕ} {c : Choice} {q : Proc} {nonce : String}

/-- A section of `tid` takes its call from `q` to a place where it may go. -/
abbrev Moves (b : Broker) (c : Choice) (tid : ℕ) (q : Proc) (b' : Broker) : Prop :=
  ∃ q', q.Goes b c q' ∧ b'.procs = Function.update b.procs tid q' ∧
    LockMove tid q q' b.activeLock b'.activeLock

/-- The section changes neither the lock nor another call. -/
theorem moves_goto {q' : Proc} {x : Broker} (hprocs : x.procs = b.procs)
    (hlock : x.activeLock = b.activeLock) (hgo : q.Goes b c q')
    (hkeeps : q'.keepsLock = q.keepsLock) : b.Moves c tid q (x.goto tid q') := by
  refine ⟨q', hgo, by rw [goto, hprocs], ?_⟩
  rw [goto_activeLock, hlock]
  exact .same hkeeps

/-- The timer of a wait finds the lock free and leaves it so. -/
theorem waitExpire_moves (p : DecisionWaitPayload) (hf : b.activeLock = none) :
    b.Moves c tid (.waitExpire p) (b.waitExpire tid p) := by
  rcases b.waitExpire_cases tid p with ⟨e, he, ht, hx⟩ | ⟨e, he, ht, hx⟩ | ⟨he, hx⟩ <;> rw [hx]
  · exact ⟨_, .keep p e hf he ht, rfl, .same rfl⟩
  · exact ⟨_, .expire p e hf he ht, rfl, .same rfl⟩
  · exact ⟨_, .gone p he, rfl, .same rfl⟩

/-- A submission keeps the lock if it has something to write. -/
theorem submitLock_moves (n : String) (response : DecisionResponse) (now : ℤ)
    (hf : b.activeLock = none) :
    b.Moves c tid (.submitLock n response now) (b.submitLock tid n response now) := by
  rcases b.submitLock_cases tid n response now with
    ⟨_, hx⟩ | ⟨e, he, hp, hx⟩ | ⟨e, _, w, error, he, hp, hw, hx⟩ |
      ⟨e, stdout, w, he, ha, hw, hx⟩ <;>
    rw [hx]
  · exact ⟨_, .reject n response now _, rfl, .same rfl⟩
  · exact ⟨_, .late n response now e hf he hp, rfl, .same rfl⟩
  · exact ⟨_, .fail n response now e w error hf he hp hw, rfl, .acquire hf rfl rfl⟩
  · exact ⟨_, .accept n response now e w stdout hf he ha hw, rfl, .acquire hf rfl rfl⟩

/-- A settlement keeps the lock if it has something to write. -/
theorem settleLock_moves (n : String) (settlement : Settlement) (hf : b.activeLock = none) :
    b.Moves c tid (.settleLock n settlement) (b.settleLock tid n settlement) := by
  rcases b.settleLock_cases tid n settlement with
    ⟨_, hx⟩ | ⟨e, response, now, stdout, w, he, hc, hw, hx⟩ <;> rw [hx]
  · exact ⟨_, .unsettled n settlement _, rfl, .same rfl⟩
  · exact ⟨_, .settle n settlement e response now stdout w hf he hc hw, rfl, .acquire hf rfl rfl⟩

/-- An observation keeps the lock if it has something to write. -/
theorem observeLock_moves (n evidence : String) (hf : b.activeLock = none) :
    b.Moves c tid (.observeLock n evidence) (b.observeLock tid n evidence c.now) := by
  rcases b.observeLock_cases tid n evidence c.now with ⟨_, hx⟩ | ⟨_, _, _, -, -, hx⟩ <;> rw [hx]
  · exact ⟨_, .unobserved n evidence _, rfl, .same rfl⟩
  · exact ⟨_, .observe n evidence hf, rfl, .acquire hf rfl rfl⟩

/-- What a section does to its call and to the lock. -/
theorem exec_goes (h : b.exec cfg tid c q = some b') :
    ∃ q', q.Goes b c q' ∧ b'.procs = Function.update b.procs tid q' ∧
      LockMove tid q q' b.activeLock b'.activeLock := by
  cases q with
  | idle | waitDone | done => simp [exec] at h
  | waitCheck p =>
    obtain ⟨-, rfl⟩ := whenFree_eq_some.1 h
    rcases b.waitCheck_cases tid p with ⟨reply, entry, he, -, hx⟩ | hx <;> rw [hx]
    · exact ⟨_, .refuse p reply entry he, rfl, .same rfl⟩
    · exact ⟨_, .register p, rfl, .same rfl⟩
  | waitUpsert p =>
    cases h
    exact moves_goto (by simp) (by simp) (.upsert p) rfl
  | waitNotify p =>
    cases h
    exact moves_goto (by simp) (by simp) (.notify p) rfl
  | waitInsert p k =>
    obtain ⟨hf, rfl⟩ := whenFree_eq_some.1 h
    exact ⟨_, .insert p k hf, rfl, .same rfl⟩
  | waitListen p k =>
    cases h
    exact ⟨_, .listen p k, rfl, .same rfl⟩
  | waitSelect p k seen =>
    simp only [exec] at h
    split_ifs at h with ht hw <;> cases h
    · exact ⟨_, .timer p k seen ht, rfl, .same rfl⟩
    · exact ⟨_, .woken p k seen hw, rfl, .same rfl⟩
  | waitExpire p =>
    obtain ⟨hf, rfl⟩ := whenFree_eq_some.1 h
    exact waitExpire_moves p hf
  | waitRestore p e =>
    obtain ⟨-, rfl⟩ := whenFree_eq_some.1 h
    exact ⟨_, .restore p e, rfl, .same rfl⟩
  | waitFinalize p =>
    cases h
    exact moves_goto (by simp) (by simp) (.finalize p) rfl
  | waitReply p =>
    obtain ⟨hf, rfl⟩ := whenFree_eq_some.1 h
    exact ⟨_, .reply p hf, rfl, .same rfl⟩
  | waitRetain p reply =>
    obtain ⟨hf, rfl⟩ := whenFree_eq_some.1 h
    exact ⟨_, .retain p reply hf, rfl, .same rfl⟩
  | waitRemove p reply retain =>
    cases retain with
    | true =>
      cases h
      exact ⟨_, .remove p reply true, rfl, .same rfl⟩
    | false =>
      obtain ⟨-, rfl⟩ := whenFree_eq_some.1 h
      exact ⟨_, .remove p reply false, rfl, .same rfl⟩
  | waitForget p reply =>
    cases h
    exact ⟨_, .forget p reply, rfl, .same rfl⟩
  | submitStart n response =>
    simp only [exec] at h
    split at h <;> cases h
    · exact ⟨_, .invalid n response _, rfl, .same rfl⟩
    · exact ⟨_, .submit n response, rfl, .same rfl⟩
  | submitLock n response now =>
    obtain ⟨hf, rfl⟩ := whenFree_eq_some.1 h
    exact submitLock_moves n response now hf
  | submitFinalize n =>
    cases h
    exact moves_goto (by simp) (by simp) (.lateRemove n) rfl
  | submitRemove n =>
    obtain ⟨-, rfl⟩ := whenFree_eq_some.1 h
    exact ⟨_, .lateWake n, rfl, .same rfl⟩
  | submitWakeExpired n =>
    cases h
    exact moves_goto (by simp) (by simp) (.lateReturn n _) rfl
  | submitPersist n write verdict =>
    cases h
    exact moves_goto (by simp) (by simp) (.wake n write verdict) rfl
  | submitWake n verdict =>
    cases h
    exact moves_goto (by simp) (by simp) (.leave n verdict) rfl
  | submitReturn n verdict =>
    cases h
    cases verdict
    · exact ⟨_, .finish n _ _, rfl, .release rfl rfl⟩
    · exact ⟨_, .finish n _ _, rfl, .release rfl rfl⟩
  | settleLock n settlement =>
    obtain ⟨hf, rfl⟩ := whenFree_eq_some.1 h
    exact settleLock_moves n settlement hf
  | settlePersist n write =>
    cases h
    exact ⟨_, .settleRemove n write, by rw [goto, release, auditUpdate_procs], .release rfl rfl⟩
  | settleRemove n =>
    obtain ⟨-, rfl⟩ := whenFree_eq_some.1 h
    exact ⟨_, .settled n _, rfl, .same rfl⟩
  | observeLock n evidence =>
    obtain ⟨hf, rfl⟩ := whenFree_eq_some.1 h
    exact observeLock_moves n evidence hf
  | observePersist n evidence =>
    cases h
    exact ⟨_, .observed n evidence _, by rw [goto, release, auditUpdate_procs], .release rfl rfl⟩

/-! ## The lock -/

/-- The `active` lock is kept by exactly the call inside a locked section. -/
def LockOk (b : Broker) : Prop :=
  ∀ tid, (b.procs tid).keepsLock = true ↔ b.activeLock = some tid

theorem lockOk_initial : LockOk initial := by
  intro tid
  simp [initial, Proc.keepsLock]

/-- While the lock is free no submission is inside its locked section. -/
theorem LockOk.verdict_eq_none (h : LockOk b) (hf : b.activeLock = none) (t : ℕ) :
    (b.procs t).verdict = none := by
  cases hv : (b.procs t).verdict with
  | none => rfl
  | some nv => simpa [hf] using (h t).1 (Proc.keepsLock_of_verdict hv)

theorem LockOk.exec (hb : LockOk b) (hq : b.procs tid = q)
    (h : b.exec cfg tid c q = some b') : LockOk b' := by
  obtain ⟨q', -, hp, hm⟩ := exec_goes h
  have hk : q.keepsLock = true ↔ b.activeLock = some tid := hq ▸ hb tid
  intro t
  have hbt := hb t
  rw [hp]
  generalize b'.activeLock = lock at hm
  by_cases ht : t = tid
  · subst ht
    rw [Function.update_self]
    cases hm <;> simp_all
  · rw [Function.update_of_ne ht]
    cases hm with
    | same => exact hbt
    | acquire hf =>
      rw [hf] at hbt
      simpa [Ne.symm ht] using hbt
    | release hq =>
      rw [hk.1 hq] at hbt
      simpa [Ne.symm ht] using hbt

theorem LockOk.step {act : Act} (hb : LockOk b) (h : b.step cfg act = some b') : LockOk b' := by
  cases act with
  | exec tid c => exact hb.exec rfl h
  | spawn tid call =>
    simp only [Broker.step] at h
    split at h
    · rename_i hidle
      cases h
      intro t
      by_cases ht : t = tid
      · subst ht
        have hidle' := hb t
        rw [hidle] at hidle'
        rw [goto_procs, Function.update_self, call.start_keepsLock]
        exact hidle'
      · simpa [ht] using hb t
    · cases h

/-! ## Events -/

/-- A section records one event at most. -/
theorem exec_history (h : b.exec cfg tid c q = some b') :
    b'.history = b.history ∨ ∃ e, q.Logs b e ∧ b'.history = e :: b.history := by
  cases q
  case waitUpsert p =>
    cases h
    exact (b.auditUpsert_history c.storeOk cfg p).imp_right fun hh => ⟨_, .audited rfl, hh⟩
  case waitFinalize p =>
    cases h
    exact (b.auditUpdate_history c.storeOk _ _).imp_right fun hh => ⟨_, .audited rfl, hh⟩
  case submitFinalize n =>
    cases h
    exact (b.auditUpdate_history c.storeOk _ _).imp_right fun hh => ⟨_, .audited rfl, hh⟩
  case submitPersist n write v =>
    cases h
    exact (b.auditUpdate_history c.storeOk _ _).imp_right fun hh => ⟨_, .audited rfl, hh⟩
  case settlePersist n write =>
    cases h
    exact (b.auditUpdate_history c.storeOk _ _).imp_right fun hh => ⟨_, .audited rfl, hh⟩
  case observePersist n evidence =>
    cases h
    exact (b.auditUpdate_history c.storeOk _ _).imp_right fun hh => ⟨_, .audited rfl, hh⟩
  case waitInsert p k =>
    obtain ⟨-, rfl⟩ := whenFree_eq_some.1 h
    exact Or.inr ⟨_, .registered p k, rfl⟩
  case waitForget p reply =>
    cases h
    exact Or.inr ⟨_, .replied p reply, rfl⟩
  case waitCheck p =>
    obtain ⟨-, rfl⟩ := whenFree_eq_some.1 h
    rcases b.waitCheck_cases tid p with ⟨reply, entry, he, -, hx⟩ | hx <;> rw [hx]
    · exact Or.inr ⟨_, .refused p reply entry he, rfl⟩
    · exact Or.inl rfl
  case submitReturn n verdict =>
    cases h
    cases verdict with
    | accepted entry response now stdout =>
      exact Or.inr ⟨_, .accepted n entry response now stdout, rfl⟩
    | refused error => exact Or.inl rfl
  all_goals
    refine Or.inl ?_
    simp only [exec, whenFree, waitExpire, Broker.submitLock, Broker.settleLock,
      Broker.observeLock] at h
    repeat' split at h
    all_goals simp only [Option.some.injEq, reduceCtorEq] at h
    all_goals subst h; simp

/-! ## Audit rows -/

theorem row_congr {x : Broker} (h : x.audit = b.audit) : x.row nonce = b.row nonce := by
  rw [row, row, h]

theorem auditUpdate_row (b : Broker) (ok : Bool) (n : String) (write : AuditWrite) :
    (b.auditUpdate ok n write).row nonce = b.row nonce ∨
      nonce = n ∧ (b.auditUpdate ok n write).row nonce = some write.state := by
  rcases b.auditUpdate_cases ok n write with h | ⟨row, h, hr⟩ <;> rw [h]
  · exact Or.inl rfl
  · by_cases hn : nonce = n
    · subst hn
      exact Or.inr ⟨rfl, by simp [Broker.row, hr]⟩
    · exact Or.inl (by simp [Broker.row, hn])

theorem auditUpsert_row (b : Broker) (ok : Bool) (p : DecisionWaitPayload) :
    (b.auditUpsert ok cfg p).row nonce = b.row nonce ∨
      nonce = p.nonce ∧ (b.auditUpsert ok cfg p).row nonce = some .pending := by
  cases ok with
  | false => exact Or.inl rfl
  | true =>
    by_cases hn : nonce = p.nonce
    · subst hn
      refine Or.inr ⟨rfl, ?_⟩
      simp only [auditUpsert, Broker.row]
      cases b.audit.lookup p.nonce <;> simp
    · exact Or.inl (by simp [auditUpsert, Broker.row, hn])

/-- A section changes the audit row of no nonce but its own. -/
theorem exec_row (nonce : String) (h : b.exec cfg tid c q = some b') :
    b'.row nonce = b.row nonce ∨
      ∃ s, q.auditWrite = some (nonce, s) ∧ b'.row nonce = some s := by
  cases q
  case waitUpsert p =>
    cases h
    exact (auditUpsert_row b c.storeOk p).imp_right fun ⟨hn, hr⟩ => ⟨_, by rw [hn]; rfl, hr⟩
  case waitFinalize p =>
    cases h
    exact (auditUpdate_row b c.storeOk p.nonce _).imp_right fun ⟨hn, hr⟩ => ⟨_, by rw [hn]; rfl, hr⟩
  case submitFinalize n =>
    cases h
    exact (auditUpdate_row b c.storeOk n _).imp_right fun ⟨hn, hr⟩ => ⟨_, by rw [hn]; rfl, hr⟩
  case submitPersist n write v =>
    cases h
    exact (auditUpdate_row b c.storeOk n _).imp_right fun ⟨hn, hr⟩ => ⟨_, by rw [hn]; rfl, hr⟩
  case settlePersist n write =>
    cases h
    exact (auditUpdate_row b c.storeOk n _).imp_right fun ⟨hn, hr⟩ => ⟨_, by rw [hn]; rfl, hr⟩
  case observePersist n evidence =>
    cases h
    exact (auditUpdate_row b c.storeOk n _).imp_right fun ⟨hn, hr⟩ => ⟨_, by rw [hn]; rfl, hr⟩
  all_goals
    refine Or.inl (row_congr ?_)
    simp only [exec, whenFree, waitCheck, waitExpire, Broker.submitLock, Broker.settleLock,
      Broker.submitReturn, Broker.observeLock, submitReturn] at h
    repeat' split at h
    all_goals simp only [Option.some.injEq, reduceCtorEq] at h
    all_goals subst h; first | rfl | simp

/-! ## Active entries -/

/-- A section changes the map of entries only while the lock is free. -/
theorem exec_active (nonce : String) (h : b.exec cfg tid c q = some b') :
    b'.active.lookup nonce = b.active.lookup nonce ∨
    b.activeLock = none ∧
      (q.erases = some nonce ∧ b'.active.lookup nonce = none ∨
      (∃ p k, q = .waitInsert p k ∧ p.nonce = nonce ∧
        b'.active.lookup nonce = some (cfg.registration p)) ∨
      (∃ p e, q = .waitRestore p e ∧ p.nonce = nonce ∧ b'.active.lookup nonce = some e) ∨
      (∃ e s, b.active.lookup nonce = some e ∧ q.Alters e nonce s ∧
        b'.active.lookup nonce = some { e with internalState := s })) := by
  have herase (n : String) (hn : q.erases = some n) (hf : b.activeLock = none)
      (ha : b'.active = b.active.erase n) :
      b'.active.lookup nonce = b.active.lookup nonce ∨
        b.activeLock = none ∧ q.erases = some nonce ∧ b'.active.lookup nonce = none := by
    rw [ha, Dict.lookup_erase_ite]
    split_ifs with h
    · exact Or.inr ⟨hf, h ▸ hn, rfl⟩
    · exact Or.inl rfl
  have hset (n : String) (e : ActiveDecision) (ha : b'.active = b.active.insert n e) :
      b'.active.lookup nonce = b.active.lookup nonce ∨
        n = nonce ∧ b'.active.lookup nonce = some e := by
    rw [ha, Dict.lookup_insert_ite]
    split_ifs with h
    · exact Or.inr ⟨h.symm, rfl⟩
    · exact Or.inl rfl
  cases q
  case waitInsert p k =>
    obtain ⟨hf, rfl⟩ := whenFree_eq_some.1 h
    refine (hset p.nonce _ rfl).imp_right fun ⟨hn, he⟩ => ⟨hf, ?_⟩
    exact Or.inr (Or.inl ⟨p, k, rfl, hn, he⟩)
  case waitRestore p e =>
    obtain ⟨hf, rfl⟩ := whenFree_eq_some.1 h
    refine (hset p.nonce _ rfl).imp_right fun ⟨hn, he⟩ => ⟨hf, ?_⟩
    exact Or.inr (Or.inr (Or.inl ⟨p, e, rfl, hn, he⟩))
  case waitExpire p =>
    obtain ⟨hf, rfl⟩ := whenFree_eq_some.1 h
    rcases b.waitExpire_cases tid p with ⟨_, -, -, hx⟩ | ⟨_, -, -, hx⟩ | ⟨-, hx⟩
    · exact (herase p.nonce rfl hf (by rw [hx]; rfl)).imp_right fun ⟨hf, h⟩ => ⟨hf, Or.inl h⟩
    · exact (herase p.nonce rfl hf (by rw [hx]; rfl)).imp_right fun ⟨hf, h⟩ => ⟨hf, Or.inl h⟩
    · exact Or.inl (by rw [hx]; rfl)
  case waitRemove p reply retain =>
    cases retain with
    | true =>
      cases h
      exact Or.inl rfl
    | false =>
      obtain ⟨hf, rfl⟩ := whenFree_eq_some.1 h
      exact (herase p.nonce rfl hf rfl).imp_right fun ⟨hf, h⟩ => ⟨hf, Or.inl h⟩
  case submitRemove n =>
    obtain ⟨hf, rfl⟩ := whenFree_eq_some.1 h
    exact (herase n rfl hf rfl).imp_right fun ⟨hf, h⟩ => ⟨hf, Or.inl h⟩
  case settleRemove n =>
    obtain ⟨hf, rfl⟩ := whenFree_eq_some.1 h
    exact (herase n rfl hf rfl).imp_right fun ⟨hf, h⟩ => ⟨hf, Or.inl h⟩
  case submitLock n response now =>
    obtain ⟨hf, rfl⟩ := whenFree_eq_some.1 h
    rcases b.submitLock_cases tid n response now with
      ⟨_, hx⟩ | ⟨_, -, -, hx⟩ | ⟨e, detail, _, _, he, hp, -, hx⟩ | ⟨e, stdout, _, he, ha, -, hx⟩
    · exact Or.inl (by rw [hx]; rfl)
    · exact Or.inl (by rw [hx]; rfl)
    · refine (hset n { e with internalState := .failed detail } (by rw [hx]; rfl)).imp_right
        fun ⟨hn, hl⟩ => ⟨hf, ?_⟩
      subst hn
      exact Or.inr (Or.inr (Or.inr ⟨e, _, he, .fail detail hp, hl⟩))
    · refine (hset n { e with internalState := .chosen response now stdout }
        (by rw [hx]; rfl)).imp_right fun ⟨hn, hl⟩ => ⟨hf, ?_⟩
      subst hn
      exact Or.inr (Or.inr (Or.inr ⟨e, _, he, .choose ha, hl⟩))
  case settleLock n settlement =>
    obtain ⟨hf, rfl⟩ := whenFree_eq_some.1 h
    rcases b.settleLock_cases tid n settlement with
      ⟨_, hx⟩ | ⟨e, response, now, stdout, _, he, hc, -, hx⟩
    · exact Or.inl (by rw [hx]; rfl)
    · refine (hset n { e with internalState := settlement.settle now stdout }
        (by rw [hx]; rfl)).imp_right fun ⟨hn, hl⟩ => ⟨hf, ?_⟩
      subst hn
      exact Or.inr (Or.inr (Or.inr ⟨e, _, he, .settle hc, hl⟩))
  case observeLock n evidence =>
    obtain ⟨hf, rfl⟩ := whenFree_eq_some.1 h
    rcases b.observeLock_cases tid n evidence c.now with ⟨_, hx⟩ | ⟨e, stdout, _, he, hd, hx⟩
    · exact Or.inl (by rw [hx]; rfl)
    · refine (hset n { e with internalState := .effectObserved evidence c.now }
        (by rw [hx]; rfl)).imp_right fun ⟨hn, hl⟩ => ⟨hf, ?_⟩
      subst hn
      exact Or.inr (Or.inr (Or.inr ⟨e, _, he, .observe c.now hd, hl⟩))
  all_goals
    refine Or.inl ?_
    simp only [exec, whenFree, waitCheck, Broker.submitReturn] at h
    repeat' split at h
    all_goals simp only [Option.some.injEq, reduceCtorEq] at h
    all_goals subst h; simp

/-! ## Few calls -/

/-- No call has a thread number from 8 on. -/
def FewCalls (b : Broker) : Prop :=
  ∀ t, 8 ≤ t → b.procs t = .idle

theorem FewCalls.step {act : Act} (hb : b.FewCalls) (ha : act.tid < 8)
    (h : b.step cfg act = some b') : b'.FewCalls := by
  intro t ht
  have hne : t ≠ act.tid := by omega
  cases act with
  | spawn tid call =>
    simp only [Broker.step] at h
    split at h
    · cases h
      simpa [show t ≠ tid from hne] using hb t ht
    · cases h
  | exec tid c =>
    obtain ⟨q', -, hp, -⟩ := exec_goes h
    rw [hp, Function.update_of_ne (show t ≠ tid from hne)]
    exact hb t ht

end Broker

end LlmNotch
