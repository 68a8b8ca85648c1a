import LlmNotch.DecisionBroker

/-!
# Sections of the broker calls

What the store and the waiters leave alone (the frame lemmas), and for every section that
holds the `active` lock the cases it distinguishes (`waitCheck_cases`, `waitExpire_cases`,
`submitLock_cases`, `settleLock_cases`, `observeLock_cases`). `Acceptable` collects the
checks of `submit_decision` on the entry it accepts.
-/

namespace LlmNotch

namespace Broker

variable {b b' : Broker}

theorem whenFree_eq_some {x : Broker} :
    b.whenFree x = some b' ↔ b.activeLock = none ∧ x = b' := by
  simp [whenFree]

/-! ## Frames of the store and of the waiters -/

section Frames

variable (b : Broker) (ok : Bool) (cfg : BrokerConfig) (p : DecisionWaitPayload) (nonce : String)
  (write : AuditWrite)

@[simp] theorem auditUpsert_active : (b.auditUpsert ok cfg p).active = b.active := by
  cases ok <;> rfl

@[simp] theorem auditUpsert_waiters : (b.auditUpsert ok cfg p).waiters = b.waiters := by
  cases ok <;> rfl

@[simp] theorem auditUpsert_notifyCalls :
    (b.auditUpsert ok cfg p).notifyCalls = b.notifyCalls := by
  cases ok <;> rfl

@[simp] theorem auditUpsert_activeLock : (b.auditUpsert ok cfg p).activeLock = b.activeLock := by
  cases ok <;> rfl

@[simp] theorem auditUpsert_procs : (b.auditUpsert ok cfg p).procs = b.procs := by
  cases ok <;> rfl

theorem auditUpsert_history :
    (b.auditUpsert ok cfg p).history = b.history ∨
      (b.auditUpsert ok cfg p).history = .audited p.nonce .pending :: b.history := by
  cases ok
  · exact Or.inl rfl
  · exact Or.inr rfl

/-- `update_delivery` changes the audit table and records it, or does nothing. -/
theorem auditUpdate_cases :
    b.auditUpdate ok nonce write = b ∨
      ∃ row, b.auditUpdate ok nonce write =
        { b with
          audit := b.audit.insert nonce row
          history := .audited nonce write.state :: b.history } ∧
        row.deliveryState = write.state := by
  unfold auditUpdate
  split
  · exact Or.inr ⟨_, rfl, rfl⟩
  · exact Or.inl rfl

@[simp] theorem auditUpdate_active : (b.auditUpdate ok nonce write).active = b.active := by
  rcases b.auditUpdate_cases ok nonce write with h | ⟨row, h, -⟩ <;> rw [h]

@[simp] theorem auditUpdate_waiters : (b.auditUpdate ok nonce write).waiters = b.waiters := by
  rcases b.auditUpdate_cases ok nonce write with h | ⟨row, h, -⟩ <;> rw [h]

@[simp] theorem auditUpdate_notifyCalls :
    (b.auditUpdate ok nonce write).notifyCalls = b.notifyCalls := by
  rcases b.auditUpdate_cases ok nonce write with h | ⟨row, h, -⟩ <;> rw [h]

@[simp] theorem auditUpdate_activeLock :
    (b.auditUpdate ok nonce write).activeLock = b.activeLock := by
  rcases b.auditUpdate_cases ok nonce write with h | ⟨row, h, -⟩ <;> rw [h]

@[simp] theorem auditUpdate_procs : (b.auditUpdate ok nonce write).procs = b.procs := by
  rcases b.auditUpdate_cases ok nonce write with h | ⟨row, h, -⟩ <;> rw [h]

theorem auditUpdate_history :
    (b.auditUpdate ok nonce write).history = b.history ∨
      (b.auditUpdate ok nonce write).history = .audited nonce write.state :: b.history := by
  rcases b.auditUpdate_cases ok nonce write with h | ⟨row, h, -⟩
  · exact Or.inl (by rw [h])
  · exact Or.inr (by rw [h])

@[simp] theorem wakeWaiter_active : (b.wakeWaiter nonce).active = b.active := by
  unfold wakeWaiter
  split <;> rfl

@[simp] theorem wakeWaiter_audit : (b.wakeWaiter nonce).audit = b.audit := by
  unfold wakeWaiter
  split <;> rfl

@[simp] theorem wakeWaiter_activeLock : (b.wakeWaiter nonce).activeLock = b.activeLock := by
  unfold wakeWaiter
  split <;> rfl

@[simp] theorem wakeWaiter_procs : (b.wakeWaiter nonce).procs = b.procs := by
  unfold wakeWaiter
  split <;> rfl

@[simp] theorem wakeWaiter_history : (b.wakeWaiter nonce).history = b.history := by
  unfold wakeWaiter
  split <;> rfl

@[simp] theorem waiterEntry_active : (b.waiterEntry nonce).1.active = b.active := by
  unfold waiterEntry
  split <;> rfl

@[simp] theorem waiterEntry_audit : (b.waiterEntry nonce).1.audit = b.audit := by
  unfold waiterEntry
  split <;> rfl

@[simp] theorem waiterEntry_activeLock : (b.waiterEntry nonce).1.activeLock = b.activeLock := by
  unfold waiterEntry
  split <;> rfl

@[simp] theorem waiterEntry_procs : (b.waiterEntry nonce).1.procs = b.procs := by
  unfold waiterEntry
  split <;> rfl

@[simp] theorem waiterEntry_history : (b.waiterEntry nonce).1.history = b.history := by
  unfold waiterEntry
  split <;> rfl

end Frames

/-! ## What a locked section can do -/

/-- A wait is answered from the entry it finds, or goes on to register. -/
theorem waitCheck_cases (b : Broker) (tid : ℕ) (p : DecisionWaitPayload) :
    (∃ reply entry, b.active.lookup p.nonce = some entry ∧
      (reply = failOpenReply p.nonce ∨ reply = replayTerminal p.nonce entry) ∧
      b.waitCheck tid p = (b.log (.replied p.nonce reply)).goto tid (.waitDone p reply)) ∨
    b.waitCheck tid p = b.goto tid (.waitUpsert p) := by
  unfold waitCheck
  cases hn : b.active.lookup p.nonce with
  | none => exact Or.inr rfl
  | some entry =>
    dsimp only
    split_ifs
    · exact Or.inl ⟨_, entry, rfl, Or.inl rfl, rfl⟩
    · exact Or.inl ⟨_, entry, rfl, Or.inr rfl, rfl⟩
    · exact Or.inr rfl

/-- The timer takes the entry out : one that ended is put back, another expires. -/
theorem waitExpire_cases (b : Broker) (tid : ℕ) (p : DecisionWaitPayload) :
    (∃ entry, b.active.lookup p.nonce = some entry ∧ entry.internalState.isTerminal = true ∧
      b.waitExpire tid p = (b.eraseActive p.nonce).goto tid (.waitRestore p entry)) ∨
    (∃ entry, b.active.lookup p.nonce = some entry ∧ entry.internalState.isTerminal = false ∧
      b.waitExpire tid p = (b.eraseActive p.nonce).goto tid (.waitFinalize p)) ∨
    (b.active.lookup p.nonce = none ∧ b.waitExpire tid p = b.goto tid (.waitReply p)) := by
  unfold waitExpire
  cases hn : b.active.lookup p.nonce with
  | none => exact Or.inr (Or.inr ⟨rfl, rfl⟩)
  | some entry =>
    dsimp only
    cases ht : entry.internalState.isTerminal with
    | true => exact Or.inl ⟨entry, rfl, ht, by simp⟩
    | false => exact Or.inr (Or.inl ⟨entry, rfl, ht, by simp⟩)

/-- The entry a submission accepts : pending, unexpired, actionable, and with an output of
its own. -/
structure Acceptable (entry : ActiveDecision) (response : DecisionResponse) (now : ℤ)
    (stdout : String) : Prop where
  pending : entry.internalState = .pending
  unexpired : now < entry.expiresAtMs
  actionable : entry.request.hasActionablePayload = true
  built : buildStdoutForActive entry response = .ok stdout
  not_neutral : stdout ≠ neutralStdout

variable {entry : ActiveDecision} {response : DecisionResponse} {stdout : String}

/-- A chosen output was built and is not the neutral one. -/
theorem checkStdout_eq_choose (h : checkStdout entry response = .choose stdout) :
    buildStdoutForActive entry response = .ok stdout ∧ stdout ≠ neutralStdout := by
  unfold checkStdout at h
  split at h
  · split_ifs at h with hn
    cases h
    exact ⟨by assumption, hn⟩
  · cases h
  · cases h

theorem pending_of_checkSubmit {now : ℤ} {r : SubmitCheck} (h : checkSubmit entry response now = r)
    (hr : ∀ e, r ≠ .refuse e) : entry.internalState = .pending := by
  unfold checkSubmit at h
  split at h
  · assumption
  · exact absurd h.symm (hr _)

/-- A submission chooses an output only for an acceptable entry. -/
theorem checkSubmit_eq_choose {now : ℤ} (h : checkSubmit entry response now = .choose stdout) :
    Acceptable entry response now stdout := by
  have hp := pending_of_checkSubmit h (by simp)
  simp only [checkSubmit, hp] at h
  split_ifs at h with he ha
  obtain ⟨hb, hn⟩ := checkStdout_eq_choose h
  exact ⟨hp, by omega, by simpa using ha, hb, hn⟩

theorem checkSubmit_of_acceptable {now : ℤ} (h : Acceptable entry response now stdout) :
    checkSubmit entry response now = .choose stdout := by
  obtain ⟨hp, hu, ha, hb, hn⟩ := h
  simp [checkSubmit, checkStdout, hp, ha, hb, hn, not_le.2 hu]

/-- The submission will accept the entry it finds. -/
def WillAccept (b : Broker) (nonce : String) (response : DecisionResponse) (now : ℤ) : Prop :=
  ∃ entry stdout, b.active.lookup nonce = some entry ∧
    checkSubmit entry response now = .choose stdout

/-- A submission is refused, finds the entry expired, fails it or chooses its output. -/
theorem submitLock_cases (b : Broker) (tid : ℕ) (nonce : String) (response : DecisionResponse)
    (now : ℤ) :
    (∃ error, b.submitLock tid nonce response now = b.goto tid (.done nonce (some error))) ∨
    (∃ entry, b.active.lookup nonce = some entry ∧ entry.internalState = .pending ∧
      b.submitLock tid nonce response now = b.goto tid (.submitFinalize nonce)) ∨
    (∃ entry detail write error, b.active.lookup nonce = some entry ∧
      entry.internalState = .pending ∧ write.state = .failed ∧
      b.submitLock tid nonce response now =
        ((b.setActive nonce { entry with internalState := .failed detail }).acquire tid).goto tid
          (.submitPersist nonce write (.refused error))) ∨
    (∃ entry stdout write, b.active.lookup nonce = some entry ∧
      Acceptable entry response now stdout ∧ write.state = .pending ∧
      b.submitLock tid nonce response now =
        ((b.setActive nonce { entry with internalState := .chosen response now stdout }).acquire
          tid).goto tid (.submitPersist nonce write (.accepted entry response now stdout))) := by
  unfold submitLock
  cases hn : b.active.lookup nonce with
  | none => exact Or.inl ⟨_, rfl⟩
  | some entry =>
    dsimp only
    cases hc : checkSubmit entry response now with
    | refuse error => exact Or.inl ⟨error, rfl⟩
    | expire =>
      exact Or.inr (Or.inl ⟨entry, rfl, pending_of_checkSubmit hc (by simp), rfl⟩)
    | fail detail keepResponse =>
      exact Or.inr (Or.inr (Or.inl
        ⟨entry, detail, _, _, rfl, pending_of_checkSubmit hc (by simp), rfl, rfl⟩))
    | choose stdout =>
      exact Or.inr (Or.inr (Or.inr
        ⟨entry, stdout, _, rfl, checkSubmit_eq_choose hc, rfl, rfl⟩))

/-- Only a chosen entry can be settled. -/
theorem settleLock_cases (b : Broker) (tid : ℕ) (nonce : String) (settlement : Settlement) :
    (∃ error, b.settleLock tid nonce settlement = b.goto tid (.done nonce (some error))) ∨
    (∃ entry response now stdout write, b.active.lookup nonce = some entry ∧
      entry.internalState = .chosen response now stdout ∧
      write.state = (settlement.settle now stdout).wireState ∧
      b.settleLock tid nonce settlement =
        ((b.setActive nonce
          { entry with internalState := settlement.settle now stdout }).acquire tid).goto tid
            (.settlePersist nonce write)) := by
  unfold settleLock
  cases hn : b.active.lookup nonce with
  | none => exact Or.inl ⟨_, rfl⟩
  | some entry =>
    dsimp only
    split
    · exact Or.inr ⟨entry, _, _, _, _, rfl, by assumption, rfl, rfl⟩
    · exact Or.inl ⟨_, rfl⟩

/-- Only a delivered entry can be observed. -/
theorem observeLock_cases (b : Broker) (tid : ℕ) (nonce evidence : String) (now : ℤ) :
    (∃ error, b.observeLock tid nonce evidence now = b.goto tid (.done nonce (some error))) ∨
    (∃ entry stdout at', b.active.lookup nonce = some entry ∧
      entry.internalState = .delivered stdout at' ∧
      b.observeLock tid nonce evidence now =
        ((b.setActive nonce
          { entry with internalState := .effectObserved evidence now }).acquire tid).goto tid
            (.observePersist nonce evidence)) := by
  unfold observeLock
  cases hn : b.active.lookup nonce with
  | none => exact Or.inl ⟨_, rfl⟩
  | some entry =>
    dsimp only
    split
    · exact Or.inr ⟨entry, _, _, rfl, by assumption, rfl⟩
    · exact Or.inl ⟨_, rfl⟩

end Broker

end LlmNotch
