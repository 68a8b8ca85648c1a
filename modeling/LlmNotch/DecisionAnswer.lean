import LlmNotch.DecisionEffects

/-!
# No accepted answer is lost

The path of one answer : `submit_decision` accepts it, wakes the waiter of its nonce, and
`handle_wait` reads it off the map. Three windows break this path. A submission accepted
before `handle_wait` has created its `Notified` future wakes nobody; `select!` may take the
timer branch although the answer is there, and `expire_decision` then throws it away; and a
submission that saw the entry expired removes it even if another has been accepted since.
`Broker.Loses` names these steps, and `accepted_reaches_waiter` shows that in every run
without them an accepted answer is the reply of the waiting hook and is never expired.

Calls for other nonces run freely : they touch nothing of this one.
-/

namespace LlmNotch

/-- The nonce a call works on. -/
def Proc.nonce : Proc → Option String
  | .idle => none
  | .waitCheck p | .waitUpsert p | .waitNotify p | .waitInsert p _ | .waitListen p _
  | .waitSelect p _ _ | .waitExpire p | .waitRestore p _ | .waitFinalize p | .waitReply p
  | .waitRetain p _ | .waitRemove p _ _ | .waitForget p _ | .waitDone p _ => some p.nonce
  | .submitStart n _ | .submitLock n _ _ | .submitFinalize n | .submitRemove n
  | .submitWakeExpired n | .submitPersist n _ _ | .submitWake n _ | .submitReturn n _ => some n
  | .settleLock n _ | .settlePersist n _ | .settleRemove n => some n
  | .observeLock n _ | .observePersist n _ => some n
  | .done n _ => some n

/-- The nonce an event is about. -/
def Event.nonce : Event → String
  | .registered p => p.nonce
  | .accepted n .. => n
  | .replied n _ => n
  | .audited n _ => n

/-- The call wakes the waiter of its nonce next. -/
def Proc.wakes : Proc → Bool
  | .submitWake .. | .submitWakeExpired _ => true
  | _ => false

/-- A `handle_wait` in flight. -/
def Proc.isWait : Proc → Bool
  | .waitCheck _ | .waitUpsert _ | .waitNotify _ | .waitInsert .. | .waitListen ..
  | .waitSelect .. | .waitExpire _ | .waitRestore .. | .waitFinalize _ | .waitReply _
  | .waitRetain .. | .waitRemove .. | .waitForget .. | .waitDone .. => true
  | _ => false

/-- A `submit_decision` in flight, or a call that has returned. -/
def Proc.isSubmit : Proc → Bool
  | .submitStart .. | .submitLock .. | .submitFinalize _ | .submitRemove _
  | .submitWakeExpired _ | .submitPersist .. | .submitWake .. | .submitReturn .. | .done .. => true
  | _ => false

/-- A `handle_wait` that has not put its entry into the map, or a call not made yet. -/
def Proc.early : Proc → Bool
  | .idle | .waitCheck _ | .waitUpsert _ | .waitNotify _ | .waitInsert .. => true
  | _ => false

/-- A `handle_wait` inside `select!`. -/
def Proc.isParked : Proc → Bool
  | .waitSelect .. => true
  | _ => false

/-- A submission of `nonce` that found the entry expired and has not removed it yet. -/
def Proc.late (nonce : String) : Proc → Bool
  | .submitFinalize n | .submitRemove n => n = nonce
  | _ => false

/-- A submission of `nonce` that has already closed the entry it found. -/
def Proc.closes (nonce : String) : Proc → Bool
  | .submitPersist n _ _ | .submitWake n _ | .submitReturn n _ | .submitWakeExpired n => n = nonce
  | _ => false

namespace Broker

variable {cfg : BrokerConfig} {b b' : Broker} {tid : ℕ} {c : Choice} {q q' : Proc}
  {nonce : String}

/-! ## Calls for other nonces -/

theorem nonce_goes (hg : q.Goes b c q') : q'.nonce = q.nonce := by
  cases hg <;> rfl

theorem nonce_logs {e : Event} (hl : q.Logs b e) : q.nonce = some e.nonce := by
  cases hl with
  | audited hw => cases q <;> simp_all [Proc.auditWrite, Proc.nonce, Event.nonce]
  | _ => rfl

theorem nonce_erases (h : q.erases = some nonce) : q.nonce = some nonce := by
  cases q <;> try cases h <;> try rfl
  rename_i p reply retain
  cases retain <;> cases h
  rfl

theorem nonce_alters {entry : ActiveDecision} {s : InternalDeliveryState}
    (h : q.Alters entry nonce s) : q.nonce = some nonce := by
  cases h <;> rfl

theorem waiterEntry_lookup (b : Broker) (n : String) :
    (b.waiterEntry n).1.waiters.lookup n = some (b.waiterEntry n).2 := by
  unfold waiterEntry
  split
  · assumption
  · exact AList.lookup_insert _

/-- The waiter of a nonce is created by its `handle_wait` and removed when it is woken or
the call returns. -/
theorem exec_waiters (nonce : String) (h : b.exec cfg tid c q = some b') :
    b'.waiters.lookup nonce = b.waiters.lookup nonce ∨
      q.nonce = some nonce ∧
        ((∃ p, q = .waitNotify p) ∨ (∃ p reply, q = .waitForget p reply) ∨ q.wakes = true) := by
  have hwake (n : String) : (b.wakeWaiter n).waiters.lookup nonce = b.waiters.lookup nonce ∨
      n = nonce := by
    by_cases hn : n = nonce
    · exact Or.inr hn
    · refine Or.inl ?_
      unfold wakeWaiter
      split
      · rw [Dict.lookup_erase_ite, if_neg (Ne.symm hn)]
      · rfl
  cases q
  case waitNotify p =>
    cases h
    simp only [goto_waiters, waiterEntry]
    split
    · exact Or.inl rfl
    · rw [Dict.lookup_insert_ite]
      split_ifs with hn
      · exact Or.inr ⟨by rw [hn]; rfl, Or.inl ⟨p, rfl⟩⟩
      · exact Or.inl rfl
  case waitForget p reply =>
    cases h
    simp only [goto_waiters, log_waiters, Dict.lookup_erase_ite]
    split_ifs with hn
    · exact Or.inr ⟨by rw [hn]; rfl, Or.inr (Or.inl ⟨p, reply, rfl⟩)⟩
    · exact Or.inl rfl
  case submitWake n verdict =>
    cases h
    exact (hwake n).imp_right fun hn => ⟨by rw [← hn]; rfl, Or.inr (Or.inr rfl)⟩
  case submitWakeExpired n =>
    cases h
    exact (hwake n).imp_right fun hn => ⟨by rw [← hn]; rfl, Or.inr (Or.inr rfl)⟩
  all_goals
    refine Or.inl ?_
    simp only [exec, whenFree, waitCheck, waitExpire, Broker.submitLock, Broker.settleLock,
      Broker.observeLock, Broker.submitReturn] at h
    repeat' split at h
    all_goals simp only [Option.some.injEq, reduceCtorEq] at h
    all_goals subst h; simp

theorem wakeWaiter_notifyCalls (b : Broker) (n : String) (k : ℕ) :
    b.notifyCalls k ≤ (b.wakeWaiter n).notifyCalls k := by
  unfold wakeWaiter
  split
  · rename_i j _
    by_cases hk : k = j
    · subst hk
      simp
    · simp [hk]
  · exact le_rfl

/-- A notify is only ever called more often. -/
theorem exec_notifyCalls (k : ℕ) (h : b.exec cfg tid c q = some b') :
    b.notifyCalls k ≤ b'.notifyCalls k := by
  cases q
  case submitWake n verdict =>
    cases h
    exact wakeWaiter_notifyCalls b n k
  case submitWakeExpired n =>
    cases h
    exact wakeWaiter_notifyCalls b n k
  all_goals
    refine le_of_eq ?_
    simp only [exec, whenFree, waitCheck, waitExpire, waiterEntry, Broker.submitLock,
      Broker.settleLock, Broker.observeLock, Broker.submitReturn] at h
    repeat' split at h
    all_goals simp only [Option.some.injEq, reduceCtorEq] at h
    all_goals subst h; simp

/-- An erasing section leaves no entry. -/
theorem exec_erases (h : b.exec cfg tid c q = some b') (he : q.erases = some nonce) :
    b'.active.lookup nonce = none := by
  cases q with
  | waitExpire p =>
    cases he
    obtain ⟨-, rfl⟩ := whenFree_eq_some.1 h
    rcases b.waitExpire_cases tid p with ⟨_, -, -, hx⟩ | ⟨_, -, -, hx⟩ | ⟨hn, hx⟩ <;> rw [hx]
    · simp
    · simp
    · exact hn
  | waitRemove p reply retain =>
    cases retain <;> cases he
    obtain ⟨-, rfl⟩ := whenFree_eq_some.1 h
    simp
  | submitRemove n | settleRemove n =>
    cases he
    obtain ⟨-, rfl⟩ := whenFree_eq_some.1 h
    simp
  | _ => cases he

/-- A wake-up calls the notify of the waiter. -/
theorem exec_wakes {k : ℕ} (h : b.exec cfg tid c q = some b') (hw : q.wakes = true)
    (hn : q.nonce = some nonce) (hk : b.waiters.lookup nonce = some k) :
    b'.notifyCalls k = b.notifyCalls k + 1 := by
  cases q with
  | submitWake n v | submitWakeExpired n =>
    cases hn
    cases h
    simp [wakeWaiter, hk]
  | _ => cases hw

/-! ## One wait and its submissions -/

/-- The calls of the system : thread `w` runs the only `handle_wait` for `nonce`, other
threads submit decisions for it, and calls for other nonces run freely. -/
def InScope (nonce : String) (w : ℕ) : Act → Prop
  | .spawn tid (.handleWait p) => p.nonce = nonce ↔ tid = w
  | .spawn tid (.submitDecision ..) => tid ≠ w
  | .spawn tid (.confirmDelivery n) | .spawn tid (.failDelivery n _)
  | .spawn tid (.observeEffect n _) => n ≠ nonce ∧ tid ≠ w
  | .exec .. => True

/-- The wait is parked in `select!`. -/
def Parked (b : Broker) (w : ℕ) : Prop :=
  (b.procs w).isParked = true

/-- An answer of `nonce` is stored in the map. -/
def Chosen (b : Broker) (nonce : String) : Prop :=
  ∃ entry, b.active.lookup nonce = some entry ∧ entry.internalState.isChosen = true

/-- The step loses an answer of `nonce` : a submission accepts while the wait of thread `w`
is not parked or while another submission is removing the entry as expired, or the parked
wait takes the timer branch although an answer is stored. -/
def Loses (b : Broker) (nonce : String) (w : ℕ) : Act → Prop
  | .spawn .. => False
  | .exec tid c =>
    match b.procs tid with
    | .submitLock n response now => n = nonce ∧ b.WillAccept nonce response now ∧
      (¬ b.Parked w ∨ ∃ t, (b.procs t).late nonce = true)
    | .waitSelect p _ _ => p.nonce = nonce ∧ c.timer = true ∧ b.Chosen nonce
    | _ => False

/-- The entry of `nonce` is pending. -/
def IsPending (b : Broker) (nonce : String) : Prop :=
  ∃ entry, b.active.lookup nonce = some entry ∧ entry.internalState = .pending

/-- A submission of `nonce` with output `stdout` has returned `Ok`, or is about to. -/
def HasAnswer (b : Broker) (nonce stdout : String) : Prop :=
  (∃ entry r now, .accepted nonce entry r now stdout ∈ b.history) ∨
    ∃ t entry r now, (b.procs t).verdict = some (nonce, .accepted entry r now stdout)

/-- Where the wait stands once `stdout` is the answer of its nonce. -/
def OnItsWay (b : Broker) (nonce stdout : String) : Proc → Prop
  | .waitSelect _ k seen => b.notifyCalls k ≠ seen ∨ b.waiters.lookup nonce = some k ∧
    ∃ t write v, b.procs t = .submitPersist nonce write v ∨ b.procs t = .submitWake nonce v
  | .waitReply _ => True
  | .waitRetain _ reply | .waitForget _ reply | .waitDone _ reply => reply.stdoutJson = stdout
  | .waitRemove _ reply retain => retain = true ∧ reply.stdoutJson = stdout
  | _ => False

/-- The answer `stdout` of `nonce` is stored in the map. -/
def Stores (b : Broker) (nonce stdout : String) : Prop :=
  ∃ entry r at', b.active.lookup nonce = some entry ∧ entry.internalState = .chosen r at' stdout

/-- The answer `stdout` is stored, nobody will expire it, and the wait is on its way to it. -/
structure Secured (b : Broker) (nonce stdout : String) (w : ℕ) : Prop where
  stored : b.Stores nonce stdout
  no_late : ∀ t, (b.procs t).late nonce = false
  not_expired : .audited nonce .expired ∉ b.history
  waiter : b.OnItsWay nonce stdout (b.procs w)

/-- The invariant of one wait and its submissions. -/
structure Tracked (b : Broker) (nonce : String) (w : ℕ) : Prop where
  waiter : b.procs w = .idle ∨ (b.procs w).isWait = true ∧ (b.procs w).nonce = some nonce
  others : ∀ t, t ≠ w → (b.procs t).nonce = some nonce → (b.procs t).isSubmit = true
  writes : ∀ t n write v, b.procs t = .submitPersist n write v → write.state ≠ .expired
  early : (b.procs w).early = true → b.active.lookup nonce = none ∧
    (∀ t, (b.procs t).late nonce = false ∧ (b.procs t).closes nonce = false) ∧
    ∀ e ∈ b.history, e.nonce = nonce → e = .audited nonce .pending
  quiet : b.IsPending nonce → (∀ t, (b.procs t).closes nonce = false) ∧
    (∀ entry r now s, .accepted nonce entry r now s ∉ b.history) ∧
    (.audited nonce .expired ∈ b.history → ∃ t, (b.procs t).late nonce = true)
  restoring : ∀ p e, b.procs w = .waitRestore p e → e.internalState.isTerminal = true
  finalizing : ∀ p, b.procs w = .waitFinalize p → ¬ b.IsPending nonce
  noted : ∀ p k, b.procs w = .waitInsert p k → b.waiters.lookup nonce = some k
  listening : ∀ p k, (b.procs w = .waitListen p k ∨ ∃ seen, b.procs w = .waitSelect p k seen) →
    b.IsPending nonce → b.waiters.lookup nonce = some k
  seen : ∀ p k seen, b.procs w = .waitSelect p k seen → seen ≤ b.notifyCalls k
  answered : ∀ s, b.HasAnswer nonce s → b.Secured nonce s w
  replies : ∀ reply, .replied nonce reply ∈ b.history → ∃ p, b.procs w = .waitDone p reply
  returned : ∀ p reply, b.procs w = .waitDone p reply → .replied nonce reply ∈ b.history

/-! ## Steps of the system -/

namespace Tracked

variable {w : ℕ}

/-- A call for `nonce` is the wait of thread `w`, or a submission of another thread. -/
theorem wait_or_submit (H : Tracked b nonce w) (hq : b.procs tid = q)
    (hn : q.nonce = some nonce) : tid = w ∧ q.isWait = true ∨ tid ≠ w ∧ q.isSubmit = true := by
  subst hq
  by_cases ht : tid = w
  · subst ht
    rcases H.waiter with hi | ⟨hw, -⟩
    · rw [hi] at hn
      cases hn
    · exact Or.inl ⟨rfl, hw⟩
  · exact Or.inr ⟨ht, H.others tid ht hn⟩

/-- Apart from the locked section of a submission, the entry of `nonce` is only erased, or
put into the map by the wait. -/
theorem active_move (H : Tracked b nonce w) (hq : b.procs tid = q)
    (h : b.exec cfg tid c q = some b') (hns : ∀ r now, q ≠ .submitLock nonce r now) :
    b'.active.lookup nonce = b.active.lookup nonce ∨
    q.erases = some nonce ∧ b'.active.lookup nonce = none ∨
    tid = w ∧ (∃ p k, q = .waitInsert p k) ∨
    tid = w ∧ (∃ p e, q = .waitRestore p e ∧ b'.active.lookup nonce = some e) := by
  rcases exec_active nonce h with heq | ⟨-, hc⟩
  · exact Or.inl heq
  refine Or.inr ?_
  rcases hc with hnone | ⟨p, k, rfl, rfl, -⟩ | ⟨p, e, rfl, rfl, he⟩ | ⟨e, s, -, halt, -⟩
  · exact Or.inl hnone
  · obtain ⟨rfl, -⟩ | ⟨-, hs⟩ := H.wait_or_submit hq rfl
    · exact Or.inr (Or.inl ⟨rfl, p, k, rfl⟩)
    · cases hs
  · obtain ⟨rfl, -⟩ | ⟨-, hs⟩ := H.wait_or_submit hq rfl
    · exact Or.inr (Or.inr ⟨rfl, p, e, rfl, he⟩)
    · cases hs
  · obtain ⟨rfl, hw⟩ | ⟨-, hs⟩ := H.wait_or_submit hq (nonce_alters halt)
    · cases halt <;> cases hw
    · cases halt with
      | fail | choose => exact absurd rfl (hns _ _)
      | settle | observe => cases hs

theorem pending_move (H : Tracked b nonce w) (hq : b.procs tid = q)
    (h : b.exec cfg tid c q = some b') (hns : ∀ r now, q ≠ .submitLock nonce r now)
    (hp : b'.IsPending nonce) :
    b.IsPending nonce ∧ q.erases ≠ some nonce ∨ tid = w ∧ ∃ p k, q = .waitInsert p k := by
  obtain ⟨entry, he, hpend⟩ := hp
  have hne : q.erases ≠ some nonce := by
    intro her
    simp [exec_erases h her] at he
  rcases H.active_move hq h hns with heq | ⟨-, hnone⟩ | hins | ⟨rfl, p, e, rfl, hres⟩
  · exact Or.inl ⟨⟨entry, heq ▸ he, hpend⟩, hne⟩
  · simp [hnone] at he
  · exact Or.inr hins
  · obtain rfl := Option.some.inj (hres.symm.trans he)
    have := H.restoring p e hq
    simp [hpend, InternalDeliveryState.isTerminal] at this

/-- Only a submission in its locked section closes an entry. -/
theorem closes_goes (hg : q.Goes b c q') (hns : ∀ r now, q ≠ .submitLock nonce r now)
    (hc : q'.closes nonce = true) : q.closes nonce = true ∨ q.erases = some nonce := by
  cases hg <;> simp_all [Proc.closes, Proc.erases]

theorem late_goes (hg : q.Goes b c q') (hns : ∀ r now, q ≠ .submitLock nonce r now)
    (hc : q'.late nonce = true) : q.late nonce = true := by
  cases hg <;> simp_all [Proc.late]

theorem late_stays (hg : q.Goes b c q') (hl : q.late nonce = true)
    (hne : q.erases ≠ some nonce) : q'.late nonce = true := by
  cases hg <;> simp_all [Proc.late, Proc.erases]

theorem late_of_erases (h : q.erases = some nonce) (hs : q.isSubmit = true) :
    q.late nonce = true := by
  cases q <;> simp_all [Proc.erases, Proc.isSubmit, Proc.late]

theorem not_early_of_erases (h : q.erases = some nonce) : q.early = false := by
  cases q <;> first | rfl | cases h

variable {s : DecisionDeliveryState} {stdout : String} {r : DecisionResponse}

theorem pending_of_early {n : String} (h : q.auditWrite = some (n, s)) (he : q.early = true) :
    s = .pending := by
  cases q <;> simp_all [Proc.auditWrite, Proc.early]

theorem closes_or_late {n : String} (h : q.auditWrite = some (n, s)) (hs : q.isSubmit = true) :
    q.closes n = true ∨ q.late n = true := by
  cases q <;> simp_all [Proc.auditWrite, Proc.isSubmit, Proc.closes, Proc.late]

theorem isSubmit_of_closes (h : q.closes nonce = true) : q.isSubmit = true := by
  cases q <;> simp_all [Proc.closes, Proc.isSubmit]

theorem closes_of_wakes (h : q.wakes = true) (hn : q.nonce = some nonce) :
    q.closes nonce = true := by
  cases q <;> simp_all [Proc.wakes, Proc.closes, Proc.nonce]

/-- Who writes that `nonce` expired : a submission that found it late, or the wait. -/
theorem late_or_finalize (H : Tracked b nonce w) (hq : b.procs tid = q)
    (h : q.auditWrite = some (nonce, .expired)) :
    q = .submitFinalize nonce ∨ tid = w ∧ ∃ p, q = .waitFinalize p := by
  have hn : q.nonce = some nonce := nonce_logs (b := b) (.audited h)
  rcases H.wait_or_submit hq hn with ⟨rfl, hw⟩ | ⟨-, hs⟩
  · cases q <;> simp_all [Proc.auditWrite, Proc.isWait]
  · cases q with
    | submitPersist n write v =>
      refine absurd ?_ (H.writes tid n write v hq)
      simp only [Proc.auditWrite, Option.some.injEq, Prod.mk.injEq] at h
      exact h.2
    | submitFinalize n =>
      cases h
      exact Or.inl rfl
    | _ => simp_all [Proc.auditWrite, Proc.isSubmit]

/-- The wait moves only once it has been called. -/
theorem waiter_nonce (H : Tracked b nonce w) (hg : (b.procs w).Goes b c q') :
    (b.procs w).nonce = some nonce := by
  rcases H.waiter with hi | ⟨-, hn⟩
  · rw [hi] at hg
    cases hg
  · exact hn

theorem isWait_goes (hg : q.Goes b c q') (hw : q.isWait = true) : q'.isWait = true := by
  cases hg <;> first | rfl | cases hw

theorem isSubmit_goes (hg : q.Goes b c q') (hs : q.isSubmit = true) : q'.isSubmit = true := by
  cases hg <;> first | rfl | cases hs

section

variable (H : Tracked b nonce w) (h : b.exec cfg tid c (b.procs tid) = some b')

include H h

theorem waiter_exec :
    b'.procs w = .idle ∨ (b'.procs w).isWait = true ∧ (b'.procs w).nonce = some nonce := by
  obtain ⟨q', hg, hp, -⟩ := exec_goes h
  by_cases ht : w = tid
  · subst ht
    rw [hp, Function.update_self]
    rcases H.waiter with hi | ⟨hw, hn⟩
    · rw [hi] at hg
      cases hg
    · exact Or.inr ⟨isWait_goes hg hw, (nonce_goes hg).trans hn⟩
  · rw [hp, Function.update_of_ne ht]
    exact H.waiter

theorem others_exec (t : ℕ) (ht : t ≠ w) (hn : (b'.procs t).nonce = some nonce) :
    (b'.procs t).isSubmit = true := by
  obtain ⟨q', hg, hp, -⟩ := exec_goes h
  rw [hp] at hn ⊢
  by_cases htt : t = tid
  · subst htt
    rw [Function.update_self] at hn ⊢
    exact isSubmit_goes hg (H.others t ht ((nonce_goes hg).symm.trans hn))
  · rw [Function.update_of_ne htt] at hn ⊢
    exact H.others t ht hn

theorem writes_exec (t : ℕ) (n : String) (write : AuditWrite) (v : Verdict)
    (hw : b'.procs t = .submitPersist n write v) : write.state ≠ .expired := by
  obtain ⟨q', hg, hp, -⟩ := exec_goes h
  rw [hp] at hw
  by_cases htt : t = tid
  · subst htt
    rw [Function.update_self] at hw
    subst hw
    generalize b.procs t = q at hg
    cases hg with
    | fail n r now entry write error hf he hpend hws => simp [hws]
    | accept n r now entry write stdout hf he ha hws => simp [hws]
  · rw [Function.update_of_ne htt] at hw
    exact H.writes t n write v hw

/-- The calls for `nonce` other than the locked section of a submission, while the wait has
not registered : the wait itself, or a submission that has not found an entry. -/
theorem early_exec (hns : ∀ r now, b.procs tid ≠ .submitLock nonce r now)
    (he : (b'.procs w).early = true) :
    b'.active.lookup nonce = none ∧
    (∀ t, (b'.procs t).late nonce = false ∧ (b'.procs t).closes nonce = false) ∧
    ∀ e ∈ b'.history, e.nonce = nonce → e = .audited nonce .pending := by
  obtain ⟨q', hg, hp, -⟩ := exec_goes h
  have hold : (b.procs w).early = true := by
    by_cases ht : w = tid
    · subst ht
      rw [hp, Function.update_self] at he
      generalize b.procs w = q at hg
      cases hg <;> first | rfl | cases he
    · rwa [hp, Function.update_of_ne ht] at he
  obtain ⟨hact, hcalls, hhist⟩ := H.early hold
  refine ⟨?_, fun t => ?_, fun e hm hen => ?_⟩
  · rcases H.active_move rfl h hns with heq | ⟨-, hnone⟩ | ⟨rfl, p, k, hq⟩ | ⟨rfl, p, e, hq, -⟩
    · exact heq.trans hact
    · exact hnone
    · rw [hq] at hg
      cases hg
      simp [hp, Proc.early] at he
    · simp [hq, Proc.early] at hold
  · rw [hp]
    by_cases htt : t = tid
    · subst htt
      rw [Function.update_self]
      obtain ⟨hl, hc⟩ := hcalls t
      refine ⟨Bool.eq_false_iff.2 fun hcon => ?_, Bool.eq_false_iff.2 fun hcon => ?_⟩
      · simp [late_goes hg hns hcon] at hl
      rcases closes_goes hg hns hcon with h1 | h1
      · simp [h1] at hc
      rcases H.wait_or_submit rfl (nonce_erases h1) with ⟨rfl, -⟩ | ⟨-, hs⟩
      · simp [not_early_of_erases h1] at hold
      · simp [late_of_erases h1 hs] at hl
    · rw [Function.update_of_ne htt]
      exact hcalls t
  · rcases exec_history h with hh | ⟨e', hlog, hh⟩
    · exact hhist e (hh ▸ hm) hen
    rw [hh] at hm
    rcases List.mem_cons.1 hm with rfl | hm
    · have hn := nonce_logs hlog
      rw [hen] at hn
      obtain ⟨hl, hc⟩ := hcalls tid
      rcases H.wait_or_submit rfl hn with ⟨rfl, hw⟩ | ⟨-, hs⟩
      · rw [hp, Function.update_self] at he
        generalize b.procs tid = q at *
        cases hlog with
        | registered p k =>
          cases hg
          cases he
        | replied => cases hold
        | refused p reply entry hsome =>
          cases hn
          simp [hact] at hsome
        | accepted => cases hw
        | audited haw =>
          cases hen
          rw [pending_of_early haw hold]
          rfl
      · generalize b.procs tid = q at *
        cases hlog with
        | accepted =>
          cases hn
          simp [Proc.closes] at hc
        | audited haw =>
          cases hen
          rcases closes_or_late haw hs with h1 | h1
          · exact absurd h1 (by simpa [Event.nonce] using hc)
          · exact absurd h1 (by simpa [Event.nonce] using hl)
        | _ => cases hs
    · exact hhist e hm hen

theorem quiet_exec (hns : ∀ r now, b.procs tid ≠ .submitLock nonce r now)
    (hpend : b'.IsPending nonce) :
    (∀ t, (b'.procs t).closes nonce = false) ∧
    (∀ entry r now s, .accepted nonce entry r now s ∉ b'.history) ∧
    (.audited nonce .expired ∈ b'.history → ∃ t, (b'.procs t).late nonce = true) := by
  obtain ⟨q', hg, hp, -⟩ := exec_goes h
  rcases H.pending_move rfl h hns hpend with ⟨hold, her⟩ | ⟨rfl, p, k, hq⟩
  · obtain ⟨hc, hacc, hexp⟩ := H.quiet hold
    refine ⟨fun t => Bool.eq_false_iff.2 fun hcl => ?_, fun entry r now s hm => ?_, fun hm => ?_⟩
    · rw [hp] at hcl
      by_cases htt : t = tid
      · subst htt
        rw [Function.update_self] at hcl
        rcases closes_goes hg hns hcl with h1 | h1
        · simp [hc t] at h1
        · exact her h1
      · rw [Function.update_of_ne htt] at hcl
        simp [hc t] at hcl
    · rcases exec_history h with hh | ⟨e, hlog, hh⟩
      · exact hacc entry r now s (hh ▸ hm)
      rw [hh] at hm
      rcases List.mem_cons.1 hm with rfl | hm
      · have hct := hc tid
        generalize b.procs tid = q at *
        cases hlog
        simp [Proc.closes] at hct
      · exact hacc entry r now s hm
    · have hlate : (.audited nonce .expired ∈ b.history) →
          ∃ t, (b'.procs t).late nonce = true := by
        intro hm
        obtain ⟨t, ht⟩ := hexp hm
        refine ⟨t, ?_⟩
        rw [hp]
        by_cases htt : t = tid
        · subst htt
          rw [Function.update_self]
          exact late_stays hg ht her
        · rwa [Function.update_of_ne htt]
      rcases exec_history h with hh | ⟨e, hlog, hh⟩
      · exact hlate (hh ▸ hm)
      rw [hh] at hm
      rcases List.mem_cons.1 hm with rfl | hm
      · have haw : (b.procs tid).auditWrite = some (nonce, .expired) := by
          generalize b.procs tid = q at *
          cases hlog
          assumption
        rcases H.late_or_finalize rfl haw with hq | ⟨rfl, p, hq⟩
        · refine ⟨tid, ?_⟩
          rw [hq] at hg
          cases hg
          simp [hp, Proc.late]
        · exact absurd hold (H.finalizing p hq)
      · exact hlate hm
  · obtain ⟨-, hcalls, hhist⟩ := H.early (by rw [hq]; rfl)
    rw [hq] at h hg
    cases hg
    obtain ⟨-, rfl⟩ := whenFree_eq_some.1 h
    refine ⟨fun t => ?_, fun entry r now s hm => ?_, fun hm => ?_⟩
    · rw [hp]
      by_cases htt : t = tid
      · subst htt
        rw [Function.update_self]
        rfl
      · rw [Function.update_of_ne htt]
        exact (hcalls t).2
    · rcases List.mem_cons.1 hm with h1 | h1
      · cases h1
      · cases hhist _ h1 rfl
    · rcases List.mem_cons.1 hm with h1 | h1
      · cases h1
      · cases hhist _ h1 rfl

theorem restoring_exec (p : DecisionWaitPayload) (e : ActiveDecision)
    (hw : b'.procs w = .waitRestore p e) : e.internalState.isTerminal = true := by
  obtain ⟨q', hg, hp, -⟩ := exec_goes h
  rw [hp] at hw
  by_cases ht : w = tid
  · subst ht
    rw [Function.update_self] at hw
    subst hw
    generalize b.procs w = q at hg
    cases hg
    assumption
  · rw [Function.update_of_ne ht] at hw
    exact H.restoring p e hw

theorem finalizing_exec (hns : ∀ r now, b.procs tid ≠ .submitLock nonce r now)
    (p : DecisionWaitPayload) (hw : b'.procs w = .waitFinalize p) : ¬ b'.IsPending nonce := by
  intro hpend
  obtain ⟨q', hg, hp, -⟩ := exec_goes h
  rw [hp] at hw
  rcases H.pending_move rfl h hns hpend with ⟨hold, her⟩ | ⟨rfl, p', k, hq⟩
  · by_cases ht : w = tid
    · subst ht
      have hn := H.waiter_nonce hg
      rw [Function.update_self] at hw
      subst hw
      generalize b.procs w = q at *
      cases hg
      exact her hn
    · rw [Function.update_of_ne ht] at hw
      exact H.finalizing p hw hold
  · rw [hq] at hg
    cases hg
    simp at hw

/-- Another thread that does not wake leaves the waiter of `nonce` registered. -/
theorem waiters_exec (ht : tid ≠ w) (hc : (b.procs tid).closes nonce = false) {k : ℕ}
    (hk : b.waiters.lookup nonce = some k) : b'.waiters.lookup nonce = some k := by
  rcases exec_waiters nonce h with heq | ⟨hn, hcase⟩
  · exact heq.trans hk
  rcases H.wait_or_submit rfl hn with ⟨rfl, -⟩ | ⟨-, hs⟩
  · exact absurd rfl ht
  rcases hcase with ⟨p, hq⟩ | ⟨p, reply, hq⟩ | hwk
  · rw [hq] at hs
    cases hs
  · rw [hq] at hs
    cases hs
  · simp [closes_of_wakes hwk hn] at hc

theorem noted_exec (p : DecisionWaitPayload) (k : ℕ) (hw : b'.procs w = .waitInsert p k) :
    b'.waiters.lookup nonce = some k := by
  obtain ⟨q', hg, hp, -⟩ := exec_goes h
  rw [hp] at hw
  by_cases ht : w = tid
  · subst ht
    have hn := H.waiter_nonce hg
    rw [Function.update_self] at hw
    subst hw
    generalize b.procs w = q at *
    cases hg
    cases hn
    cases h
    exact b.waiterEntry_lookup p.nonce
  · rw [Function.update_of_ne ht] at hw
    have hearly := H.early (by rw [hw]; rfl)
    exact H.waiters_exec h (Ne.symm ht) (hearly.2.1 tid).2 (H.noted p k hw)

theorem listening_exec (hns : ∀ r now, b.procs tid ≠ .submitLock nonce r now)
    (p : DecisionWaitPayload) (k : ℕ)
    (hw : b'.procs w = .waitListen p k ∨ ∃ seen, b'.procs w = .waitSelect p k seen)
    (hpend : b'.IsPending nonce) : b'.waiters.lookup nonce = some k := by
  obtain ⟨q', hg, hp, -⟩ := exec_goes h
  rw [hp] at hw
  by_cases ht : w = tid
  · subst ht
    rw [Function.update_self] at hw
    rcases exec_waiters nonce h with heq | ⟨hn, hc⟩
    · rw [heq]
      rcases H.pending_move rfl h hns hpend with ⟨hold, -⟩ | ⟨-, p', k', hq⟩
      · rcases hw with rfl | ⟨seen, rfl⟩
        · generalize hq : b.procs w = q at *
          cases hg
          exact H.noted p k hq
        · generalize hq : b.procs w = q at *
          cases hg
          exact H.listening p k (Or.inl hq) hold
      · rw [hq] at hg
        cases hg
        rcases hw with hw | ⟨seen, hw⟩ <;> cases hw
        exact H.noted p k hq
    · rcases hc with ⟨p', hq⟩ | ⟨p', reply, hq⟩ | hwk
      · rw [hq] at hg
        cases hg
        rcases hw with hw | ⟨seen, hw⟩ <;> cases hw
      · rw [hq] at hg
        cases hg
        rcases hw with hw | ⟨seen, hw⟩ <;> cases hw
      · have hs := isSubmit_of_closes (closes_of_wakes hwk hn)
        rcases H.wait_or_submit rfl hn with ⟨-, hwt⟩ | ⟨hne, -⟩
        · generalize b.procs w = q at *
          cases q <;> simp_all [Proc.isSubmit, Proc.isWait]
        · exact absurd rfl hne
  · rw [Function.update_of_ne ht] at hw
    rcases H.pending_move rfl h hns hpend with ⟨hold, -⟩ | ⟨rfl, -⟩
    · exact H.waiters_exec h (Ne.symm ht) ((H.quiet hold).1 tid) (H.listening p k hw hold)
    · exact absurd rfl ht

theorem seen_exec (p : DecisionWaitPayload) (k seen : ℕ) (hw : b'.procs w = .waitSelect p k seen) :
    seen ≤ b'.notifyCalls k := by
  obtain ⟨q', hg, hp, -⟩ := exec_goes h
  rw [hp] at hw
  by_cases ht : w = tid
  · subst ht
    rw [Function.update_self] at hw
    subst hw
    generalize b.procs w = q at *
    cases hg
    exact exec_notifyCalls k h
  · rw [Function.update_of_ne ht] at hw
    exact (H.seen p k seen hw).trans (exec_notifyCalls k h)

theorem replies_exec (reply : DecisionReplyPayload) (hm : .replied nonce reply ∈ b'.history) :
    ∃ p, b'.procs w = .waitDone p reply := by
  obtain ⟨q', hg, hp, -⟩ := exec_goes h
  have hkeep : .replied nonce reply ∈ b.history → ∃ p, b'.procs w = .waitDone p reply := by
    intro hm
    obtain ⟨p, hd⟩ := H.replies reply hm
    have ht : w ≠ tid := by
      rintro rfl
      rw [hd] at hg
      cases hg
    exact ⟨p, by rw [hp, Function.update_of_ne ht, hd]⟩
  rcases exec_history h with hh | ⟨e, hlog, hh⟩
  · exact hkeep (hh ▸ hm)
  rw [hh] at hm
  rcases List.mem_cons.1 hm with rfl | hm
  · rcases H.wait_or_submit rfl (nonce_logs hlog) with ⟨rfl, -⟩ | ⟨-, hs⟩
    · generalize hq : b.procs tid = q at *
      cases hlog with
      | replied p =>
        cases hg
        exact ⟨p, by rw [hp, Function.update_self]⟩
      | refused p reply entry he =>
        have := (H.early (by rw [hq]; rfl)).1
        simp [this] at he
    · generalize b.procs tid = q at *
      cases hlog <;> cases hs
  · exact hkeep hm

theorem returned_exec (p : DecisionWaitPayload) (reply : DecisionReplyPayload)
    (hw : b'.procs w = .waitDone p reply) : .replied nonce reply ∈ b'.history := by
  obtain ⟨q', hg, hp, -⟩ := exec_goes h
  rw [hp] at hw
  by_cases ht : w = tid
  · subst ht
    have hn := H.waiter_nonce hg
    rw [Function.update_self] at hw
    subst hw
    generalize hq : b.procs w = q at *
    cases hg with
    | refuse p reply entry he =>
      have hnone := (H.early (by rw [hq]; rfl)).1
      cases hn
      simp [hnone] at he
    | forget p reply =>
      cases hn
      cases h
      exact List.mem_cons_self
  · rw [Function.update_of_ne ht] at hw
    have hm := H.returned p reply hw
    rcases exec_history h with hh | ⟨_, -, hh⟩ <;> rw [hh]
    · exact hm
    · exact List.mem_cons_of_mem _ hm

end

/-- Apart from the locked section of a submission, no answer appears. -/
theorem hasAnswer_exec (h : b.exec cfg tid c (b.procs tid) = some b')
    (hns : ∀ r now, b.procs tid ≠ .submitLock nonce r now) (ha : b'.HasAnswer nonce stdout) :
    b.HasAnswer nonce stdout := by
  obtain ⟨q', hg, hp, -⟩ := exec_goes h
  rcases ha with ⟨entry, r, now, hm⟩ | ⟨t, entry, r, now, hv⟩
  · rcases exec_history h with hh | ⟨e, hlog, hh⟩
    · exact Or.inl ⟨entry, r, now, hh ▸ hm⟩
    rw [hh] at hm
    rcases List.mem_cons.1 hm with rfl | hm
    · refine Or.inr ⟨tid, entry, r, now, ?_⟩
      generalize b.procs tid = q at *
      cases hlog
      rfl
    · exact Or.inl ⟨entry, r, now, hm⟩
  · rw [hp] at hv
    by_cases htt : t = tid
    · subst htt
      rw [Function.update_self] at hv
      refine Or.inr ⟨t, entry, r, now, ?_⟩
      generalize b.procs t = q at *
      cases hg with
      | accept n =>
        cases hv
        exact absurd rfl (hns _ _)
      | wake | leave => exact hv
      | _ => cases hv
    · rw [Function.update_of_ne htt] at hv
      exact Or.inr ⟨t, entry, r, now, hv⟩

/-- The wait moves on to a stored answer. -/
theorem onItsWay_wait (H : Tracked b nonce w) (hs : b.Secured nonce stdout w)
    (hloss : ¬ b.Loses nonce w (.exec w c)) (h : b.exec cfg w c (b.procs w) = some b') :
    b'.OnItsWay nonce stdout (b'.procs w) := by
  obtain ⟨q', hg, hp, -⟩ := exec_goes h
  obtain ⟨⟨entry, r, at', he, hst⟩, -, -, hway⟩ := hs
  have hn := H.waiter_nonce hg
  rw [hp, Function.update_self]
  generalize hq : b.procs w = q at *
  cases hg with
  | timer p k seen ht =>
    cases hn
    refine absurd ?_ hloss
    simp only [Loses, hq]
    exact ⟨trivial, ht, entry, he, by rw [hst]; rfl⟩
  | woken => trivial
  | reply p hf =>
    cases hn
    simp [OnItsWay, finalReply, he, replyForActive, hst]
  | retain p reply hf =>
    cases hn
    refine ⟨?_, hway⟩
    simp [retainActive, he, hst, InternalDeliveryState.isChosen]
  | remove p reply retain => exact hway.2
  | forget p reply => exact hway
  | _ => exact hway.elim

/-- Another thread leaves the wait on its way. -/
theorem onItsWay_other (H : Tracked b nonce w) (ht : w ≠ tid) (hs : b.Secured nonce stdout w)
    (h : b.exec cfg tid c (b.procs tid) = some b') : b'.OnItsWay nonce stdout (b'.procs w) := by
  obtain ⟨q', hg, hp, -⟩ := exec_goes h
  have hway := hs.waiter
  rw [hp, Function.update_of_ne ht]
  cases hq : b.procs w with
  | waitSelect p k seen =>
    rw [hq] at hway
    have hle := H.seen p k seen hq
    have hmono := exec_notifyCalls k h
    rcases hway with hne | ⟨hk, t, write, v, hcall⟩
    · exact Or.inl (by omega)
    by_cases hwk : (b.procs tid).wakes = true ∧ (b.procs tid).nonce = some nonce
    · have := exec_wakes h hwk.1 hwk.2 hk
      exact Or.inl (by omega)
    refine Or.inr ⟨?_, ?_⟩
    · rcases exec_waiters nonce h with heq | ⟨hn, hcase⟩
      · exact heq.trans hk
      rcases H.wait_or_submit rfl hn with ⟨rfl, -⟩ | ⟨-, hsub⟩
      · exact absurd rfl ht
      rcases hcase with ⟨p', hq'⟩ | ⟨p', reply, hq'⟩ | hwk'
      · rw [hq'] at hsub
        cases hsub
      · rw [hq'] at hsub
        cases hsub
      · exact absurd ⟨hwk', hn⟩ hwk
    · by_cases htt : t = tid
      · subst htt
        rcases hcall with hcall | hcall
        · rw [hcall] at hg
          cases hg
          exact ⟨t, write, v, Or.inr (by rw [hp, Function.update_self])⟩
        · refine absurd ?_ hwk
          rw [hcall]
          exact ⟨rfl, rfl⟩
      · exact ⟨t, write, v, by rwa [hp, Function.update_of_ne htt]⟩
  | waitReply | waitRetain | waitRemove | waitForget | waitDone =>
    rw [hq] at hway
    exact hway
  | _ =>
    rw [hq] at hway
    exact hway.elim

theorem not_onItsWay_of_erases (h : q.erases = some nonce) : ¬ b.OnItsWay nonce stdout q := by
  intro hway
  cases q with
  | waitRemove p reply retain =>
    obtain rfl := hway.1
    cases h
  | waitExpire | submitRemove | settleRemove => exact hway
  | _ => cases h

theorem secured_exec (H : Tracked b nonce w) (hs : b.Secured nonce stdout w)
    (hloss : ¬ b.Loses nonce w (.exec tid c)) (h : b.exec cfg tid c (b.procs tid) = some b')
    (hns : ∀ r now, b.procs tid ≠ .submitLock nonce r now) : b'.Secured nonce stdout w := by
  obtain ⟨q', hg, hp, -⟩ := exec_goes h
  have hway := hs.waiter
  refine ⟨?_, fun t => Bool.eq_false_iff.2 fun hl => ?_, fun hm => ?_, ?_⟩
  · obtain ⟨entry, r, at', he, hst⟩ := hs.stored
    refine ⟨entry, r, at', ?_, hst⟩
    rcases H.active_move rfl h hns with heq | ⟨her, -⟩ | ⟨rfl, p, k, hq⟩ | ⟨rfl, p, e, hq, -⟩
    · exact heq.trans he
    · rcases H.wait_or_submit rfl (nonce_erases her) with ⟨rfl, -⟩ | ⟨-, hsub⟩
      · exact absurd hway (not_onItsWay_of_erases her)
      · have := hs.no_late tid
        simp [late_of_erases her hsub] at this
    · rw [hq] at hway
      exact hway.elim
    · rw [hq] at hway
      exact hway.elim
  · rw [hp] at hl
    by_cases htt : t = tid
    · subst htt
      rw [Function.update_self] at hl
      have := late_goes hg hns hl
      simp [hs.no_late t] at this
    · rw [Function.update_of_ne htt] at hl
      simp [hs.no_late t] at hl
  · rcases exec_history h with hh | ⟨e, hlog, hh⟩
    · exact hs.not_expired (hh ▸ hm)
    rw [hh] at hm
    rcases List.mem_cons.1 hm with rfl | hm
    · have haw : (b.procs tid).auditWrite = some (nonce, .expired) := by
        generalize b.procs tid = q at *
        cases hlog
        assumption
      rcases H.late_or_finalize rfl haw with hq | ⟨rfl, p, hq⟩
      · have := hs.no_late tid
        simp [hq, Proc.late] at this
      · rw [hq] at hway
        exact hway
    · exact hs.not_expired hm
  · by_cases ht : w = tid
    · subst ht
      exact H.onItsWay_wait hs hloss h
    · exact H.onItsWay_other ht hs h

/-- Every section but the locked one of a submission of `nonce` keeps the invariant. -/
theorem exec_rest (H : Tracked b nonce w) (hloss : ¬ b.Loses nonce w (.exec tid c))
    (h : b.exec cfg tid c (b.procs tid) = some b')
    (hns : ∀ r now, b.procs tid ≠ .submitLock nonce r now) : Tracked b' nonce w where
  waiter := H.waiter_exec h
  others := H.others_exec h
  writes := H.writes_exec h
  early := H.early_exec h hns
  quiet := H.quiet_exec h hns
  restoring := H.restoring_exec h
  finalizing := H.finalizing_exec h hns
  noted := H.noted_exec h
  listening := H.listening_exec h hns
  seen := H.seen_exec h
  answered s ha := H.secured_exec (H.answered s (hasAnswer_exec h hns ha)) hloss h hns
  replies := H.replies_exec h
  returned := H.returned_exec h

/-- A pending nonce has no answer. -/
theorem no_answer (H : Tracked b nonce w) (hp : b.IsPending nonce) :
    ¬ b.HasAnswer nonce stdout := by
  intro ha
  obtain ⟨entry, he, hpend⟩ := hp
  obtain ⟨entry', r, at', he', hst⟩ := (H.answered stdout ha).stored
  obtain rfl := Option.some.inj (he.symm.trans he')
  rw [hst] at hpend
  cases hpend

/-- A step of another thread than the wait that records nothing and wakes nobody, given what
it does to the entry and to the answer of `nonce`. -/
theorem submitted (H : Tracked b nonce w) (ht : tid ≠ w)
    (hp : b'.procs = Function.update b.procs tid q') (hwt : b'.waiters = b.waiters)
    (hnc : b'.notifyCalls = b.notifyCalls) (hh : b'.history = b.history)
    (hsub : q'.nonce = some nonce → q'.isSubmit = true)
    (hwrites : ∀ n write v, q' = .submitPersist n write v → write.state ≠ .expired)
    (hearly : (b.procs w).early = true → b'.active.lookup nonce = none ∧
      q'.late nonce = false ∧ q'.closes nonce = false)
    (hpend : b'.IsPending nonce → b.IsPending nonce ∧ q'.closes nonce = false)
    (hlate : (b.procs tid).late nonce = false)
    (hans : ∀ s, b'.HasAnswer nonce s → b'.Secured nonce s w) : Tracked b' nonce w := by
  have hpw : b'.procs w = b.procs w := by rw [hp, Function.update_of_ne (Ne.symm ht)]
  refine
    { waiter := by rw [hpw]; exact H.waiter
      others := fun t htw hn => ?_
      writes := fun t n write v hw => ?_
      early := fun he => ?_
      quiet := fun hpn => ?_
      restoring := by rw [hpw]; exact H.restoring
      finalizing := fun p hw hpn => H.finalizing p (hpw ▸ hw) (hpend hpn).1
      noted := by rw [hpw, hwt]; exact H.noted
      listening := fun p k hw hpn => by
        rw [hwt]
        exact H.listening p k (hpw ▸ hw) (hpend hpn).1
      seen := by rw [hpw, hnc]; exact H.seen
      answered := hans
      replies := by rw [hpw, hh]; exact H.replies
      returned := by rw [hpw, hh]; exact H.returned }
  · rw [hp] at hn ⊢
    by_cases htt : t = tid
    · subst htt
      rw [Function.update_self] at hn ⊢
      exact hsub hn
    · rw [Function.update_of_ne htt] at hn ⊢
      exact H.others t htw hn
  · rw [hp] at hw
    by_cases htt : t = tid
    · subst htt
      rw [Function.update_self] at hw
      exact hwrites n write v hw
    · rw [Function.update_of_ne htt] at hw
      exact H.writes t n write v hw
  · rw [hpw] at he
    obtain ⟨-, hcalls, hhist⟩ := H.early he
    obtain ⟨hact, hq'⟩ := hearly he
    refine ⟨hact, fun t => ?_, hh ▸ hhist⟩
    rw [hp]
    by_cases htt : t = tid
    · subst htt
      rwa [Function.update_self]
    · rw [Function.update_of_ne htt]
      exact hcalls t
  · obtain ⟨hold, hq'⟩ := hpend hpn
    obtain ⟨hc, hacc, hexp⟩ := H.quiet hold
    refine ⟨fun t => ?_, hh ▸ hacc, fun hm => ?_⟩
    · rw [hp]
      by_cases htt : t = tid
      · subst htt
        rwa [Function.update_self]
      · rw [Function.update_of_ne htt]
        exact hc t
    · obtain ⟨t, hl⟩ := hexp (hh ▸ hm)
      have htt : t ≠ tid := by
        rintro rfl
        simp [hlate] at hl
      exact ⟨t, by rwa [hp, Function.update_of_ne htt]⟩

/-- A call that is not about to wake the wait may go anywhere. -/
theorem secured_goto (hs : b.Secured nonce stdout w) (ht : tid ≠ w)
    (hq : (b.procs tid).closes nonce = false) (hl : q'.late nonce = false) :
    (b.goto tid q').Secured nonce stdout w := by
  refine ⟨hs.stored, fun t => ?_, hs.not_expired, ?_⟩
  · by_cases htt : t = tid
    · subst htt
      simpa using hl
    · simpa [htt] using hs.no_late t
  · have hway := hs.waiter
    rw [goto_procs, Function.update_of_ne (Ne.symm ht)]
    cases hqw : b.procs w with
    | waitSelect p k seen =>
      rw [hqw] at hway
      refine hway.imp_right fun ⟨hk, t, write, v, hc⟩ => ⟨hk, t, write, v, ?_⟩
      have htt : t ≠ tid := by
        rintro rfl
        rcases hc with hc | hc <;> simp [hc, Proc.closes] at hq
      simpa [htt] using hc
    | waitReply | waitRetain | waitRemove | waitForget | waitDone =>
      rw [hqw] at hway
      exact hway
    | _ =>
      rw [hqw] at hway
      exact hway.elim

theorem hasAnswer_update (ha : b'.HasAnswer nonce stdout)
    (hp : b'.procs = Function.update b.procs tid q') (hh : b'.history = b.history)
    (hv : ∀ e r now, q'.verdict ≠ some (nonce, .accepted e r now stdout)) :
    b.HasAnswer nonce stdout := by
  rcases ha with ⟨entry, r, now, hm⟩ | ⟨t, entry, r, now, hvt⟩
  · exact Or.inl ⟨entry, r, now, hh ▸ hm⟩
  · rw [hp] at hvt
    by_cases htt : t = tid
    · subst htt
      rw [Function.update_self] at hvt
      exact absurd hvt (hv entry r now)
    · rw [Function.update_of_ne htt] at hvt
      exact Or.inr ⟨t, entry, r, now, hvt⟩

section

variable (H : Tracked b nonce w)

include H

/-- The answer a parked wait will be woken for. -/
theorem secured_accept (ht : tid ≠ w) {entry : ActiveDecision} {now : ℤ} {write : AuditWrite}
    {v : Verdict} (hpend : b.IsPending nonce) (hpark : b.Parked w)
    (hlate : ∀ t, (b.procs t).late nonce = false) :
    (((b.setActive nonce { entry with internalState := .chosen r now stdout }).acquire tid).goto
      tid (.submitPersist nonce write v)).Secured nonce stdout w := by
  obtain ⟨-, -, hexp⟩ := H.quiet hpend
  refine ⟨⟨_, r, now, AList.lookup_insert _, rfl⟩, fun t => ?_, fun hm => ?_, ?_⟩
  · by_cases htt : t = tid
    · subst htt
      simp [Proc.late]
    · simpa [htt] using hlate t
  · obtain ⟨t, hl⟩ := hexp hm
    simp [hlate t] at hl
  · obtain ⟨p, k, seen, hq⟩ : ∃ p k seen, b.procs w = .waitSelect p k seen := by
      unfold Parked at hpark
      cases hq : b.procs w <;> simp [hq, Proc.isParked] at hpark
      exact ⟨_, _, _, rfl⟩
    rw [goto_procs, Function.update_of_ne (Ne.symm ht), acquire_procs, setActive_procs, hq]
    exact Or.inr ⟨H.listening p k (Or.inr ⟨seen, hq⟩) hpend, tid, write, v, Or.inl (by simp)⟩

theorem submitLock {now : ℤ} (hq : b.procs tid = .submitLock nonce r now)
    (hloss : ¬ b.Loses nonce w (.exec tid c)) : Tracked (b.submitLock tid nonce r now) nonce w := by
  obtain ⟨ht, -⟩ : tid ≠ w ∧ _ := by
    rcases H.wait_or_submit hq rfl with ⟨-, hw⟩ | hs
    · cases hw
    · exact hs
  have hlate : (b.procs tid).late nonce = false := by rw [hq]; rfl
  have hearly {entry : ActiveDecision} (he : b.active.lookup nonce = some entry) :
      (b.procs w).early ≠ true := by
    intro h
    simp [(H.early h).1] at he
  rcases b.submitLock_cases tid nonce r now with
    ⟨error, hx⟩ | ⟨entry, he, hpend, hx⟩ | ⟨entry, detail, write, error, he, hpend, hw, hx⟩ |
      ⟨entry, stdout, write, he, ha, hw, hx⟩ <;> rw [hx]
  · refine H.submitted ht rfl rfl rfl rfl (fun _ => rfl) (by simp)
      (fun h => ⟨(H.early h).1, rfl, rfl⟩) (fun h => ⟨h, rfl⟩) hlate fun s has => ?_
    have hold : b.HasAnswer nonce s := hasAnswer_update has rfl rfl (by simp [Proc.verdict])
    exact secured_goto (H.answered s hold) ht (by rw [hq]; rfl) rfl
  · refine H.submitted ht rfl rfl rfl rfl (fun _ => rfl) (by simp) (fun h => absurd h (hearly he))
      (fun h => ⟨h, rfl⟩) hlate fun s has => ?_
    have hold : b.HasAnswer nonce s := hasAnswer_update has rfl rfl (by simp [Proc.verdict])
    exact absurd hold (H.no_answer ⟨entry, he, hpend⟩)
  · refine H.submitted ht rfl rfl rfl rfl (fun _ => rfl) ?_ (fun h => absurd h (hearly he))
      (fun h => ?_) hlate fun s has => ?_
    · rintro n w' v heq
      cases heq
      simp [hw]
    · obtain ⟨e, hsome, hp⟩ := h
      obtain rfl := Option.some.inj ((AList.lookup_insert _).symm.trans hsome)
      cases hp
    · have hold : b.HasAnswer nonce s := hasAnswer_update has rfl rfl (by simp [Proc.verdict])
      exact absurd hold (H.no_answer ⟨entry, he, hpend⟩)
  · have hpend : b.IsPending nonce := ⟨entry, he, ha.pending⟩
    have hsafe : b.Parked w ∧ ∀ t, (b.procs t).late nonce = false := by
      have hwill : b.WillAccept nonce r now := ⟨entry, stdout, he, checkSubmit_of_acceptable ha⟩
      simpa [Loses, hq, hwill] using hloss
    refine H.submitted ht rfl rfl rfl rfl (fun _ => rfl) ?_ (fun h => absurd h (hearly he))
      (fun h => ?_) hlate fun s has => ?_
    · rintro n w' v heq
      cases heq
      simp [hw]
    · obtain ⟨e, hsome, hp⟩ := h
      obtain rfl := Option.some.inj ((AList.lookup_insert _).symm.trans hsome)
      cases hp
    · by_cases hss : s = stdout
      · subst hss
        exact H.secured_accept ht hpend hsafe.1 hsafe.2
      · have hold : b.HasAnswer nonce s := by
          refine hasAnswer_update has rfl rfl fun e r' now' hv => ?_
          cases hv
          exact hss rfl
        exact absurd hold (H.no_answer hpend)

theorem exec (hloss : ¬ b.Loses nonce w (.exec tid c))
    (h : b.exec cfg tid c (b.procs tid) = some b') : Tracked b' nonce w := by
  by_cases hs : ∃ r now, b.procs tid = .submitLock nonce r now
  · obtain ⟨r, now, hq⟩ := hs
    rw [hq] at h
    obtain ⟨-, rfl⟩ := whenFree_eq_some.1 h
    exact H.submitLock hq hloss
  · push Not at hs
    exact H.exec_rest hloss h hs

theorem spawn_other {call : Call} (ht : tid ≠ w) (hidle : b.procs tid = .idle)
    (hscope : InScope nonce w (.spawn tid call)) : Tracked (b.goto tid call.start) nonce w := by
  have hstart : call.start.late nonce = false ∧ call.start.closes nonce = false := by
    cases call <;> exact ⟨rfl, rfl⟩
  refine H.submitted ht rfl rfl rfl rfl (fun hn => ?_) (fun n write v h => ?_)
    (fun h => ⟨(H.early h).1, hstart⟩) (fun h => ⟨h, hstart.2⟩) (by rw [hidle]; rfl) fun s has => ?_
  · cases call with
    | handleWait p => exact absurd (hscope.1 (Option.some.inj hn)) ht
    | submitDecision n r => rfl
    | confirmDelivery n => exact absurd (Option.some.inj hn) hscope.1
    | failDelivery n detail => exact absurd (Option.some.inj hn) hscope.1
    | observeEffect n evidence => exact absurd (Option.some.inj hn) hscope.1
  · cases call <;> cases h
  · have hold : b.HasAnswer nonce s :=
      hasAnswer_update has rfl rfl (by simp [call.start_verdict])
    exact secured_goto (H.answered s hold) ht (by rw [hidle]; rfl) hstart.1

theorem spawn_wait {p : DecisionWaitPayload} (hidle : b.procs w = .idle) (hn : p.nonce = nonce) :
    Tracked (b.goto w (.waitCheck p)) nonce w := by
  obtain ⟨hact, hcalls, hhist⟩ := H.early (by rw [hidle]; rfl)
  have hpend : ¬ (b.goto w (.waitCheck p)).IsPending nonce := by
    rintro ⟨e, he, -⟩
    simp [hact] at he
  refine
    { waiter := Or.inr ?_
      others := fun t ht htn => ?_
      writes := fun t n write v hw => ?_
      early := fun _ => ⟨hact, fun t => ?_, hhist⟩
      quiet := fun h => absurd h hpend
      restoring := by simp
      finalizing := fun _ _ => hpend
      noted := by simp
      listening := fun _ _ _ h => absurd h hpend
      seen := by simp
      answered := fun s has => ?_
      replies := fun reply hm => by cases hhist _ hm rfl
      returned := by simp }
  · rw [goto_procs, Function.update_self]
    exact ⟨rfl, by rw [← hn]; rfl⟩
  · rw [goto_procs, Function.update_of_ne ht] at htn ⊢
    exact H.others t ht htn
  · by_cases ht : t = w
    · subst ht
      simp at hw
    · exact H.writes t n write v (by simpa [ht] using hw)
  · by_cases ht : t = w
    · subst ht
      simp [Proc.late, Proc.closes]
    · simpa [ht] using hcalls t
  · have hold : b.HasAnswer nonce s := hasAnswer_update has rfl rfl (by simp [Proc.verdict])
    obtain ⟨_, _, _, he, -⟩ := (H.answered s hold).stored
    simp [hact] at he

theorem step {act : Act} (hscope : InScope nonce w act) (hloss : ¬ b.Loses nonce w act)
    (h : b.step cfg act = some b') : Tracked b' nonce w := by
  cases act with
  | exec tid c => exact H.exec hloss h
  | spawn tid call =>
    simp only [Broker.step] at h
    split at h
    · rename_i hidle
      cases h
      by_cases ht : tid = w
      · subst ht
        cases call with
        | handleWait p => exact H.spawn_wait hidle (hscope.2 rfl)
        | submitDecision n r => exact absurd rfl hscope
        | confirmDelivery n => exact absurd rfl hscope.2
        | failDelivery n detail => exact absurd rfl hscope.2
        | observeEffect n evidence => exact absurd rfl hscope.2
      · exact H.spawn_other ht hidle hscope
    · cases h

end

end Tracked

theorem tracked_initial (nonce : String) (w : ℕ) : Tracked initial nonce w where
  waiter := Or.inl rfl
  others t _ hn := by cases hn
  writes t n write v hw := by cases hw
  early _ := ⟨rfl, fun t => ⟨rfl, rfl⟩, by simp [initial]⟩
  quiet := fun ⟨e, he, _⟩ => by simp [initial] at he
  restoring p e hw := by cases hw
  finalizing p hw := by cases hw
  noted p k hw := by cases hw
  listening p k hw := by rcases hw with hw | ⟨_, hw⟩ <;> cases hw
  seen p k seen hw := by cases hw
  answered s ha := by
    rcases ha with ⟨_, _, _, hm⟩ | ⟨t, _, _, _, hv⟩
    · simp [initial] at hm
    · cases hv
  replies reply hm := by simp [initial] at hm
  returned p reply hw := by cases hw

end Broker

end LlmNotch
