import LlmNotch.DecisionEffects

/-!
# A decision is answered once

`submit_decision` refuses an entry that is no longer pending, so a nonce is answered once
as long as its entry stays what it was. `handle_wait` breaks this : a second registration of
a nonce puts a pending entry into the map and sets the audit row back to pending, whatever
the nonce went through before. `Broker.Reopens` names the steps that do so, and
`decided_once` shows that in every run without them a nonce is answered at most once and a
final audit row never becomes pending again.

`answers` counts the answers of a nonce, returned or about to be returned. It only grows
when a submission accepts, which needs a pending entry; the invariant is that the count is 0
while the entry of the nonce is pending.
-/

namespace LlmNotch

/-- The states a decision ends in. -/
def DecisionDeliveryState.isFinal : DecisionDeliveryState → Bool
  | .pending => false
  | .delivered | .effectObserved | .expired | .failed => true

/-- A submission of `nonce` that returned `Ok`. -/
def Event.accepts (nonce : String) : Event → Bool
  | .accepted n .. => n = nonce
  | _ => false

/-- A submission that will return `Ok` for `nonce`. -/
def Proc.accepting (nonce : String) (q : Proc) : Bool :=
  match q.verdict with
  | some (n, .accepted ..) => n = nonce
  | _ => false

namespace Broker

/-- The submissions of `nonce` that returned `Ok`. -/
def acceptedCount (b : Broker) (nonce : String) : ℕ :=
  b.history.countP (Event.accepts nonce)

/-- One if the submission that keeps the lock will return `Ok` for `nonce`. -/
def inFlight (b : Broker) (nonce : String) : ℕ :=
  match b.activeLock with
  | some tid => ((b.procs tid).accepting nonce).toNat
  | none => 0

def answers (b : Broker) (nonce : String) : ℕ :=
  b.acceptedCount nonce + b.inFlight nonce

variable {cfg : BrokerConfig} {b b' : Broker} {tid : ℕ} {c : Choice} {q q' : Proc}
  {nonce : String}

/-! ## Counting answers -/

/-- Only the locked section and the return of a submission change its result. -/
theorem verdict_goes (hg : q.Goes b c q') (hl : ∀ n r now, q ≠ .submitLock n r now)
    (hr : ∀ n v, q ≠ .submitReturn n v) : q'.verdict = q.verdict := by
  cases hg with
  | fail n r now | accept n r now => exact absurd rfl (hl n r now)
  | finish n v => exact absurd rfl (hr n v)
  | _ => rfl

theorem accepting_congr (h : q'.verdict = q.verdict) : q'.accepting nonce = q.accepting nonce := by
  rw [Proc.accepting, Proc.accepting, h]

theorem acceptedCount_eq (nonce : String) (h : b.exec cfg tid c q = some b')
    (hr : ∀ n v, q ≠ .submitReturn n v) : b'.acceptedCount nonce = b.acceptedCount nonce := by
  rcases exec_history h with hh | ⟨e, he, hh⟩
  · rw [acceptedCount, acceptedCount, hh]
  · rw [acceptedCount, acceptedCount, hh]
    cases he with
    | accepted n entry r now s => exact absurd rfl (hr _ _)
    | _ => simp [Event.accepts]

theorem inFlight_eq (nonce : String) (hb : b.LockOk) (hq : b.procs tid = q)
    (h : b.exec cfg tid c q = some b') (hl : ∀ n r now, q ≠ .submitLock n r now)
    (hr : ∀ n v, q ≠ .submitReturn n v) : b'.inFlight nonce = b.inFlight nonce := by
  obtain ⟨q', hg, hp, hm⟩ := exec_goes h
  have hv : q'.verdict = q.verdict := verdict_goes hg hl hr
  have hk := hb tid
  rw [hq] at hk
  have hacc : (b'.procs tid).accepting nonce = (b.procs tid).accepting nonce := by
    rw [hp, hq, Function.update_self]
    exact accepting_congr hv
  unfold inFlight
  generalize b'.activeLock = lock at hm
  cases hm with
  | same =>
    cases b.activeLock with
    | none => rfl
    | some t =>
      by_cases ht : t = tid
      · subst ht
        dsimp only
        rw [hacc]
      · simp [hp, ht]
  | acquire hf hq' hk' =>
    have : (b.procs tid).accepting nonce = false := by
      rw [hq]
      cases q <;> first | rfl | simp [Proc.keepsLock] at hq'
    simp [hf, hacc, this]
  | release hq' hk' =>
    rw [hk.1 hq']
    dsimp only
    rw [← hacc, hp, Function.update_self]
    cases q' <;> first | rfl | simp [Proc.keepsLock] at hk'

theorem inFlight_free (hf : b.activeLock = none) : b.inFlight nonce = 0 := by
  rw [inFlight, hf]

theorem answers_submitLock (nonce n : String) (r : DecisionResponse) (now : ℤ)
    (hf : b.activeLock = none) :
    (b.submitLock tid n r now).answers nonce = b.answers nonce ∨
    ∃ entry stdout, n = nonce ∧ b.active.lookup nonce = some entry ∧
      Acceptable entry r now stdout ∧
      (b.submitLock tid n r now).active.lookup nonce =
        some { entry with internalState := .chosen r now stdout } ∧
      (b.submitLock tid n r now).answers nonce = b.answers nonce + 1 := by
  rcases b.submitLock_cases tid n r now with
    ⟨_, hx⟩ | ⟨_, -, -, hx⟩ | ⟨_, _, _, _, -, -, -, hx⟩ | ⟨e, stdout, _, he, ha, -, hx⟩ <;> rw [hx]
  · exact Or.inl (by simp [answers, acceptedCount, inFlight, hf])
  · exact Or.inl (by simp [answers, acceptedCount, inFlight, hf])
  · exact Or.inl (by simp [answers, acceptedCount, inFlight, hf, Proc.accepting, Proc.verdict])
  · by_cases hn : n = nonce
    · subst hn
      refine Or.inr ⟨e, stdout, rfl, he, ha, by simp, ?_⟩
      simp [answers, acceptedCount, inFlight, hf, Proc.accepting, Proc.verdict]
    · refine Or.inl ?_
      simp [answers, acceptedCount, inFlight, hf, Proc.accepting, Proc.verdict, hn]

theorem answers_submitReturn (nonce n : String) (v : Verdict) (hb : b.LockOk)
    (hq : b.procs tid = .submitReturn n v) :
    (b.submitReturn tid n v).answers nonce = b.answers nonce := by
  have hlock : b.activeLock = some tid := (hb tid).1 (by rw [hq]; rfl)
  cases v with
  | refused error =>
    simp [submitReturn, answers, acceptedCount, inFlight, hlock, hq, Proc.accepting, Proc.verdict]
  | accepted entry r now stdout =>
    by_cases hn : n = nonce <;>
      simp [submitReturn, answers, acceptedCount, inFlight, hlock, hq, Proc.accepting,
        Proc.verdict, Event.accepts, hn]

/-- A section keeps the number of answers of `nonce`, or accepts a pending entry of it. -/
theorem exec_answers (nonce : String) (hb : b.LockOk) (hq : b.procs tid = q)
    (h : b.exec cfg tid c q = some b') :
    b'.answers nonce = b.answers nonce ∨
    ∃ r now entry stdout, q = .submitLock nonce r now ∧
      b.active.lookup nonce = some entry ∧ Acceptable entry r now stdout ∧
      b'.active.lookup nonce = some { entry with internalState := .chosen r now stdout } ∧
      b'.answers nonce = b.answers nonce + 1 := by
  by_cases hl : ∃ n r now, q = .submitLock n r now
  · obtain ⟨n, r, now, rfl⟩ := hl
    obtain ⟨hf, rfl⟩ := whenFree_eq_some.1 h
    rcases answers_submitLock nonce n r now hf with heq | ⟨entry, stdout, rfl, he⟩
    · exact Or.inl heq
    · exact Or.inr ⟨r, now, entry, stdout, rfl, he⟩
  by_cases hr : ∃ n v, q = .submitReturn n v
  · obtain ⟨n, v, rfl⟩ := hr
    cases h
    exact Or.inl (answers_submitReturn nonce n v hb hq)
  push Not at hl hr
  refine Or.inl ?_
  rw [answers, answers, acceptedCount_eq nonce h hr, inFlight_eq nonce hb hq h hl hr]

/-! ## Steps that reopen a decision -/

/-- The audit row of `nonce` is final. -/
def RowFinal (b : Broker) (nonce : String) : Prop :=
  ∃ s, b.row nonce = some s ∧ s.isFinal = true

/-- Some call is about to write that `nonce` expired. -/
def Expiring (b : Broker) (nonce : String) : Prop :=
  ∃ tid, (b.procs tid).auditWrite = some (nonce, .expired)

/-- The step reopens a decision : `handle_wait` writes its audit row although the row is
final or puts its entry into the map although a submission of the nonce has returned `Ok`, or
`submit_decision` accepts although the row is, or is about to be, final. -/
def Reopens (b : Broker) : Act → Prop
  | .spawn .. => False
  | .exec tid _ =>
    match b.procs tid with
    | .waitUpsert p => b.RowFinal p.nonce
    | .waitInsert p _ => b.acceptedCount p.nonce ≠ 0
    | .submitLock nonce response now =>
      b.WillAccept nonce response now ∧ (b.RowFinal nonce ∨ b.Expiring nonce)
    | _ => False

/-- What the control state of a call says about the nonce it works on. -/
def Steady (b : Broker) (nonce : String) : Proc → Prop
  | .waitRestore _ entry => entry.internalState.isTerminal = true
  | .settlePersist _ write => write.state.isFinal = true
  | .submitPersist n write _ =>
    n = nonce → write.state.isFinal = false → ¬ b.RowFinal nonce ∧ ¬ b.Expiring nonce
  | _ => True

/-- The invariant of a nonce that is not reopened. -/
structure OneWay (b : Broker) (nonce : String) : Prop where
  once : b.answers nonce ≤ 1
  fresh : ∀ entry, b.active.lookup nonce = some entry → entry.internalState = .pending →
    b.answers nonce = 0
  steady : ∀ tid, b.Steady nonce (b.procs tid)

/-! ## Steps that do not reopen -/

/-- A final state is written under the lock, or is an expiry. -/
theorem keepsLock_of_auditWrite {s : DecisionDeliveryState} (hw : q.auditWrite = some (nonce, s))
    (hs : s.isFinal = true) : q.keepsLock = true ∨ s = .expired := by
  cases q <;> simp_all [Proc.auditWrite, Proc.keepsLock]
  all_goals
    obtain ⟨-, rfl⟩ := hw
    cases hs

/-- A call that comes to write an expiry saw the lock free. -/
theorem free_of_goes_expired (hg : q.Goes b c q')
    (hw : q'.auditWrite = some (nonce, .expired)) : b.activeLock = none := by
  cases hg <;> simp_all [Proc.auditWrite]

theorem not_pending_of_alters {entry : ActiveDecision} {s : InternalDeliveryState}
    (h : q.Alters entry nonce s) : s ≠ .pending := by
  cases h with
  | settle => rename_i settlement _ _ _ _; cases settlement <;> simp [Settlement.settle]
  | _ => simp

theorem rowFinal_congr (h : b'.row nonce = b.row nonce) : b'.RowFinal nonce ↔ b.RowFinal nonce := by
  rw [RowFinal, RowFinal, h]

/-- Only a submission that keeps the lock depends on the state of the broker. -/
theorem Steady.mono (hs : b.Steady nonce q)
    (h : (∃ n write v, q = .submitPersist n write v) → ¬ b.RowFinal nonce → ¬ b.Expiring nonce →
      ¬ b'.RowFinal nonce ∧ ¬ b'.Expiring nonce) : b'.Steady nonce q := by
  cases q with
  | submitPersist n write v =>
    intro hn hnf
    exact h ⟨n, write, v, rfl⟩ (hs hn hnf).1 (hs hn hnf).2
  | waitRestore p entry => exact hs
  | settlePersist n write => exact hs
  | _ => trivial

namespace OneWay

/-- While a submission keeps the lock to record an answer, no other call makes the row of
its nonce final. -/
theorem steady_other {t : ℕ} (hb : b.LockOk) (ht : t ≠ tid)
    (hpt : ∃ n write v, b.procs t = .submitPersist n write v)
    (hrow : ¬ b.RowFinal nonce) (hexp : ¬ b.Expiring nonce)
    (h : b.exec cfg tid c (b.procs tid) = some b') :
    ¬ b'.RowFinal nonce ∧ ¬ b'.Expiring nonce := by
  obtain ⟨n, write, v, hpt⟩ := hpt
  have hlock : b.activeLock = some t := (hb t).1 (by rw [hpt]; rfl)
  obtain ⟨q', hg, hp, -⟩ := exec_goes h
  constructor
  · rintro ⟨s, hs, hfin⟩
    rcases exec_row nonce h with heq | ⟨s', hw, hs'⟩
    · exact hrow ⟨s, heq ▸ hs, hfin⟩
    · obtain rfl : s' = s := Option.some.inj (hs'.symm.trans hs)
      rcases keepsLock_of_auditWrite hw hfin with hk | rfl
      · have := (hb tid).1 hk
        exact ht (Option.some.inj (hlock.symm.trans this))
      · exact hexp ⟨tid, hw⟩
  · rintro ⟨t', hw⟩
    by_cases ht' : t' = tid
    · subst ht'
      rw [hp, Function.update_self] at hw
      simp [free_of_goes_expired hg hw] at hlock
    · rw [hp, Function.update_of_ne ht'] at hw
      exact hexp ⟨t', hw⟩

section

variable (hi : OneWay b nonce)

include hi

theorem steady_exec (hb : b.LockOk) (hr : ¬ b.Reopens (.exec tid c))
    (h : b.exec cfg tid c (b.procs tid) = some b') (t : ℕ) : b'.Steady nonce (b'.procs t) := by
  obtain ⟨q', hg, hp, -⟩ := exec_goes h
  by_cases ht : t = tid
  · subst ht
    rw [hp, Function.update_self]
    generalize hq : b.procs t = q at *
    cases hg with
    | keep p entry hf he hterm => exact hterm
    | settle n settlement entry r now stdout write hf he hc hw =>
      show write.state.isFinal = true
      rw [hw]
      cases settlement <;> rfl
    | fail n r now entry write error hf he hpend hw =>
      intro _ hnf
      simp [hw, DecisionDeliveryState.isFinal] at hnf
    | accept n r now entry write stdout hf he ha hw =>
      rintro rfl -
      simp only [Reopens, hq] at hr
      have hwill : b.WillAccept n r now := ⟨entry, stdout, he, checkSubmit_of_acceptable ha⟩
      push Not at hr
      obtain ⟨hrow, hexp⟩ := hr hwill
      constructor
      · rcases exec_row n h with heq | ⟨s, hs, -⟩
        · rwa [rowFinal_congr heq]
        · simp [Proc.auditWrite] at hs
      · rintro ⟨t', hw'⟩
        by_cases ht' : t' = t
        · subst ht'
          simp [hp, Proc.auditWrite, hw] at hw'
        · rw [hp, Function.update_of_ne ht'] at hw'
          exact hexp ⟨t', hw'⟩
    | _ => trivial
  · rw [hp, Function.update_of_ne ht]
    exact (hi.steady t).mono fun hpt hrow hexp => steady_other hb ht hpt hrow hexp h

theorem fresh_exec (hr : ¬ b.Reopens (.exec tid c)) (h : b.exec cfg tid c (b.procs tid) = some b')
    {entry : ActiveDecision} (he : b'.active.lookup nonce = some entry)
    (hp : entry.internalState = .pending) : b.answers nonce = 0 := by
  rcases exec_active nonce h with heq | ⟨hf, hc⟩
  · exact hi.fresh entry (heq ▸ he) hp
  rcases hc with ⟨-, hnone⟩ | ⟨p, k, hq, rfl, -⟩ | ⟨p, e, hq, -, hsome⟩ | ⟨e, s, -, halt, hsome⟩
  · simp [hnone] at he
  · simp only [Reopens, hq, ne_eq, not_not] at hr
    rw [answers, hr, inFlight_free hf]
  · obtain rfl : e = entry := Option.some.inj (hsome.symm.trans he)
    have hterm := hi.steady tid
    rw [hq] at hterm
    simp [Steady, hp, InternalDeliveryState.isTerminal] at hterm
  · obtain rfl : { e with internalState := s } = entry := Option.some.inj (hsome.symm.trans he)
    exact absurd hp (not_pending_of_alters halt)

theorem exec (hb : b.LockOk) (hr : ¬ b.Reopens (.exec tid c))
    (h : b.exec cfg tid c (b.procs tid) = some b') : OneWay b' nonce := by
  have hsteady := hi.steady_exec hb hr h
  rcases exec_answers nonce hb rfl h with heq | ⟨r, now, entry, stdout, -, he, ha, he', hsucc⟩
  · refine ⟨heq ▸ hi.once, fun entry he hp => ?_, hsteady⟩
    rw [heq]
    exact hi.fresh_exec hr h he hp
  · have h0 := hi.fresh entry he ha.pending
    refine ⟨by omega, fun e hsome hp => ?_, hsteady⟩
    obtain rfl := Option.some.inj (he'.symm.trans hsome)
    cases hp

/-- A final row stays final. -/
theorem rowFinal_exec (hr : ¬ b.Reopens (.exec tid c))
    (h : b.exec cfg tid c (b.procs tid) = some b') (hrow : b.RowFinal nonce) :
    b'.RowFinal nonce := by
  rcases exec_row nonce h with heq | ⟨s, hw, hs⟩
  · rwa [rowFinal_congr heq]
  refine ⟨s, hs, ?_⟩
  have hsteady := hi.steady tid
  generalize hq : b.procs tid = q at *
  cases q with
  | waitUpsert p =>
    obtain ⟨rfl, rfl⟩ := Prod.mk.inj (Option.some.inj hw)
    simp only [Reopens, hq] at hr
    exact absurd hrow hr
  | waitFinalize p | submitFinalize n | observePersist n e =>
    obtain ⟨-, rfl⟩ := Prod.mk.inj (Option.some.inj hw)
    rfl
  | submitPersist n write v =>
    obtain ⟨rfl, rfl⟩ := Prod.mk.inj (Option.some.inj hw)
    by_contra hnf
    exact (hsteady rfl (by simpa using hnf)).1 hrow
  | settlePersist n write =>
    obtain ⟨-, rfl⟩ := Prod.mk.inj (Option.some.inj hw)
    exact hsteady
  | _ => cases hw

theorem spawn {call : Call} (hb : b.LockOk) (hidle : b.procs tid = .idle) :
    OneWay (b.goto tid call.start) nonce := by
  have hlock : b.activeLock ≠ some tid := by
    intro hl
    have := (hb tid).2 hl
    rw [hidle] at this
    cases this
  have hans : (b.goto tid call.start).answers nonce = b.answers nonce := by
    unfold answers inFlight acceptedCount
    rw [goto_activeLock, goto_history]
    cases hl : b.activeLock with
    | none => rfl
    | some t =>
      have ht : t ≠ tid := by
        rintro rfl
        exact hlock hl
      simp [ht]
  have hexp : (b.goto tid call.start).Expiring nonce → b.Expiring nonce := by
    rintro ⟨t, hw⟩
    by_cases ht : t = tid
    · subst ht
      rw [goto_procs, Function.update_self] at hw
      cases call <;> cases hw
    · exact ⟨t, by simpa [ht] using hw⟩
  refine ⟨hans ▸ hi.once, fun entry he hp => hans ▸ hi.fresh entry he hp, fun t => ?_⟩
  rw [goto_procs]
  by_cases ht : t = tid
  · subst ht
    rw [Function.update_self]
    cases call <;> trivial
  · rw [Function.update_of_ne ht]
    exact (hi.steady t).mono fun _ hrow hex => ⟨hrow, fun h => hex (hexp h)⟩

/-- Steps that do not reopen a decision keep the invariant and final rows. -/
theorem step {act : Act} (hb : b.LockOk) (hr : ¬ b.Reopens act) (h : b.step cfg act = some b') :
    OneWay b' nonce ∧ (b.RowFinal nonce → b'.RowFinal nonce) := by
  cases act with
  | exec tid c => exact ⟨hi.exec hb hr h, hi.rowFinal_exec hr h⟩
  | spawn tid call =>
    simp only [Broker.step] at h
    split at h
    · rename_i hidle
      cases h
      exact ⟨hi.spawn hb hidle, id⟩
    · cases h

end

end OneWay

theorem oneWay_initial (nonce : String) : OneWay initial nonce where
  once := by simp [answers, acceptedCount, inFlight, initial]
  fresh entry he := by simp [initial] at he
  steady tid := trivial

/-- In a run that reopens no decision, every nonce is answered at most once, and once its
audit row is final no later state has it pending. -/
theorem decided_once (cfg : BrokerConfig) (acts acts' : List Act) (b b' : Broker)
    (hg : Guarded (Broker.step cfg) (fun b act => ¬ b.Reopens act) initial (acts ++ acts'))
    (hr : run (Broker.step cfg) initial acts = some b)
    (hr' : run (Broker.step cfg) b acts' = some b') (nonce : String) :
    b'.acceptedCount nonce ≤ 1 ∧ (b.RowFinal nonce → b'.row nonce ≠ some .pending) := by
  obtain ⟨hg₁, hg₂⟩ := hg.append
  obtain ⟨hb, hi⟩ : b.LockOk ∧ OneWay b nonce :=
    hg₁.invariant (I := fun b => b.LockOk ∧ OneWay b nonce)
      (fun s a t hok hinv hs => ⟨hinv.1.step hs, (hinv.2.step hinv.1 hok hs).1⟩)
      ⟨lockOk_initial, oneWay_initial nonce⟩ hr
  obtain ⟨-, hi', hrow⟩ : b'.LockOk ∧ OneWay b' nonce ∧ (b.RowFinal nonce → b'.RowFinal nonce) :=
    (hg₂ b hr).invariant
      (I := fun x => x.LockOk ∧ OneWay x nonce ∧ (b.RowFinal nonce → x.RowFinal nonce))
      (fun s a t hok ⟨hl, ho, hf⟩ hs =>
        ⟨hl.step hs, (ho.step hl hok hs).1, fun h => (ho.step hl hok hs).2 (hf h)⟩)
      ⟨hb, hi, id⟩ hr'
  refine ⟨(Nat.le_add_right _ _).trans hi'.once, fun hfin hpend => ?_⟩
  obtain ⟨s, hs, hsf⟩ := hrow hfin
  obtain rfl := Option.some.inj (hs.symm.trans hpend)
  cases hsf

/-! ## Runs of the broker's tests -/

/-- A submission that delivers, and the confirmation of its delivery. -/
def confirmedRun : List Act :=
  submitDeliversRun ++ .spawn 2 (.confirmDelivery "ack-1") :: List.replicate 3 (.go 2 1002)

/-- A sufficient check, for calls with thread numbers below 8, that a step reopens nothing. -/
def leavesClosed (b : Broker) (act : Act) : Bool :=
  act.tid < 8 && match act with
  | .spawn .. => true
  | .exec tid _ =>
    match b.procs tid with
    | .waitUpsert p => b.row p.nonce = none
    | .waitInsert p _ => b.acceptedCount p.nonce = 0
    | .submitLock nonce _ _ => b.row nonce = some .pending &&
      (List.range 8).all fun t => (b.procs t).auditWrite ≠ some (nonce, .expired)
    | _ => true

theorem not_reopens_of_leavesClosed {act : Act} (hb : b.FewCalls)
    (hc : b.leavesClosed act = true) : ¬ b.Reopens act := by
  cases act with
  | spawn tid call => exact id
  | exec tid c =>
    simp only [leavesClosed, Bool.and_eq_true] at hc
    obtain ⟨-, hc⟩ := hc
    simp only [Reopens]
    cases hq : b.procs tid with
    | waitUpsert p =>
      simp only [hq, decide_eq_true_eq] at hc
      simp [RowFinal, hc]
    | waitInsert p k =>
      simp only [hq, decide_eq_true_eq] at hc
      simp [hc]
    | submitLock n r now =>
      simp only [hq, Bool.and_eq_true, decide_eq_true_eq, List.all_eq_true, List.mem_range] at hc
      rintro ⟨-, ⟨s, hs, hfin⟩ | ⟨t, hw⟩⟩
      · obtain rfl := Option.some.inj (hs.symm.trans hc.1)
        cases hfin
      · by_cases ht : t < 8
        · exact hc.2 t ht hw
        · rw [hb t (by omega)] at hw
          cases hw
    | _ => exact id

/-- One answer, delivered and confirmed, followed by a wait for another nonce. -/
theorem decided_once_confirmedRun :
    ∃ b b', run (Broker.step sampleConfig) initial confirmedRun = some b ∧
      run (Broker.step sampleConfig) b (Act.park 3 (sampleWait "ack-2")) = some b' ∧
      b.RowFinal "ack-1" ∧ b'.acceptedCount "ack-1" ≤ 1 ∧ b'.row "ack-1" ≠ some .pending := by
  have hg : Guarded (Broker.step sampleConfig) (fun b act => ¬ b.Reopens act) initial
      (confirmedRun ++ Act.park 3 (sampleWait "ack-2")) :=
    Guarded.of_check (I := FewCalls) leavesClosed
      (fun _ _ _ hb hc h => hb.step (of_decide_eq_true (Bool.and_eq_true_iff.1 hc).1) h)
      (fun _ _ hb hc => not_reopens_of_leavesClosed hb hc) (fun _ _ => rfl) (by decide)
  refine ⟨_, _, rfl, rfl, ⟨.delivered, rfl, rfl⟩, ?_⟩
  obtain ⟨hone, hrow⟩ := decided_once sampleConfig confirmedRun _ _ _ hg rfl rfl "ack-1"
  exact ⟨hone, hrow ⟨.delivered, rfl, rfl⟩⟩

/-- A second wait for a delivered nonce on the same connection sets its row back to pending,
and a second submission returns `Ok`. -/
theorem reopened_after_delivery :
    ∃ b b', run (Broker.step sampleConfig) initial confirmedRun = some b ∧
      run (Broker.step sampleConfig) b
        (Act.park 3 (sampleWait "ack-1") ++ Act.submit 4 "ack-1" (.action .deny) 1010) = some b' ∧
      b.row "ack-1" = some .delivered ∧ b'.row "ack-1" = some .pending ∧
      b'.acceptedCount "ack-1" = 2 :=
  ⟨_, _, rfl, rfl, rfl, rfl, rfl⟩

end Broker

end LlmNotch
