import LlmNotch.HookClient
import LlmNotch.IngestServer
import Mathlib.Data.List.Sort

/-!
# Delivery of hook events

The hook helpers, the ingest server, the consumer of the host and the spool as one system
(`deliveryStep`). A helper submits its event once and keeps a frame of it if the delivery fails
in a way that may pass (`isTransientDeliveryError`); the server replays the frames when it starts.
Events are numbered, and all their copies share one queue.

A submitter learns the outcome of a submission, or it does not : the server stops waiting, the
consumer closes, the helper gives up, the host restarts, or an accepted frame cannot be removed.
The host may still apply such a submission, and no request identifier is checked when the event
is submitted again. `delivery_bound` : an event is applied at most once more often than the
outcome of a submission was not learned, and an acknowledged event exactly once.
-/

namespace LlmNotch

namespace Ipc

/-! ## The parties -/

/-- A helper : about to deliver, waiting for the reply (which may be on its way), holding an
error, or finished. -/
inductive Attempt where
  | ready
  | sent (reply : Option HostOutcome)
  | failed (error : IpcError)
  | acked
  | kept
  | dropped
  deriving DecidableEq

inductive Submitter where
  | hook | drain
  deriving DecidableEq

/-- A pending ingest in the queue of the host. -/
structure Pending where
  event : ℕ
  submitter : Submitter
  deriving DecidableEq

/-- The replay of the spool : the frames still to read, or one that was submitted and whether it
was accepted. -/
inductive Drain where
  | idle
  | reading (frames : List ℕ)
  | waiting (frame : ℕ) (accepted : Option Bool) (rest : List ℕ)
  deriving DecidableEq

/-- The frame whose submission the drain does not learn the outcome of, if it stops now. -/
def Drain.unsettled : Drain → List ℕ
  | waiting _ (some false) _ => []
  | waiting frame _ _ => [frame]
  | _ => []

/-- The request identifiers, which helpers spool (`spool_on_transient`), and the order of the
frame names. -/
structure DeliveryConfig where
  requestId : ℕ → String
  spools : ℕ → Bool
  rank : ℕ → ℕ

structure Delivery where
  attempts : ℕ → Attempt := fun _ => .ready
  queue : List Pending := []
  spool : List ℕ := []
  drain : Drain := .idle
  applied : List ℕ := []
  unlearned : List ℕ := []

namespace Delivery

def setAttempt (s : Delivery) (e : ℕ) (attempt : Attempt) : Delivery :=
  { s with attempts := Function.update s.attempts e attempt }

/-- `list_frames`. -/
def frames (s : Delivery) (cfg : DeliveryConfig) : List ℕ :=
  s.spool.insertionSort fun a b => cfg.rank a ≤ cfg.rank b

/-- `completion.send` : a submitter that does not wait any more is not told. -/
def complete (s : Delivery) (p : Pending) (outcome : HostOutcome) : Delivery :=
  match p.submitter with
  | .hook =>
    if s.attempts p.event = .sent none then s.setAttempt p.event (.sent (some outcome)) else s
  | .drain =>
    match s.drain with
    | .waiting frame none rest =>
      if frame = p.event then
        { s with drain := .waiting frame (some (outcome = .accepted)) rest }
      else s
    | _ => s

end Delivery

/-- Whether the reply tells what became of the submission. -/
def HostOutcome.isFinal : HostOutcome → Bool
  | accepted | rejected _ => true
  | closed | timeout => false

/-- What a helper makes of a reply. -/
def Attempt.after (requestId : String) (outcome : HostOutcome) : Attempt :=
  match ackResult requestId (ingestReply requestId (.ok outcome)) with
  | .ok _ => .acked
  | .error error => .failed error

/-! ## Steps -/

inductive DeliveryAct where
  /-- the delivery fails before the event is queued -/
  | refuse (e : ℕ) (error : IpcError)
  | submit (e : ℕ)
  /-- the host takes the next pending ingest and accepts it, or rejects it with a text -/
  | take (rejection : Option String)
  /-- the server stops waiting for the host -/
  | serverTimeout (e : ℕ)
  | hear (e : ℕ)
  /-- the helper stops waiting, or its connection ends -/
  | giveUp (e : ℕ) (error : IpcError)
  /-- the helper handles its error; writing the frame may fail -/
  | keep (e : ℕ) (written : Bool)
  /-- the oldest frame makes room for another -/
  | evict
  | submitFrame
  /-- no frame is left, or one cannot be read or queued -/
  | stopDrain
  /-- the drain hears of its frame; removing the file may fail -/
  | drainHears (removed : Bool)
  | drainTimeout
  /-- the host drops its end of the queue -/
  | close
  | restart
  deriving DecidableEq

open Delivery in
def deliveryStep (cfg : DeliveryConfig) (s : Delivery) : DeliveryAct → Option Delivery
  | .refuse e error =>
    match s.attempts e with
    | .ready => some (s.setAttempt e (.failed error))
    | _ => none
  | .submit e =>
    match s.attempts e with
    | .ready => some { s.setAttempt e (.sent none) with queue := s.queue ++ [⟨e, .hook⟩] }
    | _ => none
  | .take rejection =>
    match s.queue with
    | p :: queue =>
      match rejection with
      | none => some
          (complete { s with queue := queue, applied := s.applied ++ [p.event] } p .accepted)
      | some text => some (complete { s with queue := queue } p (.rejected text))
    | [] => none
  | .serverTimeout e =>
    match s.attempts e with
    | .sent none => some (s.setAttempt e (.sent (some .timeout)))
    | _ => none
  | .hear e =>
    match s.attempts e with
    | .sent (some outcome) => some { s.setAttempt e (.after (cfg.requestId e) outcome) with
        unlearned := if outcome.isFinal then s.unlearned else s.unlearned ++ [e] }
    | _ => none
  | .giveUp e error =>
    match s.attempts e with
    | .sent _ => some { s.setAttempt e (.failed error) with unlearned := s.unlearned ++ [e] }
    | _ => none
  | .keep e written =>
    match s.attempts e with
    | .failed error =>
      if cfg.spools e && isTransientDeliveryError error && written then
        some { s.setAttempt e .kept with spool := s.spool ++ [e] }
      else some (s.setAttempt e .dropped)
    | _ => none
  | .evict =>
    match s.frames cfg with
    | frame :: _ => some { s with spool := s.spool.erase frame }
    | [] => none
  | .submitFrame =>
    match s.drain with
    | .reading (frame :: rest) =>
      if frame ∈ s.spool then
        some { s with drain := .waiting frame none rest, queue := s.queue ++ [⟨frame, .drain⟩] }
      else none
    | _ => none
  | .stopDrain =>
    match s.drain with
    | .reading _ => some { s with drain := .idle }
    | _ => none
  | .drainHears removed =>
    match s.drain with
    | .waiting frame (some true) rest =>
      if removed then some { s with drain := .reading rest, spool := s.spool.erase frame }
      else some { s with drain := .idle, unlearned := s.unlearned ++ [frame] }
    | .waiting _ (some false) _ => some { s with drain := .idle }
    | _ => none
  | .drainTimeout =>
    match s.drain with
    | .waiting frame none _ => some { s with drain := .idle, unlearned := s.unlearned ++ [frame] }
    | _ => none
  | .close => some { s with
      queue := []
      attempts := fun e => if s.attempts e = .sent none then .sent (some .closed) else s.attempts e
      drain := match s.drain with
        | .waiting _ none _ => .idle
        | drain => drain
      unlearned := match s.drain with
        | .waiting frame none _ => s.unlearned ++ [frame]
        | _ => s.unlearned }
  | .restart => some { s with
      queue := []
      drain := .reading (s.frames cfg)
      unlearned := s.unlearned ++ s.drain.unsettled }

/-! ## Counting -/

/-- Whether the helper may still submit its event or keep a frame of it. -/
def Attempt.token : Attempt → ℕ
  | ready => 1
  | failed error => if isTransientDeliveryError error then 1 else 0
  | _ => 0

namespace Delivery

/-- How often an event has been applied or may be applied without another failure to learn an
outcome. -/
def weight (s : Delivery) (e : ℕ) : ℕ :=
  s.applied.count e + (s.queue.map (·.event)).count e + (s.attempts e).token +
    (s.spool.count e - s.drain.unsettled.count e)

/-- The invariant of the counts. -/
def Counted (s : Delivery) : Prop :=
  ∀ e, s.weight e ≤ 1 + s.unlearned.count e

theorem attempts_setAttempt (s : Delivery) (e e' : ℕ) (attempt : Attempt) :
    (s.setAttempt e attempt).attempts e' = if e' = e then attempt else s.attempts e' :=
  Function.update_apply _ _ _ _

end Delivery

theorem token_le (attempt : Attempt) : attempt.token ≤ 1 := by
  unfold Attempt.token
  split
  · exact le_rfl
  · split <;> decide
  · decide

theorem token_after (requestId : String) (outcome : HostOutcome) :
    (Attempt.after requestId outcome).token = if outcome.isFinal then 0 else 1 := by
  cases outcome with
  | accepted => simp [Attempt.after, ingestReply, ackResult, Attempt.token, HostOutcome.isFinal]
  | rejected text =>
    simp [Attempt.after, ingestReply, ackResult, Attempt.token, HostOutcome.isFinal,
      isTransientDeliveryError]
  | closed =>
    simp [Attempt.after, ingestReply, ackResult, Attempt.token, HostOutcome.isFinal,
      isTransientDeliveryError]
  | timeout =>
    simp [Attempt.after, ingestReply, ackResult, Attempt.token, HostOutcome.isFinal,
      isTransientDeliveryError]

section Steps

open Delivery

variable {cfg : DeliveryConfig} {s t : Delivery}

/-- Telling the submitter an outcome gives at most a rejected frame back to the spool. -/
theorem weight_complete (p : Pending) (outcome : HostOutcome) (e : ℕ) :
    (s.complete p outcome).weight e ≤
      s.weight e + if outcome = .accepted then 0 else [p.event].count e := by
  unfold complete
  split
  · split
    · rename_i hsent
      have htoken : ((s.setAttempt p.event (.sent (some outcome))).attempts e).token =
          (s.attempts e).token := by
        rw [attempts_setAttempt]
        split
        · rename_i he
          rw [he, hsent]
          rfl
        · rfl
      refine Nat.le_add_right_of_le (le_of_eq ?_)
      unfold weight
      rw [htoken]
      rfl
    · exact Nat.le_add_right _ _
  · split
    · rename_i frame rest hdrain
      split
      · rename_i hframe
        subst hframe
        by_cases hout : outcome = .accepted
        · simp [weight, hdrain, hout, Drain.unsettled]
        · simp only [weight, hdrain, hout, Drain.unsettled, decide_false, List.count_nil, if_false]
          omega
      · exact Nat.le_add_right _ _
    · exact Nat.le_add_right _ _

/-- Replacing an attempt changes the tokens of its event. -/
theorem token_update (attempts : ℕ → Attempt) (e : ℕ) (attempt : Attempt) (e' : ℕ) :
    (Function.update attempts e attempt e').token + (attempts e).token * [e].count e' =
      (attempts e').token + attempt.token * [e].count e' := by
  rw [Function.update_apply]
  by_cases he : e' = e
  · rw [if_pos he, he, List.count_singleton_self]
    omega
  · rw [if_neg he, List.count_singleton, if_neg (by simpa using Ne.symm he)]
    omega

/-- The accepted ingest moves from the queue to the applied ones. -/
theorem weight_accept {p : Pending} {queue : List Pending} (hqueue : s.queue = p :: queue)
    (e : ℕ) : weight { s with queue := queue, applied := s.applied ++ [p.event] } e =
      s.weight e := by
  simp only [weight, hqueue, List.map_cons, List.count_append, List.count_cons, List.count_nil]
  omega

theorem weight_reject {p : Pending} {queue : List Pending} (hqueue : s.queue = p :: queue)
    (e : ℕ) : weight { s with queue := queue } e + [p.event].count e = s.weight e := by
  simp only [weight, hqueue, List.map_cons, List.count_cons, List.count_nil]
  omega

theorem unlearned_complete (p : Pending) (outcome : HostOutcome) :
    (s.complete p outcome).unlearned = s.unlearned := by
  unfold complete
  split
  · split <;> rfl
  · split
    · split <;> rfl
    · rfl

/-- The token of a helper that hears of the close does not change. -/
theorem token_closed (attempt : Attempt) :
    (if attempt = .sent none then Attempt.sent (some .closed) else attempt).token =
      attempt.token := by
  split
  · rename_i hsent
    rw [hsent]
    rfl
  · rfl

theorem counted_take {rejection : Option String} (hs : s.Counted)
    (h : deliveryStep cfg s (.take rejection) = some t) : t.Counted := by
  intro e'
  have hs' := hs e'
  simp only [deliveryStep] at h
  split at h
  · rename_i p queue hqueue
    split at h
    · cases h
      have hweight := weight_complete (s := { s with
        queue := queue, applied := s.applied ++ [p.event] }) p .accepted e'
      rw [weight_accept hqueue, if_pos rfl] at hweight
      rw [unlearned_complete]
      exact le_trans hweight hs'
    · rename_i text
      cases h
      have hweight := weight_complete (s := { s with queue := queue }) p (.rejected text) e'
      have hreject := weight_reject hqueue e'
      rw [if_neg (by simp)] at hweight
      rw [unlearned_complete]
      exact le_trans hweight (le_trans (le_of_eq hreject) hs')
  · cases h

theorem counted_hear {e : ℕ} (hs : s.Counted)
    (h : deliveryStep cfg s (.hear e) = some t) : t.Counted := by
  intro e'
  have hs' := hs e'
  simp only [deliveryStep] at h
  split at h
  · rename_i outcome hsent
    cases h
    have htoken := token_update s.attempts e (.after (cfg.requestId e) outcome) e'
    rw [hsent, show (Attempt.sent (some outcome)).token = 0 from rfl, token_after] at htoken
    simp only [weight, setAttempt] at hs' ⊢
    split at htoken
    · rename_i hfinal
      rw [if_pos hfinal]
      omega
    · rename_i hfinal
      rw [if_neg hfinal, List.count_append]
      omega
  · cases h

theorem counted_keep {e : ℕ} {written : Bool} (hs : s.Counted)
    (h : deliveryStep cfg s (.keep e written) = some t) : t.Counted := by
  intro e'
  have hs' := hs e'
  simp only [deliveryStep] at h
  split at h
  · rename_i error hfailed
    split at h
    · rename_i hkeep
      cases h
      have htransient : isTransientDeliveryError error = true := by simp_all
      have htoken := token_update s.attempts e .kept e'
      rw [hfailed, show (Attempt.failed error).token = 1 from if_pos htransient,
        show Attempt.kept.token = 0 from rfl] at htoken
      simp only [weight, setAttempt, List.count_append] at hs' ⊢
      omega
    · cases h
      have htoken := token_update s.attempts e .dropped e'
      rw [show Attempt.dropped.token = 0 from rfl] at htoken
      simp only [weight, setAttempt] at hs' ⊢
      omega
  · cases h

theorem counted_submitFrame (hs : s.Counted)
    (h : deliveryStep cfg s .submitFrame = some t) : t.Counted := by
  intro e'
  have hs' := hs e'
  simp only [deliveryStep] at h
  split at h
  · rename_i frame rest hdrain
    split at h
    · rename_i hmem
      cases h
      have hframe : [frame].count e' ≤ s.spool.count e' :=
        (List.singleton_sublist.2 hmem).count_le e'
      simp only [weight, hdrain, Drain.unsettled, List.map_append, List.count_append,
        List.map_cons, List.map_nil, List.count_nil] at hs' ⊢
      omega
    · cases h
  · cases h

theorem counted_drainHears {removed : Bool} (hs : s.Counted)
    (h : deliveryStep cfg s (.drainHears removed) = some t) : t.Counted := by
  intro e'
  have hs' := hs e'
  simp only [deliveryStep] at h
  split at h
  · rename_i frame rest hdrain
    split at h
    · cases h
      have hcount := List.count_erase (a := e') (b := frame) (l := s.spool)
      simp only [weight, hdrain, Drain.unsettled, List.count_nil, List.count_singleton]
        at hs' ⊢
      rw [hcount]
      omega
    · cases h
      simp only [weight, hdrain, Drain.unsettled, List.count_nil, List.count_append] at hs' ⊢
      omega
  · rename_i frame rest hdrain
    cases h
    simp only [weight, hdrain, Drain.unsettled] at hs' ⊢
    exact hs'
  · cases h

theorem counted_step {a : DeliveryAct} (hs : s.Counted) (h : deliveryStep cfg s a = some t) :
    t.Counted := by
  intro e'
  have hs' := hs e'
  cases a with
  | refuse e error =>
    simp only [deliveryStep] at h
    split at h
    · rename_i hready
      cases h
      have htoken := token_update s.attempts e (.failed error) e'
      have hle := Nat.mul_le_mul_right ([e].count e') (token_le (.failed error))
      rw [hready, show Attempt.ready.token = 1 from rfl] at htoken
      simp only [weight, setAttempt] at hs' ⊢
      omega
    · cases h
  | submit e =>
    simp only [deliveryStep] at h
    split at h
    · rename_i hready
      cases h
      have htoken := token_update s.attempts e (.sent none) e'
      rw [hready, show Attempt.ready.token = 1 from rfl,
        show (Attempt.sent none).token = 0 from rfl] at htoken
      simp only [weight, setAttempt, List.map_append, List.count_append, List.map_cons,
        List.map_nil] at hs' ⊢
      omega
    · cases h
  | take rejection => exact counted_take hs h e'
  | serverTimeout e =>
    simp only [deliveryStep] at h
    split at h
    · rename_i hsent
      cases h
      have htoken := token_update s.attempts e (.sent (some .timeout)) e'
      rw [hsent] at htoken
      simp only [weight, setAttempt] at hs' ⊢
      simp only [Attempt.token] at htoken hs' ⊢
      omega
    · cases h
  | hear e => exact counted_hear hs h e'
  | giveUp e error =>
    simp only [deliveryStep] at h
    split at h
    · cases h
      have htoken := token_update s.attempts e (.failed error) e'
      have hle := Nat.mul_le_mul_right ([e].count e') (token_le (.failed error))
      simp only [weight, setAttempt, List.count_append] at hs' ⊢
      omega
    · cases h
  | keep e written => exact counted_keep hs h e'
  | evict =>
    simp only [deliveryStep] at h
    split at h
    · rename_i frame rest hframes
      cases h
      have hcount := (List.erase_sublist (a := frame) (l := s.spool)).count_le e'
      simp only [weight] at hs' ⊢
      omega
    · cases h
  | submitFrame => exact counted_submitFrame hs h e'
  | stopDrain =>
    simp only [deliveryStep] at h
    split at h
    · rename_i rest hdrain
      cases h
      simp only [weight, hdrain, Drain.unsettled] at hs' ⊢
      exact hs'
    · cases h
  | drainHears removed => exact counted_drainHears hs h e'
  | drainTimeout =>
    simp only [deliveryStep] at h
    split at h
    · rename_i frame rest hdrain
      cases h
      simp only [weight, hdrain, Drain.unsettled, List.count_nil, List.count_append] at hs' ⊢
      omega
    · cases h
  | close =>
    cases h
    simp only [weight, token_closed, List.map_nil, List.count_nil] at hs' ⊢
    split
    · rename_i frame rest hdrain
      simp only [hdrain, Drain.unsettled, List.count_nil, List.count_append] at hs' ⊢
      omega
    · omega
  | restart =>
    cases h
    simp only [weight, Drain.unsettled, List.map_nil, List.count_nil, List.count_append] at hs' ⊢
    omega

end Steps

/-! ## Frames and acknowledgements -/

/-- Whether the helper has not failed to learn the outcome of its submission. -/
def Attempt.isOpen : Attempt → Bool
  | ready | sent _ | acked => true
  | _ => false

/-- Whether the host has accepted the submission of the helper, as the helper learns or has
learned. -/
def Attempt.isAccepted : Attempt → Bool
  | sent (some .accepted) | acked => true
  | _ => false

/-- The frames the drain has read of and has not settled. -/
def Drain.frames : Drain → List ℕ
  | idle => []
  | reading frames => frames
  | waiting frame _ rest => frame :: rest

/-- Frames belong to helpers that kept them, no open attempt has an outcome that was not learned,
and what was acknowledged was applied. -/
structure Delivery.Tracked (s : Delivery) : Prop where
  kept : ∀ e, e ∈ s.spool ∨ e ∈ s.drain.frames → s.attempts e = .kept
  learned : ∀ e ∈ s.unlearned, (s.attempts e).isOpen = false
  accepted : ∀ e, (s.attempts e).isAccepted = true → e ∈ s.applied

theorem isAccepted_after {requestId : String} {outcome : HostOutcome}
    (h : (Attempt.after requestId outcome).isAccepted = true) : outcome = .accepted := by
  cases outcome with
  | accepted => rfl
  | rejected text => simp [Attempt.after, ingestReply, ackResult, Attempt.isAccepted] at h
  | closed => simp [Attempt.after, ingestReply, ackResult, Attempt.isAccepted] at h
  | timeout => simp [Attempt.after, ingestReply, ackResult, Attempt.isAccepted] at h

theorem isOpen_after {requestId : String} {outcome : HostOutcome} (h : outcome.isFinal = false) :
    (Attempt.after requestId outcome).isOpen = false := by
  cases outcome with
  | accepted => cases h
  | rejected text => cases h
  | closed => simp [Attempt.after, ingestReply, ackResult, Attempt.isOpen]
  | timeout => simp [Attempt.after, ingestReply, ackResult, Attempt.isOpen]

section Steps

open Delivery

variable {cfg : DeliveryConfig} {s t : Delivery}

section

variable (hs : s.Tracked)

include hs

/-- The helper of an event that was not kept goes on. -/
theorem tracked_setAttempt {e : ℕ} {attempt : Attempt} (hkept : s.attempts e ≠ .kept)
    (hopen : (s.attempts e).isOpen = false → attempt.isOpen = false)
    (haccepted : attempt.isAccepted = true → e ∈ s.applied) : (s.setAttempt e attempt).Tracked where
  kept e' he' := by
    have hkept' : s.attempts e' = .kept := hs.kept e' he'
    have hne : e' ≠ e := by
      rintro rfl
      exact hkept hkept'
    rw [attempts_setAttempt, if_neg hne]
    exact hkept'
  learned e' he' := by
    have hlearned : (s.attempts e').isOpen = false := hs.learned e' he'
    rw [attempts_setAttempt]
    split
    · rename_i he
      subst he
      exact hopen hlearned
    · exact hlearned
  accepted e' he' := by
    rw [attempts_setAttempt] at he'
    split at he'
    · rename_i he
      subst he
      exact haccepted he'
    · exact hs.accepted e' he'

theorem tracked_unlearned {e : ℕ} (he : (s.attempts e).isOpen = false) :
    Tracked { s with unlearned := s.unlearned ++ [e] } where
  kept := hs.kept
  learned e' he' := by
    obtain he' | he' := List.mem_append.1 he'
    · exact hs.learned e' he'
    · rw [List.mem_singleton.1 he']
      exact he
  accepted := hs.accepted

/-- A step of the drain or of the host : no frame is new, and what is not learned was a frame. -/
theorem tracked_mono (hattempts : t.attempts = s.attempts)
    (hframes : ∀ e, e ∈ t.spool ∨ e ∈ t.drain.frames → e ∈ s.spool ∨ e ∈ s.drain.frames)
    (hunlearned : ∀ e ∈ t.unlearned, e ∈ s.unlearned ∨ e ∈ s.drain.frames)
    (happlied : ∀ e ∈ s.applied, e ∈ t.applied) : t.Tracked where
  kept e he := by
    rw [hattempts]
    exact hs.kept e (hframes e he)
  learned e he := by
    rw [hattempts]
    obtain he | he := hunlearned e he
    · exact hs.learned e he
    · rw [hs.kept e (.inr he)]
      rfl
  accepted e he := by
    rw [hattempts] at he
    exact happlied e (hs.accepted e he)

theorem tracked_complete {p : Pending} {outcome : HostOutcome}
    (happlied : outcome = .accepted → p.event ∈ s.applied) : (s.complete p outcome).Tracked := by
  unfold complete
  split
  · split
    · rename_i hsent
      refine tracked_setAttempt hs (by simp [hsent]) (by simp [hsent, Attempt.isOpen]) ?_
      intro haccepted
      refine happlied ?_
      cases outcome with
      | accepted => rfl
      | rejected text => cases haccepted
      | closed => cases haccepted
      | timeout => cases haccepted
    · exact hs
  · split
    · rename_i frame rest hdrain
      split
      · refine tracked_mono hs rfl ?_ (fun e he => .inl he) (fun e he => he)
        intro e he
        rw [hdrain]
        exact he
      · exact hs
    · exact hs

/-- The drain stops without having learned what became of its frame. -/
theorem tracked_stop {frame : ℕ} {accepted : Option Bool} {rest : List ℕ}
    (hdrain : s.drain = .waiting frame accepted rest) :
    Tracked { s with drain := .idle, unlearned := s.unlearned ++ [frame] } := by
  refine tracked_mono hs rfl (fun e he => .inl (by simpa [Drain.frames] using he)) ?_
    (fun e he => he)
  intro e he
  rw [hdrain]
  obtain he | he := List.mem_append.1 he
  · exact .inl he
  · exact .inr (List.mem_cons.2 (.inl (List.mem_singleton.1 he)))

theorem tracked_closed : Tracked { s with
    attempts := fun e =>
      if s.attempts e = .sent none then .sent (some .closed) else s.attempts e } where
  kept e he := by
    have hkept : s.attempts e = .kept := hs.kept e he
    simp [hkept]
  learned e he := by
    have hlearned : (s.attempts e).isOpen = false := hs.learned e he
    dsimp only
    split
    · rename_i hsent
      rw [hsent] at hlearned
      exact hlearned
    · exact hlearned
  accepted e he := by
    dsimp only at he
    split at he
    · cases he
    · exact hs.accepted e he

end

theorem mem_unsettled {drain : Drain} {e : ℕ} (he : e ∈ drain.unsettled) : e ∈ drain.frames := by
  unfold Drain.unsettled at he
  split at he
  · cases he
  · exact List.mem_cons.2 (.inl (List.mem_singleton.1 he))
  · cases he

theorem tracked_take {rejection : Option String} (hs : s.Tracked)
    (h : deliveryStep cfg s (.take rejection) = some t) : t.Tracked := by
  simp only [deliveryStep] at h
  split at h
  · rename_i p queue hqueue
    split at h
    · cases h
      refine tracked_complete ?_ (fun _ => List.mem_append_right _ (List.mem_singleton_self _))
      exact tracked_mono hs rfl (fun e he => he) (fun e he => .inl he)
        (fun e he => List.mem_append_left _ he)
    · cases h
      refine tracked_complete ?_ (fun h => by cases h)
      exact ⟨hs.kept, hs.learned, hs.accepted⟩
  · cases h

theorem tracked_hear {e : ℕ} (hs : s.Tracked)
    (h : deliveryStep cfg s (.hear e) = some t) : t.Tracked := by
  simp only [deliveryStep] at h
  split at h
  · rename_i outcome hsent
    cases h
    have hset : (s.setAttempt e (.after (cfg.requestId e) outcome)).Tracked := by
      refine tracked_setAttempt hs (by simp [hsent]) (by simp [hsent, Attempt.isOpen]) ?_
      intro haccepted
      refine hs.accepted e ?_
      rw [hsent, isAccepted_after haccepted]
      rfl
    split
    · exact ⟨hset.kept, hset.learned, hset.accepted⟩
    · rename_i hfinal
      refine tracked_unlearned (s := s.setAttempt e _) hset ?_
      rw [attempts_setAttempt, if_pos rfl]
      exact isOpen_after (by simpa using hfinal)
  · cases h

theorem tracked_keep {e : ℕ} {written : Bool} (hs : s.Tracked)
    (h : deliveryStep cfg s (.keep e written) = some t) : t.Tracked := by
  simp only [deliveryStep] at h
  split at h
  · rename_i error hfailed
    split at h
    · cases h
      have hset : (s.setAttempt e .kept).Tracked :=
        tracked_setAttempt hs (by simp [hfailed]) (fun _ => rfl) (fun h => by cases h)
      refine ⟨?_, hset.learned, hset.accepted⟩
      rintro e' (he' | he')
      · obtain he' | he' := List.mem_append.1 he'
        · exact hset.kept e' (.inl he')
        · rw [List.mem_singleton.1 he']
          exact (attempts_setAttempt s e e .kept).trans (if_pos rfl)
      · exact hset.kept e' (.inr he')
    · cases h
      exact tracked_setAttempt hs (by simp [hfailed]) (fun _ => rfl) (fun h => by cases h)
  · cases h

theorem tracked_drainHears {removed : Bool} (hs : s.Tracked)
    (h : deliveryStep cfg s (.drainHears removed) = some t) : t.Tracked := by
  simp only [deliveryStep] at h
  split at h
  · rename_i frame rest hdrain
    split at h
    · cases h
      refine tracked_mono hs rfl ?_ (fun e he => .inl he) (fun e he => he)
      intro e he
      rw [hdrain]
      exact he.imp List.mem_of_mem_erase (List.mem_cons_of_mem frame)
    · cases h
      exact tracked_stop hs hdrain
  · cases h
    exact tracked_mono hs rfl (fun e he => .inl (by simpa [Drain.frames] using he))
      (fun e he => .inl he) (fun e he => he)
  · cases h

theorem tracked_step {a : DeliveryAct} (hs : s.Tracked) (h : deliveryStep cfg s a = some t) :
    t.Tracked := by
  cases a with
  | refuse e error =>
    simp only [deliveryStep] at h
    split at h
    · rename_i hready
      cases h
      exact tracked_setAttempt hs (by simp [hready]) (fun _ => rfl) (fun h => by cases h)
    · cases h
  | submit e =>
    simp only [deliveryStep] at h
    split at h
    · rename_i hready
      cases h
      have hset : (s.setAttempt e (.sent none)).Tracked :=
        tracked_setAttempt hs (by simp [hready]) (by simp [hready, Attempt.isOpen])
          (fun h => by cases h)
      exact ⟨hset.kept, hset.learned, hset.accepted⟩
    · cases h
  | take rejection => exact tracked_take hs h
  | serverTimeout e =>
    simp only [deliveryStep] at h
    split at h
    · rename_i hsent
      cases h
      exact tracked_setAttempt hs (by simp [hsent]) (by simp [hsent, Attempt.isOpen])
        (fun h => by cases h)
    · cases h
  | hear e => exact tracked_hear hs h
  | giveUp e error =>
    simp only [deliveryStep] at h
    split at h
    · rename_i reply hsent
      cases h
      refine tracked_unlearned (s := s.setAttempt e (.failed error)) ?_ ?_
      · exact tracked_setAttempt hs (by simp [hsent]) (fun _ => rfl) (fun h => by cases h)
      · rw [attempts_setAttempt, if_pos rfl]
        rfl
    · cases h
  | keep e written => exact tracked_keep hs h
  | evict =>
    simp only [deliveryStep] at h
    split at h
    · cases h
      exact tracked_mono hs rfl (fun e he => he.imp_left List.mem_of_mem_erase)
        (fun e he => .inl he) (fun e he => he)
    · cases h
  | submitFrame =>
    simp only [deliveryStep] at h
    split at h
    · rename_i frame rest hdrain
      split at h
      · cases h
        refine tracked_mono hs rfl ?_ (fun e he => .inl he) (fun e he => he)
        intro e he
        rw [hdrain]
        exact he
      · cases h
    · cases h
  | stopDrain =>
    simp only [deliveryStep] at h
    split at h
    · cases h
      exact tracked_mono hs rfl (fun e he => .inl (by simpa [Drain.frames] using he))
        (fun e he => .inl he) (fun e he => he)
    · cases h
  | drainHears removed => exact tracked_drainHears hs h
  | drainTimeout =>
    simp only [deliveryStep] at h
    split at h
    · rename_i frame rest hdrain
      cases h
      exact tracked_stop hs hdrain
    · cases h
  | close =>
    cases h
    split
    · rename_i frame rest hdrain
      have hstop := tracked_closed (tracked_stop hs hdrain)
      exact ⟨hstop.kept, hstop.learned, hstop.accepted⟩
    · have hclosed := tracked_closed hs
      exact ⟨hclosed.kept, hclosed.learned, hclosed.accepted⟩
  | restart =>
    cases h
    refine tracked_mono hs rfl ?_ ?_ (fun e he => he)
    · rintro e (he | he)
      · exact .inl he
      · exact .inl ((List.mem_insertionSort _).1 he)
    · intro e he
      obtain he | he := List.mem_append.1 he
      · exact .inl he
      · exact .inr (mem_unsettled he)

/-- Counts and acknowledgements hold in every state of a run. -/
theorem delivery_invariant {acts : List DeliveryAct}
    (h : run (deliveryStep cfg) {} acts = some s) : s.Counted ∧ s.Tracked := by
  refine Guarded.invariant (I := fun s => s.Counted ∧ s.Tracked) ?_ ⟨?_, ?_⟩
    (Guarded.trivial _ _ acts) h
  · intro s a t _ hs hstep
    exact ⟨counted_step hs.1 hstep, tracked_step hs.2 hstep⟩
  · intro e
    simp [weight, Attempt.token]
  · constructor
    · intro e he
      simp [Drain.frames] at he
    · intro e he
      cases he
    · intro e he
      cases he

end Steps

/-! ## Runs -/

open Delivery in
/-- In every run of helpers, server, host and spool the host applies an event at most once more
often than the outcome of one of its submissions was not learned. An acknowledged event was
applied exactly once : no copy of it is queued or spooled. -/
theorem delivery_bound (cfg : DeliveryConfig) (acts : List DeliveryAct) (s : Delivery)
    (h : run (deliveryStep cfg) {} acts = some s) (e : ℕ) :
    s.applied.count e ≤ 1 + s.unlearned.count e ∧
      (s.attempts e = .acked →
        s.applied.count e = 1 ∧ e ∉ s.spool ∧ e ∉ s.queue.map (·.event)) := by
  obtain ⟨hcounted, htracked⟩ := delivery_invariant h
  have hweight : s.weight e ≤ 1 + s.unlearned.count e := hcounted e
  unfold weight at hweight
  refine ⟨by omega, fun hacked => ?_⟩
  have happlied : 0 < s.applied.count e := by
    refine List.count_pos_iff.2 (htracked.accepted e ?_)
    rw [hacked]
    rfl
  have hlearned : s.unlearned.count e = 0 := by
    refine List.count_eq_zero.2 fun he => ?_
    have hopen := htracked.learned e he
    rw [hacked] at hopen
    cases hopen
  have hspool : e ∉ s.spool := by
    intro he
    have hkept := htracked.kept e (.inl he)
    rw [hacked] at hkept
    cases hkept
  exact ⟨by omega, hspool, List.count_eq_zero.1 (by omega)⟩

/-- Helpers that spool, and frames in the order of the events. -/
def spoolingConfig : DeliveryConfig where
  requestId e := toString e
  spools _ := true
  rank e := e

theorem delivery_bound_acked :
    ∃ s, run (deliveryStep spoolingConfig) {} [.submit 0, .take none, .hear 0] = some s ∧
      s.attempts 0 = .acked ∧ s.applied.count 0 = 1 ∧ 0 ∉ s.spool := by
  refine ⟨_, rfl, by decide, ?_⟩
  obtain ⟨happlied, hspool, -⟩ :=
    (delivery_bound spoolingConfig [.submit 0, .take none, .hear 0] _ rfl 0).2
      (by decide)
  exact ⟨happlied, hspool⟩

/-- The server stops waiting before the host takes the event, the helper keeps a frame of it, and
the frame is replayed. -/
theorem delivery_applied_twice :
    ∃ acts s, run (deliveryStep spoolingConfig) {} acts = some s ∧ s.applied.count 0 = 2 :=
  ⟨[.submit 0, .serverTimeout 0, .hear 0, .keep 0 true, .take none, .restart, .submitFrame,
    .take none, .drainHears true], _, rfl, by decide⟩

end Ipc

end LlmNotch
