import Mathlib.Logic.Function.Basic
import Mathlib.Tactic.Simps.Basic
import LlmNotch.Transition
import LlmNotch.VendorStdout

/-!
# The decision broker

A shallow embedding of `DecisionBroker` at the granularity of its locks. The shared state
is the `active` map, the `decision_audit` table, the `waiters` map and the notify counters;
every call in flight is a `Proc`, the rest of its body after the last lock or await point.
`step` runs one such section of one call. A section that needs the `active` lock is not
enabled while another call keeps it : `submit_decision` keeps it from its checks to its
return, `confirm_delivery`, `fail_delivery` and `observe_effect` until their audit write.

A `Notified` future records how often its `Notify` had called `notify_waiters` when the
future was created, and is ready once that number has changed, so a call wakes exactly the
futures created before it. `select!` may take the timer branch at any time, and the other
branch whenever the future is ready. A `Choice` fixes the clock reading, the branch and
whether a write to the store succeeds; the code ignores a failed write.

`history` lists what callers and the audit table have seen, newest first.
-/

namespace LlmNotch

/-! ## Data -/

/-- The wait registration forwarded from the hook helper. -/
structure DecisionWaitPayload where
  nonce : String
  source : AgentSource
  vendorEvent : String
  externalSessionId : String
  sessionId : Option String
  decisionKind : DecisionKind
  summary : String
  hasActionablePayload : Bool
  respondableHook : Option String
  toolName : Option String
  connectionId : String
  vendorContext : Option Json
  createdAtMs : ℤ

/-- The reply to a waiting hook connection. -/
structure DecisionReplyPayload where
  nonce : String
  stdoutJson : String
  deliveryState : DecisionDeliveryState
  deriving DecidableEq

/-- The lifecycle of an active decision, with the `chosen` state the wire does not have. -/
inductive InternalDeliveryState where
  | pending
  | chosen (response : DecisionResponse) (respondedAtMs : ℤ) (stdoutJson : String)
  | delivered (stdoutJson : String) (deliveredAtMs : ℤ)
  | effectObserved (evidence : String) (observedAtMs : ℤ)
  | expired
  | failed (detail : String)
  deriving DecidableEq

namespace InternalDeliveryState

def wireState : InternalDeliveryState → DecisionDeliveryState
  | pending | chosen .. => .pending
  | delivered .. => .delivered
  | effectObserved .. => .effectObserved
  | expired => .expired
  | failed _ => .failed

def isTerminal : InternalDeliveryState → Bool
  | delivered .. | effectObserved .. | expired | failed _ => true
  | pending | chosen .. => false

def isChosen : InternalDeliveryState → Bool
  | chosen .. => true
  | _ => false

end InternalDeliveryState

/-- An entry of the `active` map. -/
structure ActiveDecision where
  request : DecisionRequest
  internalState : InternalDeliveryState
  vendorEvent : String
  externalSessionId : String
  respondableHook : Option String
  toolName : Option String
  connectionId : String
  vendorContext : Option Json
  expiresAtMs : ℤ

/-- A row of the `decision_audit` table. -/
structure AuditRow where
  request : DecisionRequest
  vendorEvent : String
  externalSessionId : String
  connectionId : String
  deliveryState : DecisionDeliveryState
  response : Option DecisionResponse
  respondedAtMs : Option ℤ
  deliveryDetail : Option String

inductive BrokerError where
  | notFound
  | expired
  | alreadyFinalized
  | notActionable
  | bindingMismatch
  | invalidResponse (detail : String)
  | store (detail : String)
  | adapter (detail : String)
  deriving DecidableEq

/-- The wait timeout, and the hash behind internal session identifiers. -/
structure BrokerConfig where
  waitTimeoutMs : ℕ
  internalSessionId : AgentSource → String → String

/-- A summary within the bound is kept, a longer one is cut to that many characters. -/
def truncateSummary (summary : String) : String :=
  if summary.utf8ByteSize ≤ maxDecisionSummaryLen then summary
  else String.ofList (summary.toList.take maxDecisionSummaryLen)

/-- The request of a registration. -/
def BrokerConfig.request (cfg : BrokerConfig) (p : DecisionWaitPayload) : DecisionRequest where
  id := p.nonce
  sessionId := p.sessionId.getD (cfg.internalSessionId p.source p.externalSessionId)
  source := p.source
  kind := p.decisionKind
  summary := truncateSummary p.summary
  hasActionablePayload := p.hasActionablePayload
  createdAtMs := p.createdAtMs
  expiresAtMs := some (wrapI64 (p.createdAtMs + cfg.waitTimeoutMs))

/-- The entry `handle_wait` registers. -/
def BrokerConfig.registration (cfg : BrokerConfig) (p : DecisionWaitPayload) :
    ActiveDecision where
  request := cfg.request p
  internalState := .pending
  vendorEvent := p.vendorEvent
  externalSessionId := p.externalSessionId
  respondableHook := p.respondableHook
  toolName := p.toolName
  connectionId := p.connectionId
  vendorContext := p.vendorContext
  expiresAtMs := wrapI64 (p.createdAtMs + cfg.waitTimeoutMs)

/-! ## Replies -/

def neutralReply (nonce : String) (state : DecisionDeliveryState) : DecisionReplyPayload :=
  ⟨nonce, neutralStdout, state⟩

/-- The reply to a registration whose nonce is bound to another connection. -/
def failOpenReply (nonce : String) : DecisionReplyPayload :=
  ⟨nonce, neutralStdout, .failed⟩

/-- The reply that says what became of a decision. -/
def replyForActive (nonce : String) (active : ActiveDecision) : DecisionReplyPayload :=
  match active.internalState with
  | .delivered stdoutJson _ => ⟨nonce, stdoutJson, .delivered⟩
  | .failed _ => ⟨nonce, neutralStdout, .failed⟩
  | .expired => neutralReply nonce .expired
  | .chosen _ _ stdoutJson => ⟨nonce, stdoutJson, .pending⟩
  | .pending => neutralReply nonce .expired
  | .effectObserved .. => ⟨nonce, neutralStdout, .effectObserved⟩

def replayTerminal (nonce : String) (active : ActiveDecision) : DecisionReplyPayload :=
  match active.internalState with
  | .expired => neutralReply nonce active.internalState.wireState
  | .failed _ => neutralReply nonce active.internalState.wireState
  | .delivered stdoutJson _ => ⟨nonce, stdoutJson, .delivered⟩
  | _ => neutralReply nonce .expired

/-! ## Submissions -/

/-- Allow and deny are accepted, answers to questions are not. -/
def validateResponse : DecisionResponse → Except BrokerError Unit
  | .action .allow | .action .deny => .ok ()
  | .answer _ => .error (.invalidResponse "question answers are unsupported in protocol v1")

def buildStdoutForActive (active : ActiveDecision) (response : DecisionResponse) :
    Except AdapterBuildError String :=
  buildVendorStdout active.request.source active.respondableHook response active.vendorContext

/-- The columns `update_delivery` sets. -/
structure AuditWrite where
  state : DecisionDeliveryState
  response : Option DecisionResponse
  respondedAtMs : Option ℤ
  detail : Option String

/-- What `submit_decision` does with the entry it finds. -/
inductive SubmitCheck where
  | refuse (error : BrokerError)
  | expire
  | fail (detail : String) (keepResponse : Bool)
  | choose (stdoutJson : String)
  deriving DecidableEq

/-- The checks of `submit_decision` on a pending, unexpired, actionable entry. -/
def checkStdout (active : ActiveDecision) (response : DecisionResponse) : SubmitCheck :=
  match buildStdoutForActive active response with
  | .ok stdout =>
    if stdout = neutralStdout then
      .fail "fail-open neutral output cannot be reported as delivered" true
    else .choose stdout
  | .error .capabilityDisabled => .fail "decision responses disabled for this adapter" true
  | .error err => .fail err.display false

/-- The checks of `submit_decision` on the entry it finds. -/
def checkSubmit (active : ActiveDecision) (response : DecisionResponse) (now : ℤ) : SubmitCheck :=
  match active.internalState with
  | .pending =>
    if active.expiresAtMs ≤ now then .expire
    else if active.request.hasActionablePayload = false then .refuse .notActionable
    else checkStdout active response
  | _ => .refuse .alreadyFinalized

/-- What a submission that changed the entry under the lock will return. -/
inductive Verdict where
  | accepted (entry : ActiveDecision) (response : DecisionResponse) (now : ℤ) (stdoutJson : String)
  | refused (error : BrokerError)

/-- How a delivery is settled once its transport write returned. -/
inductive Settlement where
  | confirm
  | fail (detail : String)
  deriving DecidableEq

/-- The state a chosen decision settles to. -/
def Settlement.settle (respondedAtMs : ℤ) (stdoutJson : String) :
    Settlement → InternalDeliveryState
  | confirm => .delivered stdoutJson respondedAtMs
  | fail detail => .failed detail

def Settlement.detail : Settlement → Option String
  | confirm => none
  | fail detail => some detail

/-! ## Calls in flight -/

/-- A call in flight, by what it does next. -/
inductive Proc where
  | idle
  | waitCheck (p : DecisionWaitPayload)
  | waitUpsert (p : DecisionWaitPayload)
  | waitNotify (p : DecisionWaitPayload)
  | waitInsert (p : DecisionWaitPayload) (notify : ℕ)
  | waitListen (p : DecisionWaitPayload) (notify : ℕ)
  | waitSelect (p : DecisionWaitPayload) (notify seen : ℕ)
  | waitExpire (p : DecisionWaitPayload)
  | waitRestore (p : DecisionWaitPayload) (entry : ActiveDecision)
  | waitFinalize (p : DecisionWaitPayload)
  | waitReply (p : DecisionWaitPayload)
  | waitRetain (p : DecisionWaitPayload) (reply : DecisionReplyPayload)
  | waitRemove (p : DecisionWaitPayload) (reply : DecisionReplyPayload) (retain : Bool)
  | waitForget (p : DecisionWaitPayload) (reply : DecisionReplyPayload)
  | waitDone (p : DecisionWaitPayload) (reply : DecisionReplyPayload)
  | submitStart (nonce : String) (response : DecisionResponse)
  | submitLock (nonce : String) (response : DecisionResponse) (now : ℤ)
  | submitFinalize (nonce : String)
  | submitRemove (nonce : String)
  | submitWakeExpired (nonce : String)
  | submitPersist (nonce : String) (write : AuditWrite) (verdict : Verdict)
  | submitWake (nonce : String) (verdict : Verdict)
  | submitReturn (nonce : String) (verdict : Verdict)
  | settleLock (nonce : String) (settlement : Settlement)
  | settlePersist (nonce : String) (write : AuditWrite)
  | settleRemove (nonce : String)
  | observeLock (nonce evidence : String)
  | observePersist (nonce evidence : String)
  | done (nonce : String) (error : Option BrokerError)

/-- The public operations of the broker. -/
inductive Call where
  | handleWait (p : DecisionWaitPayload)
  | submitDecision (nonce : String) (response : DecisionResponse)
  | confirmDelivery (nonce : String)
  | failDelivery (nonce detail : String)
  | observeEffect (nonce evidence : String)

def Call.start : Call → Proc
  | handleWait p => .waitCheck p
  | submitDecision nonce response => .submitStart nonce response
  | confirmDelivery nonce => .settleLock nonce .confirm
  | failDelivery nonce detail => .settleLock nonce (.fail detail)
  | observeEffect nonce evidence => .observeLock nonce evidence

/-- What callers and the audit table have seen. `accepted` is a `submit_decision` that
returned `Ok`, with the entry it found; `replied` a `handle_wait` that returned. -/
inductive Event where
  | registered (p : DecisionWaitPayload)
  | accepted (nonce : String) (entry : ActiveDecision) (response : DecisionResponse) (now : ℤ)
      (stdoutJson : String)
  | replied (nonce : String) (reply : DecisionReplyPayload)
  | audited (nonce : String) (state : DecisionDeliveryState)

/-- The maps of the broker, its audit table and lock, and the calls that run. -/
structure Broker where
  active : Dict String ActiveDecision
  audit : Dict String AuditRow
  waiters : Dict String ℕ
  notifyCalls : ℕ → ℕ
  nextNotify : ℕ
  activeLock : Option ℕ
  procs : ℕ → Proc
  history : List Event

/-- The state of the audit row of a nonce. -/
def Broker.row (b : Broker) (nonce : String) : Option DecisionDeliveryState :=
  (b.audit.lookup nonce).map AuditRow.deliveryState

/-- A broker with nothing in flight. -/
def Broker.initial : Broker where
  active := ∅
  audit := ∅
  waiters := ∅
  notifyCalls := fun _ => 0
  nextNotify := 0
  activeLock := none
  procs := fun _ => .idle
  history := []

/-- The outcome of the nondeterminism inside one section. -/
structure Choice where
  now : ℤ
  timer : Bool
  storeOk : Bool

inductive Act where
  | spawn (tid : ℕ) (call : Call)
  | exec (tid : ℕ) (choice : Choice)

/-- The thread a step belongs to. -/
def Act.tid : Act → ℕ
  | .spawn tid _ => tid
  | .exec tid _ => tid

namespace Broker

/-! ## Operations on the shared state -/

/-- Continue the call `tid` with `p`. -/
@[simps]
def goto (b : Broker) (tid : ℕ) (p : Proc) : Broker :=
  { b with procs := Function.update b.procs tid p }

/-- Record an event. -/
@[simps]
def log (b : Broker) (e : Event) : Broker :=
  { b with history := e :: b.history }

@[simps]
def setActive (b : Broker) (nonce : String) (entry : ActiveDecision) : Broker :=
  { b with active := b.active.insert nonce entry }

@[simps]
def eraseActive (b : Broker) (nonce : String) : Broker :=
  { b with active := b.active.erase nonce }

@[simps]
def acquire (b : Broker) (tid : ℕ) : Broker :=
  { b with activeLock := some tid }

@[simps]
def release (b : Broker) : Broker :=
  { b with activeLock := none }

/-- `upsert_active` : a new row, or the delivery state of the row already there. -/
def auditUpsert (b : Broker) (ok : Bool) (cfg : BrokerConfig) (p : DecisionWaitPayload) :
    Broker :=
  if ok then
    { b with
      audit := b.audit.insert p.nonce (match b.audit.lookup p.nonce with
        | some row => { row with deliveryState := .pending }
        | none =>
          { request := cfg.request p
            vendorEvent := p.vendorEvent
            externalSessionId := p.externalSessionId
            connectionId := p.connectionId
            deliveryState := .pending
            response := none
            respondedAtMs := none
            deliveryDetail := none })
      history := .audited p.nonce .pending :: b.history }
  else b

/-- `update_delivery` : nothing happens to a nonce without a row. -/
def auditUpdate (b : Broker) (ok : Bool) (nonce : String) (write : AuditWrite) : Broker :=
  match ok, b.audit.lookup nonce with
  | true, some row =>
    { b with
      audit := b.audit.insert nonce { row with
        deliveryState := write.state
        response := write.response.or row.response
        respondedAtMs := write.respondedAtMs.or row.respondedAtMs
        deliveryDetail := write.detail.or row.deliveryDetail }
      history := .audited nonce write.state :: b.history }
  | _, _ => b

/-- `wake_waiter` : the notify of the nonce, if registered, wakes its futures. -/
def wakeWaiter (b : Broker) (nonce : String) : Broker :=
  match b.waiters.lookup nonce with
  | some notify =>
    { b with
      waiters := b.waiters.erase nonce
      notifyCalls := Function.update b.notifyCalls notify (b.notifyCalls notify + 1) }
  | none => b

/-- The notify of the nonce, created if there is none. -/
def waiterEntry (b : Broker) (nonce : String) : Broker × ℕ :=
  match b.waiters.lookup nonce with
  | some notify => (b, notify)
  | none =>
    ({ b with waiters := b.waiters.insert nonce b.nextNotify, nextNotify := b.nextNotify + 1 },
      b.nextNotify)

/-! ## Sections of the calls -/

/-- `handle_wait` up to its registration : an entry of another connection or in a terminal
state answers at once. -/
def waitCheck (b : Broker) (tid : ℕ) (p : DecisionWaitPayload) : Broker :=
  match b.active.lookup p.nonce with
  | some existing =>
    if existing.connectionId ≠ p.connectionId then
      (b.log (.replied p.nonce (failOpenReply p.nonce))).goto tid
        (.waitDone p (failOpenReply p.nonce))
    else if existing.internalState.isTerminal then
      (b.log (.replied p.nonce (replayTerminal p.nonce existing))).goto tid
        (.waitDone p (replayTerminal p.nonce existing))
    else b.goto tid (.waitUpsert p)
  | none => b.goto tid (.waitUpsert p)

/-- The first section of `expire_decision` : the entry is taken out of the map. -/
def waitExpire (b : Broker) (tid : ℕ) (p : DecisionWaitPayload) : Broker :=
  match b.active.lookup p.nonce with
  | some entry =>
    if entry.internalState.isTerminal then
      (b.eraseActive p.nonce).goto tid (.waitRestore p entry)
    else (b.eraseActive p.nonce).goto tid (.waitFinalize p)
  | none => b.goto tid (.waitReply p)

/-- The locked section of `submit_decision`. -/
def submitLock (b : Broker) (tid : ℕ) (nonce : String) (response : DecisionResponse) (now : ℤ) :
    Broker :=
  match b.active.lookup nonce with
  | none => b.goto tid (.done nonce (some .notFound))
  | some entry =>
    match checkSubmit entry response now with
    | .refuse error => b.goto tid (.done nonce (some error))
    | .expire => b.goto tid (.submitFinalize nonce)
    | .fail detail keepResponse =>
      ((b.setActive nonce { entry with internalState := .failed detail }).acquire tid).goto tid
        (.submitPersist nonce
          ⟨.failed, if keepResponse then some response else none, some now, some detail⟩
          (.refused (.adapter detail)))
    | .choose stdout =>
      ((b.setActive nonce
        { entry with internalState := .chosen response now stdout }).acquire tid).goto tid
        (.submitPersist nonce ⟨.pending, some response, some now, none⟩
          (.accepted entry response now stdout))

/-- The return of `submit_decision` after its locked section. -/
def submitReturn (b : Broker) (tid : ℕ) (nonce : String) : Verdict → Broker
  | .accepted entry response now stdout =>
    ((b.release.log (.accepted nonce entry response now stdout))).goto tid (.done nonce none)
  | .refused error => b.release.goto tid (.done nonce (some error))

/-- The locked section of `confirm_delivery` and `fail_delivery`. -/
def settleLock (b : Broker) (tid : ℕ) (nonce : String) (settlement : Settlement) : Broker :=
  match b.active.lookup nonce with
  | none => b.goto tid (.done nonce (some .notFound))
  | some entry =>
    match entry.internalState with
    | .chosen _ respondedAtMs stdoutJson =>
      let settled := settlement.settle respondedAtMs stdoutJson
      ((b.setActive nonce { entry with internalState := settled }).acquire tid).goto tid
        (.settlePersist nonce ⟨settled.wireState, none, none, settlement.detail⟩)
    | _ => b.goto tid (.done nonce (some .alreadyFinalized))

/-- The locked section of `observe_effect`. -/
def observeLock (b : Broker) (tid : ℕ) (nonce evidence : String) (now : ℤ) : Broker :=
  match b.active.lookup nonce with
  | none => b.goto tid (.done nonce (some .notFound))
  | some entry =>
    match entry.internalState with
    | .delivered .. =>
      ((b.setActive nonce { entry with internalState := .effectObserved evidence now }).acquire
        tid).goto tid (.observePersist nonce evidence)
    | _ => b.goto tid (.done nonce (some .alreadyFinalized))

/-- The reply `handle_wait` reads off the map once it has been woken. -/
def finalReply (b : Broker) (nonce : String) : DecisionReplyPayload :=
  match b.active.lookup nonce with
  | some active => replyForActive nonce active
  | none => neutralReply nonce .expired

/-- A chosen decision stays in the map until its delivery is settled. -/
def retainActive (b : Broker) (nonce : String) : Bool :=
  match b.active.lookup nonce with
  | some active => active.internalState.isChosen
  | none => false

/-- `Some b'` unless another call keeps the `active` lock. -/
def whenFree (b b' : Broker) : Option Broker :=
  if b.activeLock = none then some b' else none

/-- The next section of a call. -/
def exec (cfg : BrokerConfig) (b : Broker) (tid : ℕ) (c : Choice) : Proc → Option Broker
  | .idle => none
  | .waitCheck p => b.whenFree (b.waitCheck tid p)
  | .waitUpsert p => some ((b.auditUpsert c.storeOk cfg p).goto tid (.waitNotify p))
  | .waitNotify p =>
    some ((b.waiterEntry p.nonce).1.goto tid (.waitInsert p (b.waiterEntry p.nonce).2))
  | .waitInsert p notify =>
    b.whenFree (((b.setActive p.nonce (cfg.registration p)).log (.registered p)).goto tid
      (.waitListen p notify))
  | .waitListen p notify => some (b.goto tid (.waitSelect p notify (b.notifyCalls notify)))
  | .waitSelect p notify seen =>
    if c.timer then some (b.goto tid (.waitExpire p))
    else if b.notifyCalls notify ≠ seen then some (b.goto tid (.waitReply p))
    else none
  | .waitExpire p => b.whenFree (b.waitExpire tid p)
  | .waitRestore p entry => b.whenFree ((b.setActive p.nonce entry).goto tid (.waitReply p))
  | .waitFinalize p =>
    some ((b.auditUpdate c.storeOk p.nonce
      ⟨.expired, none, none, some "decision window elapsed"⟩).goto tid (.waitReply p))
  | .waitReply p => b.whenFree (b.goto tid (.waitRetain p (b.finalReply p.nonce)))
  | .waitRetain p reply =>
    b.whenFree (b.goto tid (.waitRemove p reply (b.retainActive p.nonce)))
  | .waitRemove p reply retain =>
    if retain then some (b.goto tid (.waitForget p reply))
    else b.whenFree ((b.eraseActive p.nonce).goto tid (.waitForget p reply))
  | .waitForget p reply =>
    some ((({ b with waiters := b.waiters.erase p.nonce } : Broker).log
      (.replied p.nonce reply)).goto tid (.waitDone p reply))
  | .waitDone .. => none
  | .submitStart nonce response =>
    match validateResponse response with
    | .error error => some (b.goto tid (.done nonce (some error)))
    | .ok () => some (b.goto tid (.submitLock nonce response c.now))
  | .submitLock nonce response now => b.whenFree (b.submitLock tid nonce response now)
  | .submitFinalize nonce =>
    some ((b.auditUpdate c.storeOk nonce
      ⟨.expired, none, none, some "decision window elapsed"⟩).goto tid (.submitRemove nonce))
  | .submitRemove nonce =>
    b.whenFree ((b.eraseActive nonce).goto tid (.submitWakeExpired nonce))
  | .submitWakeExpired nonce =>
    some ((b.wakeWaiter nonce).goto tid (.done nonce (some .expired)))
  | .submitPersist nonce write verdict =>
    some ((b.auditUpdate c.storeOk nonce write).goto tid (.submitWake nonce verdict))
  | .submitWake nonce verdict => some ((b.wakeWaiter nonce).goto tid (.submitReturn nonce verdict))
  | .submitReturn nonce verdict => some (b.submitReturn tid nonce verdict)
  | .settleLock nonce settlement => b.whenFree (b.settleLock tid nonce settlement)
  | .settlePersist nonce write =>
    some ((b.auditUpdate c.storeOk nonce write).release.goto tid (.settleRemove nonce))
  | .settleRemove nonce => b.whenFree ((b.eraseActive nonce).goto tid (.done nonce none))
  | .observeLock nonce evidence => b.whenFree (b.observeLock tid nonce evidence c.now)
  | .observePersist nonce evidence =>
    some ((b.auditUpdate c.storeOk nonce
      ⟨.effectObserved, none, none, some evidence⟩).release.goto tid (.done nonce none))
  | .done .. => none

/-- One step of the broker : a new call, or the next section of one in flight. -/
def step (cfg : BrokerConfig) (b : Broker) : Act → Option Broker
  | .spawn tid call =>
    match b.procs tid with
    | .idle => some (b.goto tid call.start)
    | _ => none
  | .exec tid c => b.exec cfg tid c (b.procs tid)

end Broker

/-! ## A sample registration -/

/-- The wait the broker's own tests register. -/
def sampleWait (nonce : String) : DecisionWaitPayload where
  nonce := nonce
  source := .claudeCode
  vendorEvent := "PermissionRequest"
  externalSessionId := "ext-1"
  sessionId := some "sess-1"
  decisionKind := .permission
  summary := "Allow file write?"
  hasActionablePayload := true
  respondableHook := some "permissionRequest"
  toolName := some "Write"
  connectionId := "conn-1"
  vendorContext := some (.obj [("claude_code_version", .str "2.1.205")])
  createdAtMs := 1000

/-- The broker of the tests : a window of 50 ms. -/
def sampleConfig : BrokerConfig := ⟨50, fun _ external => external⟩

/-- One section of call `tid` at time `now`, with `select!` on the notified branch. -/
def Act.go (tid : ℕ) (now : ℤ) : Act := .exec tid ⟨now, false, true⟩

/-- One section of call `tid`, with `select!` on the timer branch. -/
def Act.fire (tid : ℕ) : Act := .exec tid ⟨1050, true, true⟩

/-- `handle_wait` from its call until it is parked in `select!`. -/
def Act.park (tid : ℕ) (p : DecisionWaitPayload) : List Act :=
  .spawn tid (.handleWait p) :: List.replicate 5 (.go tid 1000)

/-- `submit_decision` from its call to its return, at time `now`. -/
def Act.submit (tid : ℕ) (nonce : String) (response : DecisionResponse) (now : ℤ) : List Act :=
  .spawn tid (.submitDecision nonce response) :: List.replicate 5 (.go tid now)

/-- The test `submit_delivers_vendor_stdout_to_waiter` up to the reply of the wait. -/
def submitDeliversRun : List Act :=
  Act.park 0 (sampleWait "ack-1") ++ Act.submit 1 "ack-1" (.action .allow) 1001 ++
    List.replicate 5 (.go 0 1001)

end LlmNotch
