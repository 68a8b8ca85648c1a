import LlmNotch.CoreDomain
import Mathlib.Data.List.MinMax
import Mathlib.Data.Prod.Lex
import Mathlib.Data.String.Basic

/-!
# The session registry

The in-memory registry of sessions : the sessions by their identifier, the index from the
external key of a session (its source and the identifier its vendor gave it) to the
identifier, the retained events of every session and the idempotency keys seen so far.

The methods that change the registry are programs over it, in the order of the source; the
others are functions of it. The registry iterates hash maps in an order the language does
not specify, so these functions take the ranks of the keys.
-/

namespace LlmNotch

/-- The key of the external index. -/
def externalKey (source : AgentSource) (externalSessionId : String) : String :=
  source.debug ++ ":" ++ externalSessionId

def AgentSession.key (s : AgentSession) : String :=
  externalKey s.source s.externalSessionId

/-- The sessions and their events in memory, and the index of external ids. -/
structure SessionRegistry where
  sessions : Dict String AgentSession
  externalIndex : Dict String String
  events : Dict String (List SessionEvent)
  idempotency : List String

/-- Programs over the registry. -/
abbrev RegistryM := EStateM Fault SessionRegistry

/-- Active sessions and sessions that need attention come first when restoring. -/
def restorePriority (s : AgentSession) : ℕ :=
  if !isTerminal s.status || s.attention ≠ .none then 0 else 1

/-- The order in which stored sessions are loaded and restored. -/
def restoreBefore (a b : AgentSession) : Prop :=
  toLex (restorePriority a, -a.lastEventAtMs) ≤ toLex (restorePriority b, -b.lastEventAtMs)

instance : DecidableRel restoreBefore := fun _ _ => inferInstanceAs (Decidable (_ ≤ _))

/-- Keep the last `n` elements. -/
def keepLast {α : Type} (n : ℕ) (xs : List α) : List α :=
  xs.drop (xs.length - n)

/-- `min_by_key` : the first element with the smallest key. -/
def minByKey {α : Type} (key : α → ℤ) (xs : List α) : Option α :=
  @List.argmin α ℤ Int.instLinearOrder.toPreorder _ key xs

namespace SessionRegistry

/-- `SessionRegistry::new`. -/
def new : SessionRegistry := ⟨∅, ∅, ∅, []⟩

/-! ## Reading -/

def len (r : SessionRegistry) : ℕ := r.sessions.size

def get (r : SessionRegistry) (sessionId : String) : Option AgentSession :=
  r.sessions.lookup sessionId

def resolveExternal (r : SessionRegistry) (source : AgentSource) (externalSessionId : String) :
    Option AgentSession :=
  (r.externalIndex.lookup (externalKey source externalSessionId)).bind r.sessions.lookup

def eventsFor (r : SessionRegistry) (sessionId : String) : List SessionEvent :=
  (r.events.lookup sessionId).getD []

def nextEventSequence (r : SessionRegistry) (sessionId : String) : ℕ :=
  match (r.eventsFor sessionId).getLast? with
  | some e => e.sequence + 1
  | none => 1

def checkIdempotency (r : SessionRegistry) (key : String) : Bool :=
  r.idempotency.contains key

/-- The terminal session that ended first. -/
def oldestTerminalSessionId (r : SessionRegistry) (rank : String → ℕ) : Option String :=
  (minByKey (fun s => s.endedAtMs.getD s.lastEventAtMs)
    ((r.sessions.valuesBy rank).filter fun s => isTerminal s.status)).map (·.id)

/-- The session to evict before a new one fits. -/
def capacityEvictionCandidate (r : SessionRegistry) (rank : String → ℕ) :
    Except CoreError (Option String) :=
  if r.len < maxSessions then .ok none
  else match r.oldestTerminalSessionId rank with
    | some oldest => .ok (some oldest)
    | none => .error (.sessionCapacity maxSessions)

/-- Add an event to the selection unless the selection is full or has it. -/
def selectEvent (selected : List SessionEvent) (e : SessionEvent) : List SessionEvent :=
  if bootstrapMaxEvents ≤ selected.length then selected
  else if (selected.map (·.id)).contains e.id then selected
  else selected ++ [e]

/-- The events of a renderer bootstrap : the last ones of every active session, then the
most recent ones of all sessions. -/
def bootstrapEvents (r : SessionRegistry) (sessionsRank eventsRank : String → ℕ) :
    List SessionEvent :=
  let active := ((r.sessions.valuesBy sessionsRank).filter fun s =>
    restorePriority s = 0).insertionSort fun a b => b.lastEventAtMs ≤ a.lastEventAtMs
  let reserved := active.flatMap fun s =>
    keepLast bootstrapEventsPerActiveSession (r.eventsFor s.id)
  let recent := (r.events.valuesBy eventsRank).flatten.insertionSort fun a b =>
    toLex (b.occurredAtMs, b.sequence) ≤ toLex (a.occurredAtMs, a.sequence)
  (recent.foldl selectEvent (reserved.foldl selectEvent [])).insertionSort fun a b =>
    toLex (a.occurredAtMs, a.sequence) ≤ toLex (b.occurredAtMs, b.sequence)

/-! ## Changing -/

def recordIdempotency (key : String) : RegistryM Unit :=
  modify fun r => { r with idempotency := r.idempotency.insert key }

/-- Store a session under its id, and index its key. -/
def upsertSession (session : AgentSession) : RegistryM Unit := do
  check (validateExternalSessionId session.externalSessionId)
  modify fun r => { r with
    externalIndex := r.externalIndex.insert session.key session.id
    sessions := r.sessions.insert session.id session }

/-- Insert a session under a fresh identifier, or return the one its key has already. -/
def insertNewSession (cfg : CoreConfig) (source : AgentSource) (externalSessionId : String)
    (build : String → AgentSession) : RegistryM (AgentSession × Bool) := do
  check (validateExternalSessionId externalSessionId)
  let r ← MonadState.get
  match r.externalIndex.lookup (externalKey source externalSessionId) with
  | some existingId =>
    let existing ← expect "indexed session" (r.sessions.lookup existingId)
    pure (existing, true)
  | none =>
    ensure (decide (r.len < maxSessions)) (.sessionCapacity maxSessions)
    let session := build (cfg.sessionIdFor source externalSessionId)
    upsertSession session
    pure (session, false)

/-- Change a stored session in place. -/
def modifySession (sessionId : String) (f : AgentSession → AgentSession) : RegistryM Unit :=
  modify fun r => { r with sessions := r.sessions.adjust sessionId f }

/-- Add an event at the end, and drop the oldest ones beyond the limit. -/
def pushEvent (r : SessionRegistry) (e : SessionEvent) : SessionRegistry :=
  let kept := keepLast maxEventsPerSession (r.eventsFor e.sessionId ++ [e])
  { r with events := r.events.insert e.sessionId kept }

/-- Events must arrive in sequence. -/
def validateSequence (last : Option SessionEvent) (sequence : ℕ) : Except CoreError Unit :=
  match last with
  | some last =>
    if sequence = last.sequence + 1 then .ok ()
    else .error (.ingestRejected ("expected event sequence " ++
      toString (last.sequence + 1) ++ ", got " ++ toString sequence))
  | none =>
    if sequence = 1 then .ok ()
    else .error (.ingestRejected
      ("first event sequence must be 1, got " ++ toString sequence))

/-- Add the next event of a session; only the latest are kept. -/
def appendEvent (e : SessionEvent) : RegistryM Unit := do
  let r ← MonadState.get
  ensure (r.sessions.lookup e.sessionId).isSome (.sessionNotFound e.sessionId)
  -- `entry(..).or_default()` comes before the checks of the sequence
  modify fun r => { r with events := r.events.insert e.sessionId (r.eventsFor e.sessionId) }
  check (validateSequence (r.eventsFor e.sessionId).getLast? e.sequence)
  modify fun r => r.pushEvent e

/-- Drop a session, its events and its entry of the index. -/
def removeSession (sessionId : String) : RegistryM Unit := do
  let r ← MonadState.get
  let session ← okOr (.sessionNotFound sessionId) (r.sessions.lookup sessionId)
  modify fun r => { r with
    sessions := r.sessions.erase sessionId
    externalIndex := r.externalIndex.erase session.key
    events := r.events.erase sessionId }

/-- The order in which stored events are put back. -/
def eventBefore (a b : SessionEvent) : Prop :=
  toLex (a.sessionId, a.sequence) ≤ toLex (b.sessionId, b.sequence)

instance : DecidableRel eventBefore := fun _ _ => inferInstanceAs (Decidable (_ ≤ _))

/-- Put stored sessions and their events back, as many as fit. -/
def restore (sessions : List AgentSession) (events : List SessionEvent) : RegistryM Unit := do
  modify fun r => { r with sessions := ∅, externalIndex := ∅, events := ∅ }
  ((sessions.insertionSort restoreBefore).take maxSessions).forM upsertSession
  modify fun r =>
    ((events.filter fun e => (r.sessions.lookup e.sessionId).isSome).insertionSort
      eventBefore).foldl pushEvent r

def clearLatestMetrics : RegistryM Unit :=
  modify fun r =>
    { r with sessions := r.sessions.mapValues fun s => { s with latestMetric := none } }

def clearEvents : RegistryM Unit :=
  modify fun r => { r with events := ∅ }

end SessionRegistry

end LlmNotch
