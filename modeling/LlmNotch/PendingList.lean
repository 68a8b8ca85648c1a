import LlmNotch.DecisionEffects

/-!
# The list of pending decisions

`list_pending` joins two views : the rows of `decision_audit` that still say `Pending`, and
the entries of the `active` map. `submit_decision` looks at the map alone. The two views come
apart : a chosen answer is written to its row as `Pending`, a row is written before its entry
and outlives the process, and an entry may leave the map before its row is closed.

`listPending` is the list at one instant, `Answerable` says which requests `submit_decision`
would not turn away, and `Attended` that every open row has an open entry. A `restart` keeps
the audit table and nothing else. `list_is_answerable` : in every state of every run, with
restarts, the list has no duplicates, is ordered and misses nothing that can be answered, and
it is exact at exactly the instants where every open row is attended.
-/

namespace LlmNotch

/-! ## The list -/

/-- The `Debug` text of a decision kind. -/
def DecisionKind.debug : DecisionKind → String
  | approval => "Approval"
  | permission => "Permission"
  | question => "Question"

def parseAgentSource (raw : String) : AgentSource :=
  if raw = "Cursor" then .cursor
  else if raw = "ClaudeCode" then .claudeCode
  else if raw = "Codex" then .codex
  else if raw = "Gemini" then .gemini
  else if raw = "Generic" then .generic
  else .unknown

def parseDecisionKind (raw : String) : DecisionKind :=
  if raw = "Approval" then .approval
  else if raw = "Question" then .question
  else .permission

/-- The request `list_pending_requests` reads off a row : source and kind are stored as text. -/
def AuditRow.read (row : AuditRow) : DecisionRequest :=
  { row.request with
    source := parseAgentSource row.request.source.debug
    kind := parseDecisionKind row.request.kind.debug }

/-- The `WHERE` clause of `list_pending_requests`. -/
def AuditRow.isOpen (now : ℤ) (row : AuditRow) : Bool :=
  row.deliveryState = .pending && match row.request.expiresAtMs with
    | none => true
    | some expiresAtMs => now < expiresAtMs

/-- An entry `submit_decision` takes an answer for. -/
def ActiveDecision.isOpen (now : ℤ) (active : ActiveDecision) : Bool :=
  active.internalState = .pending && now < active.expiresAtMs

/-- Order by creation time; requests of one time keep their order. -/
def sortByCreation (requests : List DecisionRequest) : List DecisionRequest :=
  requests.insertionSort fun a b => a.createdAtMs ≤ b.createdAtMs

/-- The ids seen and the requests listed so far. -/
structure Listing where
  seen : List String
  pending : List DecisionRequest

/-- The loop body of `list_pending` over the `active` map. -/
def Listing.visit (now : ℤ) (l : Listing) (active : ActiveDecision) : Listing :=
  if active.internalState ≠ .pending then l
  else if active.expiresAtMs ≤ now then l
  else if active.request.id ∈ l.seen then l
  else ⟨active.request.id :: l.seen, l.pending ++ [active.request]⟩

namespace Broker

/-- `list_pending_requests`, with the rows of one creation time in the order of `rank`. -/
def listPendingRequests (b : Broker) (rank : String → ℕ) (now : ℤ) : List DecisionRequest :=
  sortByCreation (((Dict.valuesBy rank b.audit).filter (AuditRow.isOpen now)).map AuditRow.read)

/-- `list_pending`, with the `active` map iterated in the order of `rank`. -/
def listPending (b : Broker) (rank : String → ℕ) (now : ℤ) : List DecisionRequest :=
  let stored := b.listPendingRequests rank now
  let listing := (Dict.valuesBy rank b.active).foldl (Listing.visit now)
    ⟨stored.map DecisionRequest.id, stored⟩
  sortByCreation listing.pending

/-- The error `submit_decision` returns when it is called in this state at this time. -/
def submitError (b : Broker) (nonce : String) (response : DecisionResponse) (now : ℤ) :
    Option BrokerError :=
  match validateResponse response with
  | .error error => some error
  | .ok () =>
    match b.active.lookup nonce with
    | none => some .notFound
    | some active =>
      match checkSubmit active response now with
      | .refuse error => some error
      | .expire => some .expired
      | .fail detail _ => some (.adapter detail)
      | .choose _ => none

/-- A decision on this request would not be turned away as unknown, finalized or expired. -/
def Answerable (b : Broker) (nonce : String) (now : ℤ) : Prop :=
  ∀ action, b.submitError nonce (.action action) now ∉
    [some .notFound, some .alreadyFinalized, some .expired]

/-- Every open row of the audit table has an open entry in the map. -/
def Attended (b : Broker) (now : ℤ) : Prop :=
  ∀ nonce row, b.audit.lookup nonce = some row → row.isOpen now = true →
    ∃ active, b.active.lookup nonce = some active ∧ active.isOpen now = true

/-- The process starts again on its database. -/
def restart (b : Broker) : Broker :=
  { initial with audit := b.audit, history := b.history }

end Broker

/-- A step of the broker, or a restart of its process. -/
inductive ProcessAct where
  | act (act : Act)
  | restart

def Broker.processStep (cfg : BrokerConfig) (b : Broker) : ProcessAct → Option Broker
  | .act act => b.step cfg act
  | .restart => some b.restart

/-! ## Sorting -/

theorem sortByCreation_perm (requests : List DecisionRequest) :
    (sortByCreation requests).Perm requests :=
  List.perm_insertionSort _ _

theorem sortByCreation_pairwise (requests : List DecisionRequest) :
    (sortByCreation requests).Pairwise fun a b => a.createdAtMs ≤ b.createdAtMs := by
  have : Std.Total fun a b : DecisionRequest => a.createdAtMs ≤ b.createdAtMs :=
    ⟨fun a b => le_total a.createdAtMs b.createdAtMs⟩
  have : IsTrans DecisionRequest fun a b => a.createdAtMs ≤ b.createdAtMs :=
    ⟨fun _ _ _ => le_trans⟩
  exact List.pairwise_insertionSort _ _

/-! ## The loop over the map -/

namespace Listing

variable {now : ℤ} {l : Listing} {active : ActiveDecision}

/-- The ids of the requests listed so far. -/
def ids (l : Listing) : List String :=
  l.pending.map DecisionRequest.id

/-- Every listed id is marked as seen, and listed once. -/
structure Ok (l : Listing) : Prop where
  seen : ∀ id, id ∈ l.seen ↔ id ∈ l.ids
  nodup : l.ids.Nodup

theorem visit_cases (now : ℤ) (l : Listing) (active : ActiveDecision) :
    l.visit now active = l ∧ (active.isOpen now = true → active.request.id ∈ l.seen) ∨
    active.isOpen now = true ∧ active.request.id ∉ l.seen ∧
      l.visit now active = ⟨active.request.id :: l.seen, l.pending ++ [active.request]⟩ := by
  unfold visit ActiveDecision.isOpen
  split_ifs with hstate hexp hseen
  · exact Or.inl ⟨rfl, by simp [hstate]⟩
  · exact Or.inl ⟨rfl, by simp [Int.not_lt.2 hexp]⟩
  · exact Or.inl ⟨rfl, fun _ => hseen⟩
  · push Not at hstate hexp
    exact Or.inr ⟨by simp [hstate, hexp], hseen, rfl⟩

theorem mem_ids_visit (h : l.Ok) (id : String) :
    id ∈ (l.visit now active).ids ↔
      id ∈ l.ids ∨ active.isOpen now = true ∧ active.request.id = id := by
  rcases visit_cases now l active with ⟨hv, hseen⟩ | ⟨hopen, -, hv⟩
  · rw [hv]
    constructor
    · exact Or.inl
    · rintro (hl | ⟨hopen, rfl⟩)
      · exact hl
      · exact (h.seen _).1 (hseen hopen)
  · rw [hv]
    simp [ids, hopen, eq_comm]

theorem Ok.visit (h : l.Ok) (now : ℤ) (active : ActiveDecision) : (l.visit now active).Ok := by
  rcases visit_cases now l active with ⟨hv, -⟩ | ⟨-, hnew, hv⟩
  · rw [hv]
    exact h
  · have hids : active.request.id ∉ l.ids := fun hid => hnew ((h.seen _).2 hid)
    rw [hv]
    refine ⟨fun id => ?_, ?_⟩
    · have hseen := h.seen id
      simp only [ids, List.mem_cons, List.map_append, List.map_cons, List.map_nil,
        List.mem_append, List.not_mem_nil, or_false] at hseen ⊢
      rw [hseen, or_comm]
    · simpa [ids, List.nodup_append] using ⟨h.nodup, by simpa [ids, eq_comm] using hids⟩

/-- What the whole loop lists. -/
theorem foldl_visit (now : ℤ) (actives : List ActiveDecision) (h : l.Ok) :
    (actives.foldl (Listing.visit now) l).Ok ∧
      ∀ id, id ∈ (actives.foldl (Listing.visit now) l).ids ↔
        id ∈ l.ids ∨ ∃ active ∈ actives, active.isOpen now = true ∧ active.request.id = id := by
  induction actives generalizing l with
  | nil => exact ⟨h, by simp⟩
  | cons active actives ih =>
    obtain ⟨hok, hids⟩ := ih (h.visit now active)
    refine ⟨hok, fun id => ?_⟩
    rw [List.foldl_cons, hids, mem_ids_visit h]
    simp [or_assoc]

end Listing

namespace Broker

variable {cfg : BrokerConfig} {b b' : Broker} {tid : ℕ} {c : Choice} {q : Proc} {nonce : String}
  {now : ℤ}

/-! ## Requests under their own id -/

/-- Entries, rows and entries taken out of the map are kept under the id of their request. -/
structure Keyed (b : Broker) : Prop where
  active : ∀ nonce entry, b.active.lookup nonce = some entry → entry.request.id = nonce
  audit : ∀ nonce row, b.audit.lookup nonce = some row → row.request.id = nonce
  taken : ∀ tid p entry, b.procs tid = .waitRestore p entry → entry.request.id = p.nonce

theorem auditUpdate_keyed (ok : Bool) (n : String) (write : AuditWrite)
    (h : ∀ nonce row, b.audit.lookup nonce = some row → row.request.id = nonce) :
    ∀ nonce row, (b.auditUpdate ok n write).audit.lookup nonce = some row →
      row.request.id = nonce := by
  intro nonce row hrow
  unfold auditUpdate at hrow
  split at hrow
  · rename_i old hold
    rw [Dict.lookup_insert_ite] at hrow
    split_ifs at hrow with hn
    · subst hn
      cases hrow
      exact h nonce old hold
    · exact h nonce row hrow
  · exact h nonce row hrow

theorem auditUpsert_keyed (ok : Bool) (p : DecisionWaitPayload)
    (h : ∀ nonce row, b.audit.lookup nonce = some row → row.request.id = nonce) :
    ∀ nonce row, (b.auditUpsert ok cfg p).audit.lookup nonce = some row →
      row.request.id = nonce := by
  intro nonce row hrow
  cases ok with
  | false => exact h nonce row hrow
  | true =>
    simp only [auditUpsert, if_true, Dict.lookup_insert_ite] at hrow
    split_ifs at hrow with hn
    · subst hn
      cases hrow
      split
      · rename_i old hold
        exact h _ old hold
      · rfl
    · exact h nonce row hrow

theorem exec_audit_keyed (h : b.exec cfg tid c q = some b')
    (hb : ∀ nonce row, b.audit.lookup nonce = some row → row.request.id = nonce) :
    ∀ nonce row, b'.audit.lookup nonce = some row → row.request.id = nonce := by
  cases q
  case waitUpsert p =>
    cases h
    exact auditUpsert_keyed c.storeOk p hb
  case waitFinalize | submitFinalize | submitPersist | settlePersist | observePersist =>
    cases h
    exact auditUpdate_keyed c.storeOk _ _ hb
  all_goals
    have haudit : b'.audit = b.audit := by
      simp only [exec, whenFree, waitCheck, waitExpire, Broker.submitLock, Broker.settleLock,
        Broker.submitReturn, Broker.observeLock, submitReturn] at h
      repeat' split at h
      all_goals simp only [Option.some.injEq, reduceCtorEq] at h
      all_goals subst h; first | rfl | simp
    rw [haudit]
    exact hb

theorem Keyed.exec (hb : b.Keyed) (h : b.exec cfg tid c (b.procs tid) = some b') : b'.Keyed where
  audit := exec_audit_keyed h hb.audit
  active := by
    intro nonce entry hentry
    rcases exec_active nonce h with heq | ⟨-, ⟨-, hnone⟩ | ⟨p, k, -, hn, hp⟩ | ⟨p, e, hq, hn, he⟩ |
      ⟨e, s, he, -, hs⟩⟩
    · exact hb.active nonce entry (heq ▸ hentry)
    · rw [hnone] at hentry
      cases hentry
    · obtain rfl := Option.some.inj (hp.symm.trans hentry)
      exact hn
    · obtain rfl := Option.some.inj (he.symm.trans hentry)
      exact (hb.taken tid p _ hq).trans hn
    · obtain rfl := Option.some.inj (hs.symm.trans hentry)
      exact hb.active nonce e he
  taken := by
    intro t p entry hp
    obtain ⟨q', hg, hprocs, -⟩ := exec_goes h
    rw [hprocs] at hp
    by_cases ht : t = tid
    · subst ht
      rw [Function.update_self] at hp
      subst hp
      generalize hq : b.procs t = q at hg
      cases hg with
      | keep _ _ _ he => exact hb.active _ _ he
    · rw [Function.update_of_ne ht] at hp
      exact hb.taken t p entry hp

theorem Keyed.processStep {act : ProcessAct} (hb : b.Keyed)
    (h : b.processStep cfg act = some b') : b'.Keyed := by
  cases act with
  | restart =>
    cases h
    refine ⟨fun nonce entry he => ?_, hb.audit, fun tid p entry hp => ?_⟩
    · cases he
    · cases hp
  | act act =>
    cases act with
    | exec tid c => exact hb.exec h
    | spawn tid call =>
      simp only [Broker.processStep, Broker.step] at h
      split at h
      · cases h
        refine ⟨hb.active, hb.audit, fun t p entry hp => ?_⟩
        by_cases ht : t = tid
        · subst ht
          rw [goto_procs, Function.update_self] at hp
          cases call <;> cases hp
        · rw [goto_procs, Function.update_of_ne ht] at hp
          exact hb.taken t p entry hp
      · cases h

theorem keyed_initial : initial.Keyed := by
  refine ⟨fun nonce entry he => ?_, fun nonce row hr => ?_, fun tid p entry hp => ?_⟩
  · cases he
  · cases hr
  · cases hp

theorem keyed_of_run {acts : List ProcessAct}
    (h : run (Broker.processStep cfg) initial acts = some b) : b.Keyed :=
  Guarded.invariant (fun _ _ _ _ hk hs => hk.processStep hs) keyed_initial
    (Guarded.trivial _ _ _) h

/-! ## What is listed and what can be answered -/

theorem mem_read_id {rank : String → ℕ} (hb : b.Keyed) :
    nonce ∈ (b.listPendingRequests rank now).map DecisionRequest.id ↔
      ∃ row, b.audit.lookup nonce = some row ∧ row.isOpen now = true := by
  unfold listPendingRequests
  rw [((sortByCreation_perm _).map _).mem_iff]
  simp only [List.map_map, List.mem_map, List.mem_filter, Dict.mem_valuesBy, Function.comp_apply]
  constructor
  · rintro ⟨row, ⟨⟨k, hk⟩, hopen⟩, rfl⟩
    have hid : row.read.id = k := hb.audit k row hk
    exact ⟨row, by rw [hid, hk], hopen⟩
  · rintro ⟨row, hrow, hopen⟩
    exact ⟨row, ⟨⟨nonce, hrow⟩, hopen⟩, hb.audit nonce row hrow⟩

theorem nodup_read_id (hb : b.Keyed) (rank : String → ℕ) (now : ℤ) :
    ((b.listPendingRequests rank now).map DecisionRequest.id).Nodup := by
  unfold listPendingRequests
  rw [((sortByCreation_perm _).map _).nodup_iff, List.map_map]
  refine List.Nodup.sublist (List.Sublist.map _ List.filter_sublist) ?_
  exact Dict.nodup_valuesBy_map hb.audit rank

/-- The list has every id once : those of the open rows and those of the open entries. -/
theorem listPending_ids (hb : b.Keyed) (rank : String → ℕ) (now : ℤ) :
    ((b.listPending rank now).map DecisionRequest.id).Nodup ∧
      ∀ nonce, nonce ∈ (b.listPending rank now).map DecisionRequest.id ↔
        (∃ row, b.audit.lookup nonce = some row ∧ row.isOpen now = true) ∨
          ∃ active, b.active.lookup nonce = some active ∧ active.isOpen now = true := by
  let stored := b.listPendingRequests rank now
  have hok : (⟨stored.map DecisionRequest.id, stored⟩ : Listing).Ok :=
    ⟨fun _ => Iff.rfl, nodup_read_id hb rank now⟩
  obtain ⟨hfinal, hids⟩ := Listing.foldl_visit now (Dict.valuesBy rank b.active) hok
  have hperm := (sortByCreation_perm ((Dict.valuesBy rank b.active).foldl (Listing.visit now)
    ⟨stored.map DecisionRequest.id, stored⟩).pending).map DecisionRequest.id
  refine ⟨hperm.nodup_iff.2 hfinal.nodup, fun nonce => ?_⟩
  refine hperm.mem_iff.trans ((hids nonce).trans (or_congr (mem_read_id hb) ?_))
  constructor
  · rintro ⟨active, hmem, hopen, rfl⟩
    obtain ⟨k, hk⟩ := Dict.mem_valuesBy.1 hmem
    exact ⟨active, by rw [hb.active k active hk, hk], hopen⟩
  · rintro ⟨active, hlookup, hopen⟩
    exact ⟨active, Dict.mem_valuesBy.2 ⟨nonce, hlookup⟩, hopen, hb.active nonce active hlookup⟩

/-- An open entry is refused only for its own content. -/
theorem checkSubmit_isOpen {active : ActiveDecision} (h : active.isOpen now = true)
    (response : DecisionResponse) :
    checkSubmit active response now = .refuse .notActionable ∨
      checkSubmit active response now = checkStdout active response := by
  obtain ⟨hpending, hunexpired⟩ : active.internalState = .pending ∧ now < active.expiresAtMs := by
    simpa [ActiveDecision.isOpen] using h
  unfold checkSubmit
  rw [hpending]
  dsimp only
  rw [if_neg (not_le.2 hunexpired)]
  split_ifs
  · exact Or.inl rfl
  · exact Or.inr rfl

theorem checkStdout_fails_or_chooses (active : ActiveDecision) (response : DecisionResponse) :
    (∃ detail keep, checkStdout active response = .fail detail keep) ∨
      ∃ stdout, checkStdout active response = .choose stdout := by
  unfold checkStdout
  split
  · split_ifs
    · exact Or.inl ⟨_, _, rfl⟩
    · exact Or.inr ⟨_, rfl⟩
  · exact Or.inl ⟨_, _, rfl⟩
  · exact Or.inl ⟨_, _, rfl⟩

theorem answerable_iff :
    b.Answerable nonce now ↔
      ∃ active, b.active.lookup nonce = some active ∧ active.isOpen now = true := by
  constructor
  · intro h
    have herror := h .allow
    simp only [submitError, validateResponse] at herror
    cases hlookup : b.active.lookup nonce with
    | none => simp [hlookup] at herror
    | some active =>
      refine ⟨active, rfl, ?_⟩
      by_contra hclosed
      -- a closed entry is refused as finalized, or found expired
      simp only [hlookup, checkSubmit] at herror
      cases hstate : active.internalState with
      | pending =>
        have hexpired : active.expiresAtMs ≤ now := by
          simpa [ActiveDecision.isOpen, hstate] using hclosed
        simp [hstate, hexpired] at herror
      | _ => simp [hstate] at herror
  · rintro ⟨active, hlookup, hopen⟩ action
    simp only [submitError, validateResponse, hlookup]
    rcases checkSubmit_isOpen hopen (.action action) with hc | hc
    · cases action <;> simp [hc]
    · rcases checkStdout_fails_or_chooses active (.action action) with ⟨_, _, hs⟩ | ⟨_, hs⟩
      · cases action <;> simp [hc, hs]
      · cases action <;> simp [hc, hs]

/-! ## A submission on its own -/

/-! ## The list along runs -/

/-- In every state of every run, across restarts, and at every time : the list of pending
decisions has no duplicates, is ordered by creation time and has every request that can be
answered; it has no other request exactly if every open row has an open entry. -/
theorem list_is_answerable (cfg : BrokerConfig) (acts : List ProcessAct) (b : Broker)
    (h : run (Broker.processStep cfg) initial acts = some b) (rank : String → ℕ) (now : ℤ) :
    ((b.listPending rank now).map DecisionRequest.id).Nodup ∧
      (b.listPending rank now).Pairwise (fun r s => r.createdAtMs ≤ s.createdAtMs) ∧
      (∀ nonce, b.Answerable nonce now →
        nonce ∈ (b.listPending rank now).map DecisionRequest.id) ∧
      ((∀ nonce, nonce ∈ (b.listPending rank now).map DecisionRequest.id ↔
        b.Answerable nonce now) ↔ b.Attended now) := by
  obtain ⟨hnodup, hids⟩ := listPending_ids (keyed_of_run h) rank now
  refine ⟨hnodup, sortByCreation_pairwise _, fun nonce ha => ?_, ?_⟩
  · exact (hids nonce).2 (Or.inr (answerable_iff.1 ha))
  constructor
  · intro hexact nonce row hrow hopen
    exact answerable_iff.1 ((hexact nonce).1 ((hids nonce).2 (Or.inl ⟨row, hrow, hopen⟩)))
  · intro hattended nonce
    rw [hids, answerable_iff]
    constructor
    · rintro (⟨row, hrow, hopen⟩ | hactive)
      · exact hattended nonce row hrow hopen
      · exact hactive
    · exact Or.inr

/-- A wait is registered, and nothing else happens. -/
def registeredRun : List ProcessAct :=
  (Act.park 0 (sampleWait "ack-1")).map .act

/-- A registered wait is listed and can be answered until its window ends. -/
theorem list_is_answerable_registeredRun :
    ∃ b, run (Broker.processStep sampleConfig) initial registeredRun = some b ∧
      b.Attended 1001 ∧ (b.listPending String.length 1001).map DecisionRequest.id = ["ack-1"] ∧
      (∀ nonce, nonce ∈ (b.listPending String.length 1001).map DecisionRequest.id ↔
        b.Answerable nonce 1001) := by
  have hrun : ((run (Broker.processStep sampleConfig) initial registeredRun).map fun b =>
      (b.audit.keys, (b.listPending String.length 1001).map DecisionRequest.id,
        (b.active.lookup "ack-1").map (ActiveDecision.isOpen 1001))) =
      some (["ack-1"], ["ack-1"], some true) := by
    decide
  obtain ⟨b, hb, heq⟩ := Option.map_eq_some_iff.1 hrun
  simp only [Prod.mk.injEq] at heq
  obtain ⟨hkeys, hids, hopen⟩ := heq
  have hattended : b.Attended 1001 := by
    intro nonce row hrow _
    have hmem : nonce ∈ b.audit.keys := AList.lookup_isSome.1 (by rw [hrow]; rfl)
    obtain rfl : nonce = "ack-1" := by simpa [hkeys] using hmem
    exact Option.map_eq_some_iff.1 hopen
  exact ⟨b, hb, hattended, hids,
    (list_is_answerable sampleConfig registeredRun b hb String.length 1001).2.2.2.2 hattended⟩

/-- The answered wait of the broker's own test, and a wait whose process restarts : both are
listed inside their window, and neither can be answered. -/
theorem list_has_unanswerable :
    (∃ b, run (Broker.processStep sampleConfig) initial
        ((Act.park 0 (sampleWait "ack-1") ++ Act.submit 1 "ack-1" (.action .allow) 1001).map .act) =
          some b ∧
      "ack-1" ∈ (b.listPending String.length 1001).map DecisionRequest.id ∧
      b.submitError "ack-1" (.action .allow) 1001 = some .alreadyFinalized) ∧
    ∃ b, run (Broker.processStep sampleConfig) initial (registeredRun ++ [.restart]) = some b ∧
      "ack-1" ∈ (b.listPending String.length 1001).map DecisionRequest.id ∧
      b.submitError "ack-1" (.action .allow) 1001 = some .notFound := by
  have hchosen : ((run (Broker.processStep sampleConfig) initial
      ((Act.park 0 (sampleWait "ack-1") ++ Act.submit 1 "ack-1" (.action .allow) 1001).map
        .act)).map fun b => ((b.listPending String.length 1001).map DecisionRequest.id,
          b.submitError "ack-1" (.action .allow) 1001)) =
      some (["ack-1"], some .alreadyFinalized) := by
    decide
  have hrestart : ((run (Broker.processStep sampleConfig) initial
      (registeredRun ++ [.restart])).map fun b =>
        ((b.listPending String.length 1001).map DecisionRequest.id,
          b.submitError "ack-1" (.action .allow) 1001)) = some (["ack-1"], some .notFound) := by
    decide
  constructor
  · obtain ⟨b, hb, heq⟩ := Option.map_eq_some_iff.1 hchosen
    simp only [Prod.mk.injEq] at heq
    exact ⟨b, hb, by rw [heq.1]; exact List.mem_singleton_self _, heq.2⟩
  · obtain ⟨b, hb, heq⟩ := Option.map_eq_some_iff.1 hrestart
    simp only [Prod.mk.injEq] at heq
    exact ⟨b, hb, by rw [heq.1]; exact List.mem_singleton_self _, heq.2⟩

end Broker

end LlmNotch
