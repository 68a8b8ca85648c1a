import LlmNotch.CoreEffects

/-!
# Pages of events

`session_event_page` gives the newest events of a session below a sequence, one page at a time.
The statement asks for one row more than fits : if it comes, there are more events, and the page
ends before it. The next page is asked for below the first sequence of this one.

Between two calls the core may do anything that leaves the session registered. The sequences of
the pages fall, so going from page to page ends (`exists_traverses`), and an event that is stored
all the time is on one of the pages, once (`event_pages_complete`).
-/

namespace LlmNotch

structure SessionEventPage where
  events : List SessionEvent
  nextBeforeSequence : Option ℕ
  hasMore : Bool
  deriving DecidableEq

/-- The condition of the statement on a sequence. -/
def IsBefore (beforeSequence : Option ℕ) (sequence : ℕ) : Prop :=
  ∀ before ∈ beforeSequence, sequence < before

instance (beforeSequence : Option ℕ) (sequence : ℕ) :
    Decidable (IsBefore beforeSequence sequence) :=
  inferInstanceAs (Decidable (∀ before ∈ beforeSequence, sequence < before))

namespace Repository

/-- The events of a session below a sequence, the newest first. -/
def eventsBefore (db : Database) (sessionId : String) (beforeSequence : Option ℕ) :
    List SessionEvent :=
  (db.events.filter fun e => e.sessionId = sessionId ∧
    IsBefore beforeSequence e.sequence).insertionSort fun a b => b.sequence ≤ a.sequence

/-- The page of at most `limit` events from the rows of the statement. -/
def eventPage (limit : ℕ) (rows : List SessionEvent) : SessionEventPage :=
  let hasMore := decide (limit < rows.length)
  let events := (if hasMore then rows.dropLast else rows).reverse
  { events
    nextBeforeSequence := if hasMore then events.head?.map (·.sequence) else none
    hasMore }

def loadSessionEventPage (sessionId : String) (beforeSequence : Option ℕ) (limit : ℕ) :
    StoreM SessionEventPage := do
  let rows ← query fun db => (eventsBefore db sessionId beforeSequence).take (limit + 1)
  pure (eventPage limit rows)

end Repository

namespace AppCore

def sessionEventPage (sessionId : String) (beforeSequence : Option ℕ) (limit : ℕ) :
    CoreM SessionEventPage := do
  check (validateSessionId sessionId)
  ensure (decide (limit ≠ 0 ∧ limit ≤ maxEventPageSize))
    (.validation ("event page limit must be 1..=" ++ toString maxEventPageSize))
  ensure (decide (beforeSequence ≠ some 0))
    (.validation "before_sequence must be greater than zero")
  let w ← get
  ensure (w.registry.get sessionId).isSome (.sessionNotFound sessionId)
  onStore (Repository.loadSessionEventPage sessionId beforeSequence limit)

end AppCore

/-! ## One page -/

/-- No two events of a session have one sequence. -/
def UniqueSequences (db : Database) : Prop :=
  (db.events.map fun e => (e.sessionId, e.sequence)).Nodup

section Page

variable {db : Database} {sessionId : String} {beforeSequence : Option ℕ} {limit : ℕ}
  {e : SessionEvent}

open Repository

theorem mem_eventsBefore : e ∈ eventsBefore db sessionId beforeSequence ↔
    e ∈ db.events ∧ e.sessionId = sessionId ∧ IsBefore beforeSequence e.sequence := by
  simp [eventsBefore, List.mem_insertionSort]

theorem eventsBefore_sorted (hunique : UniqueSequences db) (sessionId : String)
    (beforeSequence : Option ℕ) :
    (eventsBefore db sessionId beforeSequence).Pairwise fun a b => b.sequence < a.sequence := by
  have : Std.Total fun a b : SessionEvent => b.sequence ≤ a.sequence :=
    ⟨fun a b => le_total b.sequence a.sequence⟩
  have : IsTrans SessionEvent fun a b => b.sequence ≤ a.sequence :=
    ⟨fun _ _ _ hab hbc => le_trans hbc hab⟩
  have hle : (eventsBefore db sessionId beforeSequence).Pairwise fun a b =>
      b.sequence ≤ a.sequence := List.pairwise_insertionSort _ _
  have hne : (eventsBefore db sessionId beforeSequence).Pairwise fun a b =>
      (a.sessionId, a.sequence) ≠ (b.sessionId, b.sequence) := by
    refine List.pairwise_map.1 (?_ : List.Nodup _)
    rw [eventsBefore, ((List.perm_insertionSort _ _).map _).nodup_iff]
    exact hunique.sublist (List.filter_sublist.map _)
  refine (hle.and hne).imp_of_mem fun {a b} ha hb h => ?_
  have hsession := (mem_eventsBefore.1 ha).2.1.trans (mem_eventsBefore.1 hb).2.1.symm
  exact lt_of_le_of_ne h.1 fun hsame => h.2 (by rw [hsession, hsame])

/-- The page that a call gives. -/
def pageOf (db : Database) (sessionId : String) (beforeSequence : Option ℕ) (limit : ℕ) :
    SessionEventPage :=
  eventPage limit ((eventsBefore db sessionId beforeSequence).take (limit + 1))

theorem pageOf_events (db : Database) (sessionId : String) (beforeSequence : Option ℕ)
    (limit : ℕ) : (pageOf db sessionId beforeSequence limit).events =
      ((eventsBefore db sessionId beforeSequence).take limit).reverse := by
  unfold pageOf eventPage
  dsimp only
  rw [List.length_take]
  by_cases hmore : limit < (eventsBefore db sessionId beforeSequence).length
  · rw [if_pos (decide_eq_true (by omega)), List.dropLast_eq_take, List.take_take,
      List.length_take]
    congr 2
    omega
  · rw [if_neg (by rw [decide_eq_true_eq]; omega), List.take_of_length_le (by omega),
      List.take_of_length_le (by omega)]

theorem pageOf_hasMore (db : Database) (sessionId : String) (beforeSequence : Option ℕ)
    (limit : ℕ) : (pageOf db sessionId beforeSequence limit).hasMore = true ↔
      limit < (eventsBefore db sessionId beforeSequence).length := by
  unfold pageOf eventPage
  simp only [List.length_take, decide_eq_true_eq]
  omega

theorem mem_of_mem_pageOf (h : e ∈ (pageOf db sessionId beforeSequence limit).events) :
    e ∈ db.events ∧ e.sessionId = sessionId ∧ IsBefore beforeSequence e.sequence := by
  rw [pageOf_events, List.mem_reverse] at h
  exact mem_eventsBefore.1 (List.mem_of_mem_take h)

theorem pageOf_sorted (hunique : UniqueSequences db) : (pageOf db sessionId beforeSequence
    limit).events.Pairwise fun a b => a.sequence < b.sequence := by
  rw [pageOf_events, List.pairwise_reverse]
  exact (eventsBefore_sorted hunique sessionId beforeSequence).sublist (List.take_sublist _ _)

/-- The last page has all the events that are left. -/
theorem mem_pageOf_last (hmore : (pageOf db sessionId beforeSequence limit).hasMore = false)
    (he : e ∈ db.events) (hsession : e.sessionId = sessionId)
    (hbefore : IsBefore beforeSequence e.sequence) :
    e ∈ (pageOf db sessionId beforeSequence limit).events := by
  have hshort : ¬limit < (eventsBefore db sessionId beforeSequence).length := by
    rw [← pageOf_hasMore, hmore]
    exact Bool.false_ne_true
  rw [pageOf_events, List.mem_reverse, List.take_of_length_le (Nat.le_of_not_lt hshort)]
  exact mem_eventsBefore.2 ⟨he, hsession, hbefore⟩

/-- Another page has the events from the next cursor on. -/
theorem pageOf_next (hunique : UniqueSequences db) (hlimit : limit ≠ 0)
    (hmore : (pageOf db sessionId beforeSequence limit).hasMore = true) :
    ∃ next, (pageOf db sessionId beforeSequence limit).nextBeforeSequence = some next ∧
      next ≠ 0 ∧ IsBefore beforeSequence next ∧
      (∀ e ∈ (pageOf db sessionId beforeSequence limit).events, next ≤ e.sequence) ∧
      ∀ e ∈ db.events, e.sessionId = sessionId → IsBefore beforeSequence e.sequence →
        next ≤ e.sequence → e ∈ (pageOf db sessionId beforeSequence limit).events := by
  have hsorted := eventsBefore_sorted hunique sessionId beforeSequence
  have hlong := (pageOf_hasMore db sessionId beforeSequence limit).1 hmore
  obtain ⟨before, last, htake⟩ : ∃ before last,
      (eventsBefore db sessionId beforeSequence).take limit = before ++ [last] := by
    rcases List.eq_nil_or_concat ((eventsBefore db sessionId beforeSequence).take limit) with
      hnil | ⟨before, last, htake⟩
    · have hlength := congrArg List.length hnil
      rw [List.length_take, List.length_nil] at hlength
      omega
    · exact ⟨before, last, htake.trans List.concat_eq_append⟩
  obtain ⟨extra, rest, hdrop⟩ := List.exists_cons_of_ne_nil
    (fun hnil => absurd (List.drop_eq_nil_iff.1 hnil) (Nat.not_le_of_lt hlong))
  have hsplit : eventsBefore db sessionId beforeSequence = before ++ [last] ++ extra :: rest := by
    rw [← htake, ← hdrop, List.take_append_drop]
  rw [hsplit] at hsorted
  have hevents : (pageOf db sessionId beforeSequence limit).events = last :: before.reverse := by
    rw [pageOf_events, htake, List.reverse_concat]
  have hlast : last ∈ (pageOf db sessionId beforeSequence limit).events := by
    rw [hevents]
    exact List.mem_cons_self
  obtain ⟨hfront, hback, hacross⟩ := List.pairwise_append.1 hsorted
  refine ⟨last.sequence, ?_, ?_, (mem_of_mem_pageOf hlast).2.2, fun e he => ?_, ?_⟩
  · have hnext : (pageOf db sessionId beforeSequence limit).nextBeforeSequence =
        if (pageOf db sessionId beforeSequence limit).hasMore then
          (pageOf db sessionId beforeSequence limit).events.head?.map (·.sequence) else none := rfl
    rw [hnext, hmore, hevents]
    rfl
  · have hextra := hacross last (by simp) extra List.mem_cons_self
    omega
  · rw [hevents, List.mem_cons, List.mem_reverse] at he
    rcases he with rfl | he
    · exact le_rfl
    · exact ((List.pairwise_append.1 hfront).2.2 e he last List.mem_cons_self).le
  · intro e he hsession hbefore hge
    have hmem := mem_eventsBefore.2 ⟨he, hsession, hbefore⟩
    rw [hsplit, List.mem_append] at hmem
    rcases hmem with hmem | hmem
    · rwa [pageOf_events, List.mem_reverse, htake]
    · have hless := hacross last (by simp) e hmem
      omega

end Page

/-! ## From page to page -/

/-- What a call of `session_event_page` returns while the disk works. -/
def pageAt (sessionId : String) (limit : ℕ) (s : CoreState) (beforeSequence : Option ℕ) :
    Option SessionEventPage :=
  match AppCore.sessionEventPage sessionId beforeSequence limit (s.world.entered {}) with
  | .ok page _ => some page
  | .error _ _ => none

/-- Going from page to page, with the k-th call in the k-th state, until there are no more. -/
inductive Traverses (states : ℕ → CoreState) (sessionId : String) (limit : ℕ) :
    ℕ → Option ℕ → List SessionEventPage → Prop
  | last {k : ℕ} {beforeSequence : Option ℕ} {page : SessionEventPage}
      (hpage : pageAt sessionId limit (states k) beforeSequence = some page)
      (hmore : page.hasMore = false) : Traverses states sessionId limit k beforeSequence [page]
  | more {k : ℕ} {beforeSequence : Option ℕ} {page : SessionEventPage}
      {pages : List SessionEventPage}
      (hpage : pageAt sessionId limit (states k) beforeSequence = some page)
      (hmore : page.hasMore = true)
      (hrest : Traverses states sessionId limit (k + 1) page.nextBeforeSequence pages) :
      Traverses states sessionId limit k beforeSequence (page :: pages)

section Traversal

variable {states : ℕ → CoreState} {sessionId : String} {limit : ℕ}

variable {beforeSequence : Option ℕ} {pages : List SessionEventPage}

theorem pageAt_eq {s : CoreState} (hid : validateSessionId sessionId = .ok ()) (hlimit : limit ≠ 0)
    (hmax : limit ≤ maxEventPageSize) (hbefore : beforeSequence ≠ some 0)
    (hkept : (s.world.registry.get sessionId).isSome = true) :
    pageAt sessionId limit s beforeSequence =
      some (pageOf s.world.db sessionId beforeSequence limit) := by
  have hrange : decide (limit ≠ 0 ∧ limit ≤ maxEventPageSize) = true :=
    decide_eq_true ⟨hlimit, hmax⟩
  have hcursor : decide (beforeSequence ≠ some 0) = true := decide_eq_true hbefore
  have hkept' : ((s.world.entered {}).registry.get sessionId).isSome = true := hkept
  have hcall : wp (AppCore.sessionEventPage sessionId beforeSequence limit) (s.world.entered {})
      (fun page _ => page = pageOf s.world.db sessionId beforeSequence limit)
      fun _ _ => False := by
    unfold AppCore.sessionEventPage
    simp only [wp_bind, hid, wp_check, wp_ensure, wp_get, hrange, hcursor, hkept']
    refine ⟨fun _ _ => ⟨fun _ => ⟨fun _ => ⟨fun _ => ?_, ?_⟩, ?_⟩, ?_⟩, ?_⟩
    · exact rfl
    all_goals simp
  unfold pageAt
  unfold wp at hcall
  split at hcall
  · rename_i page w hok
    rw [hok, hcall]
  · exact hcall.elim

variable (hunique : ∀ k, UniqueSequences (states k).world.db)
  (hid : validateSessionId sessionId = .ok ()) (hlimit : limit ≠ 0)
  (hmax : limit ≤ maxEventPageSize)
  (hkept : ∀ k, ((states k).world.registry.get sessionId).isSome = true)

include hunique hid hlimit hmax hkept

/-- The cursors fall, so there is a last page. -/
theorem exists_traverses (k : ℕ) (hbefore : beforeSequence ≠ some 0) :
    ∃ pages, Traverses states sessionId limit k beforeSequence pages := by
  have hsome : ∀ before ≠ 0, ∀ k, ∃ pages,
      Traverses states sessionId limit k (some before) pages := by
    intro before
    induction before using Nat.strong_induction_on with
    | _ before ih =>
    intro hpos k
    have hpage := pageAt_eq hid hlimit hmax (fun h => hpos (Option.some.inj h)) (hkept k)
    cases hmore : (pageOf (states k).world.db sessionId (some before) limit).hasMore with
    | false => exact ⟨_, .last hpage hmore⟩
    | true =>
      obtain ⟨next, hnext, hnext', hlt, -⟩ := pageOf_next (hunique k) hlimit hmore
      obtain ⟨pages, hpages⟩ := ih next (hlt before rfl) hnext' (k + 1)
      exact ⟨_, .more hpage hmore (hnext ▸ hpages)⟩
  have hpage := pageAt_eq hid hlimit hmax hbefore (hkept k)
  cases hmore : (pageOf (states k).world.db sessionId beforeSequence limit).hasMore with
  | false => exact ⟨_, .last hpage hmore⟩
  | true =>
    obtain ⟨next, hnext, hnext', -⟩ := pageOf_next (hunique k) hlimit hmore
    obtain ⟨pages, hpages⟩ := hsome next hnext' (k + 1)
    exact ⟨_, .more hpage hmore (hnext ▸ hpages)⟩

/-- Pages come in falling order, each of them in rising order. -/
theorem Traverses.ordered {k : ℕ} (h : Traverses states sessionId limit k beforeSequence pages)
    (hbefore : beforeSequence ≠ some 0) :
    (∀ page ∈ pages, page.events.Pairwise fun a b => a.sequence < b.sequence) ∧
    (pages.Pairwise fun p q => ∀ a ∈ p.events, ∀ b ∈ q.events, b.sequence < a.sequence) ∧
    ∀ page ∈ pages, ∀ e ∈ page.events, e.sessionId = sessionId ∧
      IsBefore beforeSequence e.sequence := by
  induction h with
  | @last k before page hpage hmore =>
    obtain rfl := Option.some.inj
      ((pageAt_eq hid hlimit hmax hbefore (hkept k)).symm.trans hpage)
    simp only [List.mem_singleton, forall_eq]
    exact ⟨pageOf_sorted (hunique k), List.pairwise_singleton _ _,
      fun e he => (mem_of_mem_pageOf he).2⟩
  | @more k before page pages hpage hmore hrest ih =>
    obtain rfl := Option.some.inj
      ((pageAt_eq hid hlimit hmax hbefore (hkept k)).symm.trans hpage)
    obtain ⟨next, hnext, hnext', hlt, hfrom, -⟩ := pageOf_next (hunique k) hlimit hmore
    rw [hnext] at ih
    obtain ⟨hsorted, hpairs, hbelow⟩ := ih fun h => hnext' (Option.some.inj h)
    refine ⟨List.forall_mem_cons.2 ⟨pageOf_sorted (hunique k), hsorted⟩,
      List.pairwise_cons.2 ⟨fun q hq a ha b hb => ?_, hpairs⟩,
      List.forall_mem_cons.2 ⟨fun e he => (mem_of_mem_pageOf he).2, fun q hq e he => ?_⟩⟩
    · exact ((hbelow q hq b hb).2 next rfl).trans_le (hfrom a ha)
    · refine ⟨(hbelow q hq e he).1, fun bound hbound => ?_⟩
      exact ((hbelow q hq e he).2 next rfl).trans (hlt bound hbound)

/-- An event that is stored all the time is on the pages once. -/
theorem Traverses.count_eq_one {k : ℕ} {e : SessionEvent}
    (h : Traverses states sessionId limit k beforeSequence pages)
    (hbefore : beforeSequence ≠ some 0) (hsession : e.sessionId = sessionId)
    (he : IsBefore beforeSequence e.sequence)
    (hstored : ∀ j < pages.length, e ∈ (states (k + j)).world.db.events) :
    (pages.flatMap (·.events)).count e = 1 := by
  have hnodup : ∀ {j : ℕ} {before : Option ℕ},
      (pageOf (states j).world.db sessionId before limit).events.Nodup := fun {j before} =>
    (pageOf_sorted (hunique j)).imp fun hlt heq => absurd (congrArg (·.sequence) heq) hlt.ne
  induction h with
  | @last k before page hpage hmore =>
    obtain rfl := Option.some.inj
      ((pageAt_eq hid hlimit hmax hbefore (hkept k)).symm.trans hpage)
    have hmem := mem_pageOf_last hmore (hstored 0 (by simp)) hsession he
    rw [List.flatMap_singleton]
    exact List.count_eq_one_of_mem hnodup hmem
  | @more k before page pages hpage hmore hrest ih =>
    obtain rfl := Option.some.inj
      ((pageAt_eq hid hlimit hmax hbefore (hkept k)).symm.trans hpage)
    obtain ⟨next, hnext, hnext', hlt, hfrom, hall⟩ := pageOf_next (hunique k) hlimit hmore
    have hcursor : some next ≠ some 0 := fun h => hnext' (Option.some.inj h)
    rw [hnext] at hrest ih
    rw [List.flatMap_cons, List.count_append]
    by_cases hge : next ≤ e.sequence
    · -- on this page, and below the later ones
      have hmem := hall e (hstored 0 (by simp)) hsession he hge
      have hlater : e ∉ pages.flatMap (·.events) := by
        intro hin
        obtain ⟨q, hq, hqe⟩ := List.mem_flatMap.1 hin
        have hbelow := ((hrest.ordered hunique hid hlimit hmax hkept hcursor).2.2 q hq e hqe).2
        have hlt' := hbelow next rfl
        omega
      rw [List.count_eq_one_of_mem hnodup hmem, List.count_eq_zero_of_not_mem hlater]
    · have hout : e ∉ (pageOf (states k).world.db sessionId before limit).events :=
        fun hin => hge (hfrom e hin)
      have hstored' : ∀ j < pages.length, e ∈ (states (k + 1 + j)).world.db.events := by
        intro j hj
        have hnext := hstored (j + 1) (by rw [List.length_cons]; omega)
        rwa [show k + (j + 1) = k + 1 + j by omega] at hnext
      rw [List.count_eq_zero_of_not_mem hout, Nat.zero_add]
      refine ih hcursor (fun bound hbound => ?_) hstored'
      cases hbound
      omega

end Traversal

/-! ## In every run -/

theorem uniqueSequences_change {fresh quiet : Prop} {w w' : World} (h : UniqueSequences w.db)
    (hc : Change fresh quiet w w') : UniqueSequences w'.db := by
  cases hc with
  | @store id s store hs hdb =>
    have hevents : store.db.events = w.db.events := by
      rw [(Repository.upsertSessionSql_ok hdb).1]
    show (store.db.events.map _).Nodup
    rw [hevents]
    exact h
  | @storeEvent e store he hdb =>
    have hnew := (Repository.insertEventSql_fresh hdb).2
    show (store.db.events.map _).Nodup
    rw [(Repository.insertEventSql_ok hdb).1, List.map_append]
    exact List.Nodup.append h (List.nodup_singleton _) (List.disjoint_singleton.2 hnew)
  | @removeRows id store hdb =>
    show (store.db.events.map _).Nodup
    rw [hdb]
    exact h.sublist (List.filter_sublist.map _)
  | other hr hdb => exact h.sublist (hdb.events.map _)
  | assign => exact h
  | pushEvent => exact h
  | remove => exact h
  | insert => exact h
  | reinsert => exact h
  | clearMetrics => exact h
  | clearEvents => exact h

theorem uniqueSequences_evolves {fresh quiet : Prop} {w w' : World} (h : UniqueSequences w.db)
    (he : Evolves fresh quiet w w') : UniqueSequences w'.db := by
  induction he with
  | refl => exact h
  | tail _ hc ih => exact uniqueSequences_change ih hc

/-- The constraint of the table holds in every state. -/
theorem uniqueSequences_run {cfg : CoreConfig} {s t : CoreState} {acts : List CoreAct}
    (h : UniqueSequences s.world.db) (hrun : run (coreStep cfg) s acts = some t) :
    UniqueSequences t.world.db := by
  refine Guarded.invariant (I := fun s => UniqueSequences s.world.db) (fun s a t _ h hstep => ?_) h
    (Guarded.trivial _ _ acts) hrun
  rcases step_cases False False False.elim False.elim hstep with he | ⟨settings, -, hdb⟩
  · exact uniqueSequences_evolves h he
  · rw [hdb]
    exact h

/-- From a state the core reaches, while it goes on between the calls in any way that keeps the
session registered, going from page to page ends. The pages come in falling order, and an event
that is stored at every call is on one of them, once. -/
theorem event_pages_complete {cfg : CoreConfig} {env : Env} {settings : PublicSettings}
    {db : Database} {s₀ : CoreState} {acts : List CoreAct} {states : ℕ → CoreState}
    {sessionId : String} {limit : ℕ} (hdb : UniqueSequences db)
    (hstart : startCore cfg env settings db = some s₀)
    (hfirst : run (coreStep cfg) s₀ acts = some (states 0))
    (hnext : ∀ k, ∃ acts, run (coreStep cfg) (states k) acts = some (states (k + 1)))
    (hid : validateSessionId sessionId = .ok ()) (hlimit : 1 ≤ limit)
    (hmax : limit ≤ maxEventPageSize)
    (hkept : ∀ k, ((states k).world.registry.get sessionId).isSome = true) :
    ∃ pages, Traverses states sessionId limit 0 none pages ∧
      (∀ page ∈ pages, page.events.Pairwise fun a b => a.sequence < b.sequence) ∧
      (pages.Pairwise fun p q => ∀ a ∈ p.events, ∀ b ∈ q.events, b.sequence < a.sequence) ∧
      ∀ e, e.sessionId = sessionId → (∀ k < pages.length, e ∈ (states k).world.db.events) →
        (pages.flatMap (·.events)).count e = 1 := by
  have h₀ : UniqueSequences s₀.world.db := (startCore_spec hstart).2 ▸ hdb
  have hunique : ∀ k, UniqueSequences (states k).world.db := by
    intro k
    induction k with
    | zero => exact uniqueSequences_run h₀ hfirst
    | succ k ih =>
      obtain ⟨acts, hrun⟩ := hnext k
      exact uniqueSequences_run ih hrun
  have hlimit' : limit ≠ 0 := by omega
  have hnone : (none : Option ℕ) ≠ some 0 := fun h => by cases h
  obtain ⟨pages, hpages⟩ := exists_traverses hunique hid hlimit' hmax hkept 0 hnone
  obtain ⟨hsorted, hpairs, -⟩ := hpages.ordered hunique hid hlimit' hmax hkept hnone
  refine ⟨pages, hpages, hsorted, hpairs, fun e hsession hstored => ?_⟩
  refine hpages.count_eq_one hunique hid hlimit' hmax hkept hnone hsession
    (fun _ h => by cases h) fun j hj => ?_
  rw [Nat.zero_add]
  exact hstored j hj

/-- A session and two more events. -/
def pagedRun : List CoreAct :=
  CoreAct.perform 0 (.ingest (.sessionStart (sampleStart .generic "e"))) { uuid := 1 } ++
    CoreAct.perform 1 (.ingest (.lifecycleEvent (sampleEvent .generic "e"))) { uuid := 2 } ++
    CoreAct.perform 2 (.ingest (.lifecycleEvent (sampleEvent .generic "e"))) { uuid := 3 }

/-- Its events are on the pages once. -/
theorem event_pages_complete_pagedRun : ∃ s₀ s,
    startCore sampleCoreConfig {} sampleSettings { integrations := sampleIntegrations } =
      some s₀ ∧
    run (coreStep sampleCoreConfig) s₀ pagedRun = some s ∧ s.world.db.events.length = 3 ∧
    ∃ pages, Traverses (fun _ => s) "Generic:e" 2 0 none pages ∧
      ∀ e ∈ s.world.db.events, e.sessionId = "Generic:e" →
        (pages.flatMap (·.events)).count e = 1 := by
  have hrun : ((startCore sampleCoreConfig {} sampleSettings
      { integrations := sampleIntegrations }).bind fun s₀ =>
        (run (coreStep sampleCoreConfig) s₀ pagedRun).map fun s =>
          (s.world.db.events.length, (s.world.registry.get "Generic:e").isSome)) =
      some (3, true) := by
    decide
  obtain ⟨s₀, hs₀, hrun⟩ := Option.bind_eq_some_iff.1 hrun
  obtain ⟨s, hs, hvalues⟩ := Option.map_eq_some_iff.1 hrun
  simp only [Prod.mk.injEq] at hvalues
  obtain ⟨pages, hpages, -, -, hcount⟩ := @event_pages_complete sampleCoreConfig {} sampleSettings
    _ s₀ pagedRun (fun _ => s) "Generic:e" 2 (by simp [UniqueSequences]) hs₀ hs
    (fun _ => ⟨[], rfl⟩) (by decide) (by decide) (by decide) fun _ => hvalues.2
  exact ⟨s₀, s, hs₀, hs, hvalues.1, pages, hpages, fun e he hsession =>
    hcount e hsession fun _ _ => he⟩

end LlmNotch
