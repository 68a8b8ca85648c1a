import LlmNotch.CoreChanges

/-!
# Retention

`prune_with_metric_retention` deletes the events and the buckets of metrics that are too old, and
then the oldest events, five hundred at a time, while the file is too large. Whatever sizes the
file system reports, it ends (`pruneToTarget_ends`), and an event is only deleted before every
event that is more recent (`Retained`).

`prune_retains` : what is left after it returns, and what may be missing after it failed.
-/

namespace LlmNotch

/-! ## Events that stay -/

/-- Of `events`, those that stay are at least as recent as those that go. -/
structure Retained (events kept : List SessionEvent) : Prop where
  sublist : kept.Sublist events
  recent : ∀ e ∈ events, e ∉ kept → ∀ e' ∈ kept, e.occurredAtMs ≤ e'.occurredAtMs

theorem Retained.refl (events : List SessionEvent) : Retained events events :=
  ⟨.refl _, fun _ he hno => absurd he hno⟩

theorem Retained.trans {events kept kept' : List SessionEvent} (h : Retained events kept)
    (h' : Retained kept kept') : Retained events kept' where
  sublist := h'.sublist.trans h.sublist
  recent e he hno e' he' := by
    by_cases hkept : e ∈ kept
    · exact h'.recent e hkept hno e' he'
    · exact h.recent e he hkept e' (h'.sublist.subset he')

/-- The events from some time on. -/
theorem retained_since (events : List SessionEvent) (cutoff : ℤ) :
    Retained events (events.filter fun e => decide (cutoff ≤ e.occurredAtMs)) where
  sublist := List.filter_sublist
  recent e he hno e' he' := by
    have hold : ¬ cutoff ≤ e.occurredAtMs := fun hle =>
      hno (List.mem_filter.2 ⟨he, decide_eq_true hle⟩)
    have hnew := of_decide_eq_true (List.mem_filter.1 he').2
    omega

namespace Repository

/-- The events a batch leaves. -/
def afterBatch (db : Database) : List SessionEvent :=
  db.events.filter fun e => !(oldestEvents db).contains e.id

def byTime (events : List SessionEvent) : List SessionEvent :=
  events.insertionSort fun a b => a.occurredAtMs ≤ b.occurredAtMs

section Batches

variable {db : Database}

section

variable (hids : (db.events.map (·.id)).Nodup)

include hids

theorem mem_oldest {e : SessionEvent} (he : e ∈ db.events) :
    e.id ∈ oldestEvents db ↔ e ∈ (byTime db.events).take 500 := by
  unfold oldestEvents
  rw [List.mem_map]
  refine ⟨?_, fun hmem => ⟨e, hmem, rfl⟩⟩
  rintro ⟨e', hmem, hid⟩
  have he' : e' ∈ db.events := (List.mem_insertionSort _).1 (List.mem_of_mem_take hmem)
  rwa [← List.inj_on_of_nodup_map hids he' he hid]

/-- A batch leaves all but the first five hundred events. -/
theorem afterBatch_perm : (afterBatch db).Perm ((byTime db.events).drop 500) := by
  have hperm : (byTime db.events).Perm db.events := List.perm_insertionSort _ _
  have hnodup : (byTime db.events).Nodup := hperm.nodup_iff.2 (List.Nodup.of_map _ hids)
  have hkept : afterBatch db =
      db.events.filter fun e => decide (e ∉ (byTime db.events).take 500) := by
    refine List.filter_congr fun e he => ?_
    have hmem := mem_oldest hids he
    by_cases hold : e ∈ (byTime db.events).take 500
    · simp [hmem.2 hold, hold]
    · simp [hold, mt hmem.1 hold]
  rw [hkept]
  refine (hperm.symm.filter _).trans (List.Perm.of_eq ?_)
  rw [← List.take_append_drop 500 (byTime db.events), List.nodup_append] at hnodup
  conv_lhs => rw [← List.take_append_drop 500 (byTime db.events)]
  rw [List.filter_append, List.take_append_drop]
  have htake : ((byTime db.events).take 500).filter
      (fun e => decide (e ∉ (byTime db.events).take 500)) = [] := by
    refine List.filter_eq_nil_iff.2 fun e he => ?_
    simpa using he
  have hdrop : ((byTime db.events).drop 500).filter
      (fun e => decide (e ∉ (byTime db.events).take 500)) = (byTime db.events).drop 500 := by
    refine List.filter_eq_self.2 fun e he => ?_
    exact decide_eq_true fun htaken => hnodup.2.2 e htaken e he rfl
  rw [htake, hdrop, List.nil_append]

theorem length_afterBatch : (afterBatch db).length = db.events.length - 500 := by
  rw [(afterBatch_perm hids).length_eq, List.length_drop]
  exact congrArg (· - 500) (List.length_insertionSort _ _)

theorem retained_afterBatch : Retained db.events (afterBatch db) where
  sublist := List.filter_sublist
  recent e he hno e' he' := by
    have hsorted : (byTime db.events).Pairwise fun a b => a.occurredAtMs ≤ b.occurredAtMs :=
      List.pairwise_insertionSort _ _
    rw [← List.take_append_drop 500 (byTime db.events), List.pairwise_append] at hsorted
    refine hsorted.2.2 e ?_ e' ((afterBatch_perm hids).mem_iff.1 he')
    by_contra hold
    refine hno (List.mem_filter.2 ⟨he, ?_⟩)
    simpa using mt (mem_oldest hids he).1 hold

end

end Batches

/-! ## The loop -/

/-- Only events are gone, the oldest ones first. -/
structure Thinned (db db' : Database) : Prop where
  events : Retained db.events db'.events
  others : db' = { db with events := db'.events }

theorem Thinned.refl (db : Database) : Thinned db db :=
  ⟨.refl _, rfl⟩

theorem Thinned.trans {db db' db'' : Database} (h : Thinned db db') (h' : Thinned db' db'') :
    Thinned db db'' := by
  refine ⟨h.events.trans h'.events, h'.others.trans ?_⟩
  rw [h.others]

theorem thinned_batch {db : Database} (hids : (db.events.map (·.id)).Nodup) :
    Thinned db { db with events := afterBatch db } :=
  ⟨retained_afterBatch hids, rfl⟩

theorem Thinned.ids {db db' : Database} (h : Thinned db db')
    (hids : (db.events.map (·.id)).Nodup) : (db'.events.map (·.id)).Nodup :=
  (h.events.sublist.map _).nodup hids

theorem Thinned.length_le {db db' : Database} (h : Thinned db db') :
    db'.events.length ≤ db.events.length :=
  h.events.sublist.length_le

/-- How often in a row the file is too large. -/
def timesTooLarge (sizes : List ℕ) : ℕ :=
  (sizes.takeWhile fun bytes => decide (pruneTargetBytes < bytes)).length

/-- A batch is deleted for every time the file is too large. -/
theorem wp_pruneToTarget_thinned (sizes : List ℕ) : ∀ (deleted : ℕ) (s : Store),
    (s.db.events.map (·.id)).Nodup →
    wp (pruneToTarget deleted sizes) s
      (fun r t => Thinned s.db t.db ∧
        t.db.events.length = s.db.events.length - 500 * timesTooLarge sizes ∧
        r.1 + t.db.events.length = deleted + s.db.events.length ∧
        (r.2 ≤ pruneTargetBytes ∨ t.db.events = []))
      (fun f t => Thinned s.db t.db ∧ ∃ detail, f = .other detail) := by
  induction sizes with
  | nil => exact fun deleted s _ => ⟨.refl _, rfl, rfl, .inl (Nat.zero_le _)⟩
  | cons bytes sizes ih =>
    intro deleted s hids
    unfold pruneToTarget
    split_ifs with hlarge
    · have htimes : timesTooLarge (bytes :: sizes) = timesTooLarge sizes + 1 := by
        unfold timesTooLarge
        rw [List.takeWhile_cons_of_pos (by simpa using hlarge)]
        rfl
      rw [wp_bind]
      refine wp_statement (fun count db hdb => ?_) fun detail _ => ⟨.refl _, detail, rfl⟩
      obtain ⟨hcount, rfl⟩ := Prod.mk.inj (Except.ok.inj hdb)
      have hlength := length_afterBatch hids
      have hcount' : count = s.db.events.length - (afterBatch s.db).length := hcount.symm
      have hthinned := thinned_batch hids
      split_ifs with hzero
      · have hempty : s.db.events = [] := by
          rw [← List.length_eq_zero_iff]
          omega
        have hkept : afterBatch s.db = [] := by
          rw [← List.length_eq_zero_iff, hlength, hempty]
          rfl
        rw [wp_pure]
        refine ⟨hthinned, ?_, ?_, .inr hkept⟩
        · show (afterBatch s.db).length = _
          rw [hkept, hempty]
          exact (Nat.zero_sub _).symm
        · show deleted + (afterBatch s.db).length = _
          rw [hkept, hempty]
      · refine wp_mono (ih (deleted + count) _ (hthinned.ids hids)) ?_ ?_
        · rintro r t ⟨hthin, hleft, hsum, hend⟩
          dsimp only at hleft hsum
          refine ⟨hthinned.trans hthin, ?_, ?_, hend⟩
          · rw [hleft]
            show (afterBatch s.db).length - _ = _
            rw [hlength, htimes]
            omega
          · have hsum' : r.1 + t.db.events.length =
                deleted + count + (afterBatch s.db).length := hsum
            have hle := hthinned.length_le
            dsimp only at hle
            omega
        · rintro f t ⟨hthin, hf⟩
          exact ⟨hthinned.trans hthin, hf⟩
    · have htimes : timesTooLarge (bytes :: sizes) = 0 := by
        unfold timesTooLarge
        rw [List.takeWhile_cons_of_neg (by simpa using hlarge)]
        rfl
      rw [wp_pure, htimes]
      exact ⟨.refl _, rfl, rfl, .inl (not_lt.1 hlarge)⟩

/-- Programs that go on alike after the same result. -/
theorem bind_congr_ok {α β : Type} {m : StoreM α} {f g : α → StoreM β} {s : Store}
    (h : ∀ a t, m s = .ok a t → f a t = g a t) : (m >>= f) s = (m >>= g) s := by
  show EStateM.bind m f s = EStateM.bind m g s
  unfold EStateM.bind
  cases hm : m s with
  | ok a t => exact h a t hm
  | error fault t => rfl

theorem statement_ok {α : Type} {sql : Database → Except String (α × Database)} {s t : Store}
    {a : α} (h : statement sql s = .ok a t) : sql s.db = .ok (a, t.db) :=
  wp_ok (Q := fun a t => sql s.db = .ok (a, t.db)) (E := fun _ _ => True)
    (wp_statement (fun _ _ hdb => hdb) fun _ _ => trivial) h

/-- The loop ends before it has asked for all of the sizes, if there are enough of them. -/
theorem pruneToTarget_ends (more : List ℕ) (sizes : List ℕ) : ∀ (deleted : ℕ) (s : Store),
    (s.db.events.map (·.id)).Nodup → sizes ≠ [] →
    s.db.events.length ≤ 500 * (sizes.length - 1) →
    pruneToTarget deleted (sizes ++ more) s = pruneToTarget deleted sizes s := by
  induction sizes with
  | nil => exact fun _ _ _ hne => absurd rfl hne
  | cons bytes sizes ih =>
    intro deleted s hids _ hlength
    rw [List.cons_append, pruneToTarget, pruneToTarget]
    split_ifs with hlarge
    · refine bind_congr_ok fun count t hm => ?_
      obtain ⟨hcount, hdb⟩ := Prod.mk.inj (Except.ok.inj (statement_ok hm))
      have hcount' : s.db.events.length - (afterBatch s.db).length = count := hcount
      have hevents : t.db.events = afterBatch s.db := by
        rw [← hdb]
        rfl
      have hkept := length_afterBatch hids
      split_ifs with hzero
      · rfl
      · have hids' : (t.db.events.map (·.id)).Nodup := by
          rw [hevents]
          exact (thinned_batch hids).ids hids
        rw [List.length_cons, Nat.add_sub_cancel] at hlength
        refine ih (deleted + count) t hids' ?_ ?_
        · rintro rfl
          rw [List.length_nil] at hlength
          omega
        · rw [hevents]
          omega
    · rfl

/-! ## A prune -/

/-- Buckets from the retention on. -/
def recentBuckets (nowMs metricRetentionMs : ℤ) (rows : List MetricBucket) : List MetricBucket :=
  rows.filter fun b => decide (nowMs - max metricRetentionMs 0 ≤ b.bucketStartMs)

def recentEvents (nowMs : ℤ) (events : List SessionEvent) : List SessionEvent :=
  events.filter fun e => decide (nowMs - eventRetentionMs ≤ e.occurredAtMs)

/-- What a prune leaves. -/
structure Pruned (nowMs metricRetentionMs : ℤ) (sizes : List ℕ) (db : Database)
    (report : PurgeReport) (db' : Database) : Prop where
  events : Retained (recentEvents nowMs db.events) db'.events
  eventCount : db'.events.length =
    (recentEvents nowMs db.events).length - 500 * timesTooLarge sizes
  eventsDeleted : report.eventsDeleted + db'.events.length = db.events.length
  size : report.bytesAfter ≤ pruneTargetBytes ∨ db'.events = []
  metricBuckets : db'.metricBuckets = recentBuckets nowMs metricRetentionMs db.metricBuckets
  metricBucketsDeleted : report.metricBucketsDeleted + db'.metricBuckets.length =
    db.metricBuckets.length
  sessions : db'.sessions =
    if 0 < report.metricBucketsDeleted then (forgetLatestMetrics db).sessions else db.sessions
  settings : db'.settings = db.settings
  integrations : db'.integrations = db.integrations
  idempotencyKeys : db'.idempotencyKeys = db.idempotencyKeys

/-- What a prune may have done before it failed. -/
structure PartlyPruned (nowMs metricRetentionMs : ℤ) (db db' : Database) : Prop where
  events : Retained db.events db'.events
  metricBuckets : db'.metricBuckets = db.metricBuckets ∨
    db'.metricBuckets = recentBuckets nowMs metricRetentionMs db.metricBuckets
  sessions : db'.sessions = db.sessions ∨ db'.sessions = (forgetLatestMetrics db).sessions
  settings : db'.settings = db.settings
  integrations : db'.integrations = db.integrations
  idempotencyKeys : db'.idempotencyKeys = db.idempotencyKeys

section Prune

variable {nowMs metricRetentionMs : ℤ} {sizes : List ℕ} {db : Database}

/-- The store after the old rows are deleted. -/
def aged (nowMs metricRetentionMs : ℤ) (db : Database) : Database :=
  { db with
    events := recentEvents nowMs db.events
    metricBuckets := recentBuckets nowMs metricRetentionMs db.metricBuckets }

theorem PartlyPruned.thin {db₁ db₂ : Database} (h : PartlyPruned nowMs metricRetentionMs db db₁)
    (hthin : Thinned db₁ db₂) : PartlyPruned nowMs metricRetentionMs db db₂ := by
  have hothers := hthin.others
  refine ⟨h.events.trans hthin.events, ?_, ?_, ?_, ?_, ?_⟩
  all_goals rw [hothers]
  · exact h.metricBuckets
  · exact h.sessions
  · exact h.settings
  · exact h.integrations
  · exact h.idempotencyKeys

/-- The loop and the checkpoint. -/
def thinning (eventsDeleted metricBucketsDeleted : ℕ) (sizes : List ℕ) : StoreM PurgeReport := do
  let (eventsDeleted, bytesAfter) ← pruneToTarget eventsDeleted sizes
  execute fun db => db
  pure ⟨eventsDeleted, metricBucketsDeleted, bytesAfter⟩

theorem wp_thinning (hids : (db.events.map (·.id)).Nodup) {eventsDeleted metricBucketsDeleted : ℕ}
    (hevents : eventsDeleted + (recentEvents nowMs db.events).length = db.events.length)
    (hbuckets : metricBucketsDeleted +
      (recentBuckets nowMs metricRetentionMs db.metricBuckets).length = db.metricBuckets.length)
    {s : Store} (hstore : s.db = if 0 < metricBucketsDeleted then
      forgetLatestMetrics (aged nowMs metricRetentionMs db) else aged nowMs metricRetentionMs db) :
    wp (thinning eventsDeleted metricBucketsDeleted sizes) s
      (fun report t => Pruned nowMs metricRetentionMs sizes db report t.db)
      (fun f t => PartlyPruned nowMs metricRetentionMs db t.db ∧ ∃ detail, f = .other detail) := by
  have hsevents : s.db.events = recentEvents nowMs db.events := by
    rw [hstore]
    split_ifs <;> rfl
  have hsids : (s.db.events.map (·.id)).Nodup := by
    rw [hsevents]
    exact ((retained_since db.events _).sublist.map _).nodup hids
  have hpartly : PartlyPruned nowMs metricRetentionMs db s.db := by
    refine ⟨hsevents ▸ retained_since db.events _, .inr ?_, ?_, ?_, ?_, ?_⟩
    all_goals rw [hstore]
    · split_ifs <;> rfl
    · split_ifs
      · exact .inr rfl
      · exact .inl rfl
    all_goals split_ifs <;> rfl
  unfold thinning
  rw [wp_bind]
  refine wp_mono (wp_pruneToTarget_thinned sizes eventsDeleted s hsids) ?_ ?_
  · rintro ⟨deleted, bytesAfter⟩ t ⟨hthin, hcount, hsum, hsize⟩
    rw [wp_bind]
    refine wp_statement (fun _ db' hdb => ?_) fun detail _ => ⟨hpartly.thin hthin, detail, rfl⟩
    obtain ⟨-, rfl⟩ := Prod.mk.inj (Except.ok.inj hdb)
    have hothers := hthin.others
    dsimp only at hsum
    rw [hsevents] at hcount hsum
    rw [wp_pure]
    refine ⟨hsevents ▸ hthin.events, hcount, hsum.trans hevents, hsize, ?_, ?_, ?_, ?_, ?_, ?_⟩
    all_goals
      dsimp only
      rw [hothers, hstore]
    · split_ifs <;> rfl
    · refine Eq.trans ?_ hbuckets
      split_ifs <;> rfl
    all_goals split_ifs <;> rfl
  · rintro f t ⟨hthin, hf⟩
    exact ⟨hpartly.thin hthin, hf⟩

theorem wp_prune (hids : (db.events.map (·.id)).Nodup) (faults : List Bool) :
    wp (pruneWithMetricRetention nowMs metricRetentionMs sizes) ⟨db, faults⟩
      (fun report t => Pruned nowMs metricRetentionMs sizes db report t.db)
      (fun f t => PartlyPruned nowMs metricRetentionMs db t.db ∧ ∃ detail, f = .other detail) := by
  have hevents : (recentEvents nowMs db.events).length ≤ db.events.length :=
    List.length_filter_le _ _
  have hbuckets : (recentBuckets nowMs metricRetentionMs db.metricBuckets).length ≤
      db.metricBuckets.length := List.length_filter_le _ _
  have hrecent : Retained db.events (recentEvents nowMs db.events) := retained_since db.events _
  unfold pruneWithMetricRetention
  rw [wp_bind]
  refine wp_statement (fun count db₁ hdb => ?_) fun detail _ =>
    ⟨⟨.refl _, .inl rfl, .inl rfl, rfl, rfl, rfl⟩, detail, rfl⟩
  obtain ⟨rfl, rfl⟩ := Prod.mk.inj (Except.ok.inj hdb)
  rw [wp_bind]
  refine wp_statement (fun count db₂ hdb => ?_) fun detail _ =>
    ⟨⟨hrecent, .inl rfl, .inl rfl, rfl, rfl, rfl⟩, detail, rfl⟩
  obtain ⟨rfl, rfl⟩ := Prod.mk.inj (Except.ok.inj hdb)
  rw [wp_bind, wp_onlyIf]
  have hcount : (db.events.length - (recentEvents nowMs db.events).length) +
      (recentEvents nowMs db.events).length = db.events.length := Nat.sub_add_cancel hevents
  have hbucketCount : (db.metricBuckets.length -
      (recentBuckets nowMs metricRetentionMs db.metricBuckets).length) +
      (recentBuckets nowMs metricRetentionMs db.metricBuckets).length =
        db.metricBuckets.length := Nat.sub_add_cancel hbuckets
  refine ⟨fun hsome => ?_, fun hnone => ?_⟩
  · refine wp_statement (fun _ db₃ hdb => ?_) fun detail _ =>
      ⟨⟨hrecent, .inr rfl, .inl rfl, rfl, rfl, rfl⟩, detail, rfl⟩
    obtain ⟨-, rfl⟩ := Prod.mk.inj (Except.ok.inj hdb)
    exact wp_thinning hids hcount hbucketCount (if_pos (of_decide_eq_true hsome)).symm
  · exact wp_thinning hids hcount hbucketCount (if_neg (of_decide_eq_false hnone)).symm

theorem prune_ends (hids : (db.events.map (·.id)).Nodup) (faults : List Bool)
    (hne : sizes ≠ []) (hlength : (recentEvents nowMs db.events).length ≤ 500 * (sizes.length - 1))
    (more : List ℕ) :
    pruneWithMetricRetention nowMs metricRetentionMs (sizes ++ more) ⟨db, faults⟩ =
      pruneWithMetricRetention nowMs metricRetentionMs sizes ⟨db, faults⟩ := by
  have hids' : ((recentEvents nowMs db.events).map (·.id)).Nodup :=
    ((retained_since db.events _).sublist.map _).nodup hids
  have hloop : ∀ (deleted : ℕ) (s : Store), s.db.events = recentEvents nowMs db.events →
      pruneToTarget deleted (sizes ++ more) s = pruneToTarget deleted sizes s := fun deleted s hs =>
    pruneToTarget_ends more sizes deleted s (hs ▸ hids') hne (hs ▸ hlength)
  have hrest : ∀ (deleted buckets : ℕ) (s : Store), s.db.events = recentEvents nowMs db.events →
      thinning deleted buckets (sizes ++ more) s = thinning deleted buckets sizes s := by
    intro deleted buckets s hs
    show EStateM.bind _ _ s = EStateM.bind _ _ s
    unfold EStateM.bind
    rw [hloop deleted s hs]
  unfold pruneWithMetricRetention
  refine bind_congr_ok fun deleted t ht => bind_congr_ok fun buckets u hu =>
    bind_congr_ok fun _ v hv => hrest deleted buckets v ?_
  have htdb := (Prod.mk.inj (Except.ok.inj (statement_ok ht))).2
  have hudb := (Prod.mk.inj (Except.ok.inj (statement_ok hu))).2
  have huevents : u.db.events = recentEvents nowMs db.events := by
    rw [← hudb, ← htdb]
    rfl
  refine wp_ok (Q := fun _ v => v.db.events = recentEvents nowMs db.events)
    (E := fun _ _ => True) ?_ hv
  rw [wp_onlyIf]
  refine ⟨fun _ => wp_statement (fun _ db' hdb => ?_) fun _ _ => trivial, fun _ => huevents⟩
  obtain ⟨-, rfl⟩ := Prod.mk.inj (Except.ok.inj hdb)
  exact huevents

/-- Whatever sizes the file system reports, a prune leaves what is not too old but the oldest
events, five hundred for every time the file was too large. One that fails has deleted events
from the oldest on. It asks for no more sizes than there are batches, and one. -/
theorem prune_retains (db : Database) (hids : (db.events.map (·.id)).Nodup) (faults : List Bool)
    (nowMs metricRetentionMs : ℤ) (sizes : List ℕ) :
    (∀ report t, pruneWithMetricRetention nowMs metricRetentionMs sizes ⟨db, faults⟩ =
      .ok report t → Pruned nowMs metricRetentionMs sizes db report t.db) ∧
    (∀ f t, pruneWithMetricRetention nowMs metricRetentionMs sizes ⟨db, faults⟩ = .error f t →
      PartlyPruned nowMs metricRetentionMs db t.db) ∧
    (sizes ≠ [] → (recentEvents nowMs db.events).length ≤ 500 * (sizes.length - 1) → ∀ more,
      pruneWithMetricRetention nowMs metricRetentionMs (sizes ++ more) ⟨db, faults⟩ =
        pruneWithMetricRetention nowMs metricRetentionMs sizes ⟨db, faults⟩) := by
  have hwp : wp (pruneWithMetricRetention nowMs metricRetentionMs sizes) ⟨db, faults⟩ _ _ :=
    wp_prune hids faults
  refine ⟨fun report t hok => ?_, fun f t herror => ?_, fun hne hlength more => ?_⟩
  · have hpruned := wp_ok hwp hok
    exact hpruned
  · exact (wp_error hwp herror).1
  · exact prune_ends hids faults hne hlength more

theorem prune_retains_tooLarge :
    Pruned 5 0 [pruneTargetBytes + 1, 0]
      { events := [⟨1, "s", 1, 5, .status, .info, "m", none⟩,
        ⟨2, "s", 2, 4, .tool, .info, "m", some "t"⟩, ⟨3, "t", 1, 3, .status, .info, "m", none⟩] }
      ⟨3, 0, 0⟩ {} :=
  (prune_retains _ (by decide) [] 5 0 [pruneTargetBytes + 1, 0]).1 ⟨3, 0, 0⟩ ⟨{}, []⟩ (by rfl)

end Prune

end Repository

end LlmNotch
