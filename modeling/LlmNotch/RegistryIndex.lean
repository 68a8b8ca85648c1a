import LlmNotch.CoreEffects

/-!
# The index of the registry

The sessions of the registry and its index by external key are inverse to each other
(`Indexed`). Every change of the world keeps this but one : inserting a session under an
identifier that is stored already. Identifiers are computed from the source of a session,
and migration 5 rewrites sources without recomputing them, so a row it has moved can occupy
the identifier of a session of its old source; `index_broken_by_migrated_row` is such a run.

`index_inverse` : in every run in which no start overwrites a stored session, the index is
inverse to the sessions in every state, and no section panics.
-/

namespace LlmNotch

/-! ## External keys -/

theorem AgentSource.debug_injective : Function.Injective AgentSource.debug := by
  intro a b h
  cases a <;> cases b <;> first | rfl | exact absurd h (by decide)

theorem AgentSource.colon_notMem_debug (source : AgentSource) :
    ':' ∉ source.debug.toList := by
  cases source <;> decide

theorem externalKey_inj {a b : AgentSource} {x y : String} :
    externalKey a x = externalKey b y ↔ a = b ∧ x = y := by
  constructor
  · intro h
    have hlist : a.debug.toList ++ ':' :: x.toList = b.debug.toList ++ ':' :: y.toList := by
      simpa [externalKey, String.toList_append] using congrArg String.toList h
    have hname : ∀ (source : AgentSource) (rest : List Char),
        (source.debug.toList ++ ':' :: rest).takeWhile (· ≠ ':') = source.debug.toList := by
      intro source rest
      rw [List.takeWhile_append_of_pos]
      · simp
      · rintro c hc
        simpa using fun he : c = ':' => source.colon_notMem_debug (he ▸ hc)
    have hd := congrArg (List.takeWhile (· ≠ ':')) hlist
    rw [hname, hname] at hd
    rw [hd] at hlist
    have hx := List.cons.inj (List.append_cancel_left hlist)
    exact ⟨AgentSource.debug_injective (String.toList_inj.1 hd), String.toList_inj.1 hx.2⟩
  · rintro ⟨rfl, rfl⟩
    rfl

/-! ## Changes keep the index -/

namespace Indexed

variable {r r' : SessionRegistry}

theorem new : Indexed SessionRegistry.new where
  keyed h := by simp [SessionRegistry.new] at h
  indexed h := by simp [SessionRegistry.new] at h
  reachable h := by simp [SessionRegistry.new] at h

/-- Changing sessions in place. -/
theorem congr (h : Indexed r) (hi : ∀ k, r'.externalIndex.lookup k = r.externalIndex.lookup k)
    (hto : ∀ {id s}, r.sessions.lookup id = some s →
      ∃ t, r'.sessions.lookup id = some t ∧ t.key = s.key)
    (hfrom : ∀ {id t}, r'.sessions.lookup id = some t →
      ∃ s, r.sessions.lookup id = some s ∧ t.id = s.id ∧ t.key = s.key) : Indexed r' where
  keyed ht := by
    obtain ⟨s, hs, hid, -⟩ := hfrom ht
    exact hid.trans (h.keyed hs)
  indexed hk := by
    rw [hi] at hk
    obtain ⟨s, hs, rfl⟩ := h.indexed hk
    exact hto hs
  reachable ht := by
    obtain ⟨s, hs, -, hkey⟩ := hfrom ht
    rw [hi, hkey]
    exact h.reachable hs

theorem of_eq (h : Indexed r) (hs : r'.sessions = r.sessions)
    (hi : r'.externalIndex = r.externalIndex) : Indexed r' :=
  h.congr (fun _ => by rw [hi]) (fun ht => ⟨_, by rw [hs]; exact ht, rfl⟩)
    (fun ht => ⟨_, by rw [← hs]; exact ht, rfl, rfl⟩)

variable {s : AgentSession}

/-- Replacing a stored session by one with the same identity. -/
theorem replace (h : Indexed r) (hi : ∀ k, r'.externalIndex.lookup k = r.externalIndex.lookup k)
    {id : String} {t : AgentSession} (hs : r.sessions.lookup id = some s) (ht : Succeeds s t)
    (hr : ∀ k, r'.sessions.lookup k = if k = id then some t else r.sessions.lookup k) :
    Indexed r' := by
  refine h.congr hi (fun {k u} hu => ?_) (fun {k u} hu => ?_)
  · rw [hr]
    split
    · rename_i hk
      rw [hk, hs] at hu
      cases hu
      exact ⟨t, rfl, ht.key⟩
    · exact ⟨u, hu, rfl⟩
  · rw [hr] at hu
    split at hu
    · rename_i hk
      cases hu
      exact ⟨s, hk ▸ hs, ht.id, ht.key⟩
    · exact ⟨u, hu, rfl, rfl⟩

theorem insert (h : Indexed r) (hk : r.externalIndex.lookup s.key = none)
    (hid : r.sessions.lookup s.id = none) :
    Indexed { r with
      externalIndex := r.externalIndex.insert s.key s.id
      sessions := r.sessions.insert s.id s } where
  keyed ht := by
    rw [Dict.lookup_insert_ite] at ht
    split at ht
    · rename_i he
      cases ht
      exact he.symm
    · exact h.keyed ht
  indexed {k id} hki := by
    simp only [Dict.lookup_insert_ite] at hki ⊢
    split at hki
    · rename_i he
      cases hki
      exact ⟨s, if_pos rfl, he.symm⟩
    · obtain ⟨t, ht, hkey⟩ := h.indexed hki
      have hne : id ≠ s.id := by
        rintro rfl
        rw [hid] at ht
        cases ht
      exact ⟨t, by rw [if_neg hne]; exact ht, hkey⟩
  reachable {id t} ht := by
    simp only [Dict.lookup_insert_ite] at ht ⊢
    split at ht
    · rename_i he
      cases ht
      rw [if_pos rfl, he]
    · have hreach := h.reachable ht
      have hne : t.key ≠ s.key := by
        intro he
        rw [he, hk] at hreach
        cases hreach
      rw [if_neg hne]
      exact hreach

theorem remove {id : String} (h : Indexed r) (hs : r.sessions.lookup id = some s) :
    Indexed { r with
      sessions := r.sessions.erase id
      externalIndex := r.externalIndex.erase s.key
      events := r.events.erase id } where
  keyed ht := by
    rw [Dict.lookup_erase_ite] at ht
    split at ht
    · cases ht
    · exact h.keyed ht
  indexed {k i} hk := by
    simp only [Dict.lookup_erase_ite] at hk ⊢
    split at hk
    · cases hk
    · rename_i hne
      obtain ⟨t, ht, hkey⟩ := h.indexed hk
      have hi : i ≠ id := by
        rintro rfl
        rw [hs] at ht
        cases ht
        exact hne hkey.symm
      exact ⟨t, by rw [if_neg hi]; exact ht, hkey⟩
  reachable {i t} ht := by
    simp only [Dict.lookup_erase_ite] at ht ⊢
    split at ht
    · cases ht
    · rename_i hne
      have hreach := h.reachable ht
      have hkey : t.key ≠ s.key := by
        intro he
        rw [he, h.reachable hs] at hreach
        exact hne (Option.some.inj hreach).symm
      rw [if_neg hkey]
      exact hreach

end Indexed

variable {quiet : Prop} {w w' : World} {rows : List AgentSession}

/-- A change keeps the index if inserted sessions are fresh. -/
theorem Change.indexed (h : Change True quiet w w') (hi : Indexed w.registry) :
    Indexed w'.registry := by
  cases h with
  | assign hs ht =>
    refine hi.replace (fun _ => rfl) hs ht fun k => ?_
    show (w.registry.sessions.adjust _ _).lookup k = _
    rw [Dict.lookup_adjust, hs]
    rfl
  | store hs hdb => exact hi
  | pushEvent hs he => exact hi.of_eq rfl rfl
  | storeEvent he hdb => exact hi
  | removeRows hdb => exact hi
  | remove hs hrow hev => exact hi.remove hs
  | insert hk hlen hfresh => exact hi.insert hk (hfresh trivial)
  | reinsert hs ht hk =>
    refine hi.replace (fun k => ?_) hs ht fun k => Dict.lookup_insert_ite _ k _ _
    show (w.registry.externalIndex.insert _ _).lookup k = _
    rw [Dict.lookup_insert_ite]
    split
    · rename_i he
      rw [he, hk]
    · rfl
  | clearMetrics =>
    refine hi.congr (fun _ => rfl) (fun {id s} hs => ⟨{ s with latestMetric := none }, ?_, rfl⟩)
      (fun {id t} ht => ?_)
    · show (w.registry.sessions.mapValues _).lookup id = _
      rw [Dict.lookup_mapValues, hs]
      rfl
    · have hmap : (w.registry.sessions.mapValues
          fun s => { s with latestMetric := none }).lookup id = some t := ht
      rw [Dict.lookup_mapValues] at hmap
      obtain ⟨s, hs, rfl⟩ := Option.map_eq_some_iff.1 hmap
      exact ⟨s, hs, rfl, rfl⟩
  | clearEvents hquiet => exact hi.of_eq rfl rfl
  | other hr hdb => exact hi.of_eq hr.sessions hr.externalIndex

theorem Evolves.indexed (h : Evolves True quiet w w') (hi : Indexed w.registry) :
    Indexed w'.registry := by
  induction h with
  | refl => exact hi
  | tail _ hc ih => exact hc.indexed ih

/-! ## Stored rows -/

/-- The constraints of the table `sessions`. -/
structure DistinctRows (rows : List AgentSession) : Prop where
  ids : (rows.map (·.id)).Nodup
  keys : (rows.map fun row => (row.source, row.externalSessionId)).Nodup

namespace DistinctRows

variable {rows rows' : List AgentSession}

/-- Only the identifying columns count. -/
theorem of_identity (h : DistinctRows rows)
    (hi : rows'.map AgentSession.identity = rows.map AgentSession.identity) :
    DistinctRows rows' := by
  have hids := congrArg (List.map Prod.fst) hi
  have hkeys := congrArg (List.map Prod.snd) hi
  simp only [List.map_map] at hids hkeys
  exact ⟨hids ▸ h.ids, hkeys ▸ h.keys⟩

theorem sublist (h : DistinctRows rows) (hs : rows'.Sublist rows) : DistinctRows rows' :=
  ⟨h.ids.sublist (hs.map _), h.keys.sublist (hs.map _)⟩

theorem perm (h : DistinctRows rows) (hp : rows'.Perm rows) : DistinctRows rows' :=
  ⟨(hp.map _).nodup_iff.2 h.ids, (hp.map _).nodup_iff.2 h.keys⟩

theorem upsert {s : AgentSession} {db db' : Database} {u : Unit}
    (h : DistinctRows db.sessions)
    (hs : Repository.upsertSessionSql s db = .ok (u, db')) : DistinctRows db'.sessions := by
  obtain ⟨rfl, hkey⟩ := Repository.upsertSessionSql_ok hs
  have hmerge : ∀ y x, (Repository.mergeSession y x).id = y.id := fun _ _ => rfl
  refine ⟨nodup_upsertRow hmerge s h.ids, ?_⟩
  cases hid : hasKey AgentSession.id s.id db.sessions with
  | true =>
    -- an update keeps the columns of the other key
    refine (h.of_identity ?_).keys
    simp only [upsertRow, hid, if_true, List.map_map]
    refine List.map_congr_left fun row _ => ?_
    simp only [Function.comp_apply]
    split <;> rfl
  | false =>
    simp only [upsertRow, hid, List.map_append, Bool.false_eq_true, if_false]
    refine List.nodup_append.2 ⟨h.keys, by simp, ?_⟩
    intro a ha b hb hab
    obtain rfl : b = (s.source, s.externalSessionId) := by simpa using hb
    have hhas := hasKey_iff.2 (List.mem_map.1 (hab ▸ ha))
    rw [hkey hid] at hhas
    cases hhas

end DistinctRows

theorem Change.distinctRows {fresh : Prop} (h : Change fresh quiet w w')
    (hd : DistinctRows w.db.sessions) : DistinctRows w'.db.sessions := by
  cases h with
  | assign => exact hd
  | store hs hdb => exact hd.upsert hdb
  | pushEvent => exact hd
  | @storeEvent e store he hdb =>
    show DistinctRows store.db.sessions
    rw [(Repository.insertEventSql_ok hdb).1]
    exact hd
  | @removeRows id store hdb =>
    show DistinctRows store.db.sessions
    rw [hdb]
    exact hd.sublist List.filter_sublist
  | remove => exact hd
  | insert => exact hd
  | reinsert => exact hd
  | clearMetrics => exact hd
  | clearEvents => exact hd
  | other hr hdb => exact hd.of_identity hdb.sessions

theorem Evolves.distinctRows {fresh : Prop} (h : Evolves fresh quiet w w')
    (hd : DistinctRows w.db.sessions) : DistinctRows w'.db.sessions := by
  induction h with
  | refl => exact hd
  | tail _ hc ih => exact hc.distinctRows ih

/-- Migration 5 keeps the constraints of the table, and rewrites no identifier. -/
theorem DistinctRows.retype (h : DistinctRows rows) (target : AgentSource) (labels : List String) :
    DistinctRows (Repository.retype target labels rows) := by
  have hids : (Repository.retype target labels rows).map (·.id) = rows.map (·.id) := by
    unfold Repository.retype
    rw [List.map_map]
    refine List.map_congr_left fun row _ => ?_
    simp only [Function.comp_apply]
    split <;> rfl
  refine ⟨hids ▸ h.ids, ?_⟩
  unfold Repository.retype
  rw [List.map_map]
  refine List.Nodup.map_on (fun x hx y hy hxy => ?_) (List.Nodup.of_map _ h.ids)
  have hinj : ∀ {a b : AgentSession}, a ∈ rows → b ∈ rows → a.source = b.source →
      a.externalSessionId = b.externalSessionId → a = b := by
    intro a b ha hb hsource hext
    exact List.inj_on_of_nodup_map h.keys ha hb (by rw [hsource, hext])
  have hclash : ∀ {a b : AgentSession}, a ∈ rows → b ∈ rows → b.source = target →
      b.externalSessionId = a.externalSessionId →
      (¬ ∃ typed ∈ rows, typed.source = target ∧
        typed.externalSessionId = a.externalSessionId ∧ typed.id ≠ a.id) → a = b := by
    intro a b ha hb hsource hext hno
    by_contra hne
    exact hno ⟨b, hb, hsource, hext, fun hid =>
      hne (List.inj_on_of_nodup_map h.ids ha hb hid.symm)⟩
  simp only [Function.comp_apply] at hxy
  split at hxy <;> split at hxy <;> simp only [Prod.mk.injEq] at hxy
  · rename_i hx' hy'
    exact hinj hx hy (hx'.1.trans hy'.1.symm) hxy.2
  · rename_i hx' _
    exact hclash hx hy hxy.1.symm hxy.2.symm hx'.2.2
  · rename_i _ hy'
    exact (hclash hy hx hxy.1 hxy.2 hy'.2.2).symm
  · exact hinj hx hy hxy.1 hxy.2

theorem DistinctRows.migration005 (h : DistinctRows rows) :
    DistinctRows (Repository.migration005 rows) :=
  ((h.retype _ _).retype _ _).retype _ _

/-! ## Restoring -/

/-- Inserting distinct rows that a registry does not have keeps its index. -/
theorem Indexed.putAll {r : SessionRegistry} (h : Indexed r) (hd : DistinctRows rows)
    (hid : ∀ s ∈ rows, r.sessions.lookup s.id = none)
    (hkey : ∀ s ∈ rows, r.externalIndex.lookup s.key = none) :
    Indexed (rows.foldl SessionRegistry.putSession r) := by
  induction rows generalizing r with
  | nil => exact h
  | cons s rows ih =>
    have hids := List.nodup_cons.1 hd.ids
    have hkeys := List.nodup_cons.1 hd.keys
    refine ih (h.insert (hkey s (by simp)) (hid s (by simp))) ⟨hids.2, hkeys.2⟩ ?_ ?_
    · intro t ht
      have hne : t.id ≠ s.id := fun he => hids.1 (List.mem_map.2 ⟨t, ht, he⟩)
      show (r.sessions.insert s.id s).lookup t.id = none
      rw [Dict.lookup_insert_ite, if_neg hne]
      exact hid t (by simp [ht])
    · intro t ht
      have hne : t.key ≠ s.key := by
        intro he
        obtain ⟨hsource, hext⟩ := externalKey_inj.1 he
        exact hkeys.1 (List.mem_map.2 ⟨t, ht, by rw [hsource, hext]⟩)
      show (r.externalIndex.insert s.key s.id).lookup t.key = none
      rw [Dict.lookup_insert_ite, if_neg hne]
      exact hkey t (by simp [ht])

theorem indexed_restoredRegistry {sessions : List AgentSession} (events : List SessionEvent)
    (hd : DistinctRows sessions) :
    Indexed (SessionRegistry.restoredRegistry sessions events) := by
  have hrows : DistinctRows (SessionRegistry.restoredSessions sessions) :=
    (hd.perm (List.perm_insertionSort _ _)).sublist (List.take_sublist _ _)
  have hput := Indexed.new.putAll hrows (fun _ _ => rfl) (fun _ _ => rfl)
  exact hput.of_eq (SessionRegistry.sessions_pushAll _ _)
    (SessionRegistry.externalIndex_pushAll _ _)

/-- A core started on a database with distinct rows has its index. -/
theorem indexed_restartedCore {cfg : CoreConfig} {settings : PublicSettings} {db : Database}
    (hd : DistinctRows db.sessions) : Indexed (restartedCore cfg settings db).registry := by
  refine indexed_restoredRegistry _ ?_
  have hselected : DistinctRows (Repository.selectedSessions db) :=
    (hd.perm (List.perm_insertionSort _ _)).sublist (List.take_sublist _ _)
  refine hselected.of_identity ?_
  rw [List.map_map]
  exact List.map_congr_left fun _ _ => rfl

/-! ## Runs -/

/-- The invariant : the index of the registry and the constraints of the table. -/
def IndexOk (s : CoreState) : Prop :=
  Indexed s.world.registry ∧ DistinctRows s.world.db.sessions

section Runs

variable {cfg : CoreConfig} {s t : CoreState}

theorem indexOk_step {a : CoreAct} (hg : NoOverwrite cfg s a) (h : IndexOk s)
    (hstep : coreStep cfg s a = some t) : IndexOk t := by
  rcases step_cases True False (fun _ => hg) False.elim hstep with
    he | ⟨settings, hinner, hdb⟩
  · exact ⟨he.indexed h.1, he.distinctRows h.2⟩
  · refine ⟨?_, hdb ▸ h.2⟩
    rw [World.registry, hinner]
    exact indexed_restartedCore h.2

theorem indexOk_startCore {env : Env} {settings : PublicSettings} {db : Database}
    (hdb : DistinctRows db.sessions) (hstart : startCore cfg env settings db = some s) :
    IndexOk s := by
  obtain ⟨hinner, hdb'⟩ := startCore_spec hstart
  refine ⟨?_, hdb' ▸ hdb⟩
  rw [World.registry, hinner]
  exact indexed_restartedCore hdb

theorem no_panic_of_indexOk {tid : ℕ} {env : Env}
    (hg : NoOverwrite cfg s (.advance tid env)) (h : IndexOk s) (message : String) :
    sectionFault cfg s tid env ≠ some (.panic message) := by
  intro hfault
  obtain ⟨sec, rest, w, hsec, hexec⟩ := sectionFault_cases hfault
  have hends := wp_error
    (section_evolves True False (fun _ => hg) False.elim hsec) hexec
  exact hends.indexed message rfl (hends.evolves.indexed h.1)

end Runs

/-- In every run in which no start overwrites a stored session, the index is inverse to the
sessions and no section panics. -/
theorem index_inverse {cfg : CoreConfig} {env : Env} {settings : PublicSettings} {db : Database}
    {s₀ s : CoreState} {acts : List CoreAct} (hdb : DistinctRows db.sessions)
    (hstart : startCore cfg env settings db = some s₀)
    (hguard : Guarded (coreStep cfg) (NoOverwrite cfg) s₀ acts)
    (hrun : run (coreStep cfg) s₀ acts = some s) :
    Indexed s.world.registry ∧ ∀ tid env, NoOverwrite cfg s (.advance tid env) →
      ∀ message, sectionFault cfg s tid env ≠ some (.panic message) := by
  have h : IndexOk s := Guarded.invariant (fun _ _ _ hg h hstep => indexOk_step hg h hstep)
    (indexOk_startCore hdb hstart) hguard hrun
  exact ⟨h.1, fun tid env hg => no_panic_of_indexOk hg h⟩

/-- A first start meets the hypotheses. -/
theorem index_inverse_firstStart :
    ∃ s₀ s, startCore sampleCoreConfig {} sampleSettings { integrations := sampleIntegrations } =
        some s₀ ∧
      run (coreStep sampleCoreConfig) s₀
        (CoreAct.perform 0 (.ingest (.sessionStart (sampleStart .generic "e"))) {}) = some s ∧
      s.world.registry.len = 1 ∧ Indexed s.world.registry := by
  have hrun : ((startCore sampleCoreConfig {} sampleSettings
      { integrations := sampleIntegrations }).bind fun s₀ =>
        run (coreStep sampleCoreConfig) s₀ (CoreAct.perform 0
          (.ingest (.sessionStart (sampleStart .generic "e"))) {})).map
            (·.world.registry.len) = some 1 := by
    decide
  obtain ⟨s, hs, hlen⟩ := Option.map_eq_some_iff.1 hrun
  obtain ⟨s₀, hs₀, hs⟩ := Option.bind_eq_some_iff.1 hs
  refine ⟨s₀, s, hs₀, hs, hlen, (index_inverse ⟨by simp, by simp⟩ hs₀ ?_ hs).1⟩
  have hfree : s₀.world.registry.sessions.lookup "Generic:e" = none ∧
      s₀.calls.lookup 0 = none := by
    cases hs₀
    decide
  refine ⟨trivial, fun t ht => ⟨fun cmd rest hcall _ => Or.inl ?_, fun _ _ => trivial⟩⟩
  simp only [coreStep, hfree.2] at ht
  cases ht
  simp only [CoreCall.sections, AList.lookup_insert, Option.some.injEq, List.cons.injEq,
    CoreSection.ingest.injEq, IngestCommand.sessionStart.injEq] at hcall
  rw [← hcall.1]
  exact hfree.1

/-! ## A row moved by migration 5 -/

/-- A session of a generic source, stored before migration 5. -/
def genericRow : AgentSession :=
  { AppCore.newSession (sampleStart .generic "e")
      (sampleCoreConfig.sessionIdFor .generic "e") with label := "Qwen session" }

def migratedDatabase : Database where
  sessions := Repository.migration005 [genericRow]
  integrations := sampleIntegrations

/-- A start of the generic session the row was before the migration. -/
def overwriteRun : List CoreAct :=
  CoreAct.perform 0 (.ingest (.sessionStart (sampleStart .generic "e"))) {}

/-- Its removal, and a start of the session the migration made of the row. -/
def panicRun : List CoreAct :=
  CoreAct.perform 1 (.removeSession (sampleCoreConfig.sessionIdFor .generic "e")) {} ++
    [.call 2 (.ingest (.sessionStart (sampleStart .qwen "e")))]

/-- Identifiers are injective and rows distinct, and still one start leaves an index entry
of the migrated session that points to the new one; a later start of it panics. -/
theorem index_broken_by_migrated_row :
    (∀ a b x y, sampleCoreConfig.sessionIdFor a x = sampleCoreConfig.sessionIdFor b y ↔
      a = b ∧ x = y) ∧
    genericRow.id = sampleCoreConfig.sessionIdFor genericRow.source genericRow.externalSessionId ∧
    DistinctRows migratedDatabase.sessions ∧
    ∃ s₀ s t, startCore sampleCoreConfig {} sampleSettings migratedDatabase = some s₀ ∧
      run (coreStep sampleCoreConfig) s₀ overwriteRun = some s ∧ ¬ Indexed s.world.registry ∧
      run (coreStep sampleCoreConfig) s panicRun = some t ∧
      sectionFault sampleCoreConfig t 2 {} = some (.panic "indexed session") := by
  refine ⟨fun _ _ _ _ => externalKey_inj, rfl,
    DistinctRows.migration005 ⟨by simp, by simp⟩, ?_⟩
  have hrun : ((startCore sampleCoreConfig {} sampleSettings migratedDatabase).bind fun s₀ =>
      (run (coreStep sampleCoreConfig) s₀ overwriteRun).bind fun s =>
        (run (coreStep sampleCoreConfig) s panicRun).map fun t =>
          (s.world.registry.externalIndex.lookup "Qwen:e",
            (s.world.registry.sessions.lookup "Generic:e").map (·.key),
            sectionFault sampleCoreConfig t 2 {})) =
      some (some "Generic:e", some "Generic:e", some (.panic "indexed session")) := by
    decide
  obtain ⟨s₀, hs₀, hrun⟩ := Option.bind_eq_some_iff.1 hrun
  obtain ⟨s, hs, hrun⟩ := Option.bind_eq_some_iff.1 hrun
  obtain ⟨t, ht, hvalues⟩ := Option.map_eq_some_iff.1 hrun
  simp only [Prod.mk.injEq] at hvalues
  obtain ⟨hindex, hkey, hfault⟩ := hvalues
  refine ⟨s₀, s, t, hs₀, hs, fun hi => ?_, ht, hfault⟩
  obtain ⟨session, hsession, hwrong⟩ := hi.indexed hindex
  rw [hsession] at hkey
  have hsame : session.key = "Generic:e" := by simpa using hkey
  rw [hsame] at hwrong
  exact absurd hwrong (by decide)

end LlmNotch
