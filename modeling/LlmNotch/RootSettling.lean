import LlmNotch.HostOutcomes

/-!
# Settled roots

A pass of `reconcileMetricRoots` forgets the roots that do not run, has the sampler measure the
others and tells the adapters which sources have one. A host is `Settled` if there is nothing left
of that to do : the roots of all sessions run, the sampler measures exactly the sessions whose
source has an attribution, and each built-in adapter has the attribution of its source exactly if
such a session is there.

`reconcile_converges` : if no process starts or ends meanwhile, a pass that returns settles the host
and takes away nothing but roots that do not run. A pass over a settled host returns and changes
nothing, and no other pass does.
-/

namespace LlmNotch

namespace Host

open AppCore

/-! ## What should be there -/

section Settled

variable (processes : ℕ → Option ProcessIdentity)

/-- The process runs and is the one that was registered. -/
def Runs (root : ProcessIdentity) : Prop :=
  ∃ observed, processes root.pid = some observed ∧
    Metrics.startTimesMatch root.startedAtMs observed.startedAtMs = true

/-- The session has not ended and its root runs. -/
def Live (s : AgentSession) : Prop :=
  isTerminal s.status = false ∧ ∃ root, s.processRoot = some root ∧ Runs processes root

/-- The session is measured. -/
def Measurable (s : AgentSession) : Prop :=
  Live processes s ∧ attributionForSource s.source ≠ .unknown

open Classical in
/-- What a pass makes of a session. -/
noncomputable def settled (s : AgentSession) : AgentSession :=
  if s.processRoot.isSome = true ∧ ¬ Live processes s then s.withoutRoot else s

/-- Some session of the source is measured. -/
def Used (h : HostWorld) (source : AgentSource) : Prop :=
  ∃ id s, h.world.registry.sessions.lookup id = some s ∧ Measurable processes s ∧
    s.source = source

structure Settled (h : HostWorld) : Prop where
  rooted : ∀ id s, h.world.registry.sessions.lookup id = some s → s.processRoot.isSome = true →
    Live processes s
  measured : ∀ id, id ∈ h.roots.map (·.sessionId) ↔
    ∃ s, h.world.registry.sessions.lookup id = some s ∧ Measurable processes s
  adapters : ∀ c ∈ builtinAdapterCapabilities, ∃ attribution,
    h.world.inner.integrations.find? (·.source = c.source) =
      some { c with processAttribution := attribution } ∧
    (Used processes h c.source → attribution = attributionForSource c.source) ∧
    (¬ Used processes h c.source → attribution = .unknown)

/-- No process starts or ends. -/
def Steady (h : HostWorld) : Prop :=
  ∀ n, (h.envs n).processes = processes

end Settled

variable {processes : ℕ → Option ProcessIdentity} {h : HostWorld} {s : AgentSession}

theorem settled_of_live (hlive : Live processes s) : settled processes s = s :=
  if_neg fun h => h.2 hlive

theorem settled_of_not (hroot : s.processRoot.isSome = true) (hdead : ¬ Live processes s) :
    settled processes s = s.withoutRoot :=
  if_pos ⟨hroot, hdead⟩

theorem settled_rootless (hroot : s.processRoot = none) : settled processes s = s :=
  if_neg fun h => by simp [hroot] at h

theorem source_settled (s : AgentSession) : (settled processes s).source = s.source := by
  unfold settled
  split_ifs <;> rfl

theorem live_settled_iff : Live processes (settled processes s) ↔ Live processes s := by
  unfold settled
  split_ifs with hdead
  · refine ⟨fun h => ?_, fun h => absurd h hdead.2⟩
    obtain ⟨-, root, hroot, -⟩ := h
    cases hroot
  · rfl

theorem measurable_settled_iff :
    Measurable processes (settled processes s) ↔ Measurable processes s := by
  unfold Measurable
  rw [live_settled_iff, source_settled]

theorem live_eq_none {env : HostEnv} (henv : env.processes = processes) {root : ProcessIdentity} :
    env.live root = none ↔ ¬ Runs processes root := by
  unfold HostEnv.live Runs
  rw [henv, Option.filter_eq_none_iff]
  constructor
  · rintro hnone ⟨observed, hobserved, hmatch⟩
    exact hnone observed hobserved hmatch
  · intro hno observed hobserved hmatch
    exact hno ⟨observed, hobserved, hmatch⟩

/-! ## The sessions -/

open Classical in
/-- The attribution of a source, if one of these sessions is measured. -/
noncomputable def attributed (processes : ℕ → Option ProcessIdentity) (done : List AgentSession)
    (source : AgentSource) : Option AttributionQuality :=
  if ∃ s ∈ done, s.source = source ∧ Measurable processes s then
    some (attributionForSource source)
  else none

open Classical in
theorem attributed_congr {done done' : List AgentSession} {source : AgentSource}
    (h : (∃ s ∈ done', s.source = source ∧ Measurable processes s) ↔
      ∃ s ∈ done, s.source = source ∧ Measurable processes s) :
    attributed processes done' source = attributed processes done source := by
  exact if_congr h rfl rfl

/-- What was found out about the sessions `done` : which are measured, and for which sources. -/
structure Found (processes : ℕ → Option ProcessIdentity) (done : List AgentSession)
    (valid : ValidRoots) : Prop where
  ids : ∀ id, id ∈ valid.sessionIds ↔ ∃ s ∈ done, s.id = id ∧ Measurable processes s
  sources : ∀ source, (valid.sources.find? (·.1 = source)).map (·.2) =
    attributed processes done source

/-- After the roots of `done`, which are sessions of `h₀`. -/
structure Settling (processes : ℕ → Option ProcessIdentity) (h₀ : HostWorld)
    (done : List AgentSession) (valid : ValidRoots) (h : HostWorld) : Prop where
  found : Found processes done valid
  steady : Steady processes h
  keyed : Keyed h.world.registry
  visited : ∀ id ∈ done.map (·.id), h.world.registry.sessions.lookup id =
    (h₀.world.registry.sessions.lookup id).map (settled processes)
  others : ∀ id, id ∉ done.map (·.id) →
    h.world.registry.sessions.lookup id = h₀.world.registry.sessions.lookup id
  integrations : h.world.inner.integrations = h₀.world.inner.integrations
  measured : ∀ id ∈ valid.sessionIds, id ∈ h.roots.map (·.sessionId)
  registered : ∀ id ∈ h.roots.map (·.sessionId),
    id ∈ h₀.roots.map (·.sessionId) ∨ id ∈ valid.sessionIds
  waiting : ∀ id ∈ h₀.roots.map (·.sessionId), id ∉ done.map (·.id) →
    id ∈ h.roots.map (·.sessionId)

section Sessions

variable {h₀ h₁ h' : HostWorld} {done : List AgentSession} {valid : ValidRoots}

theorem Found.skip (hf : Found processes done valid) (hno : ¬ Measurable processes s) :
    Found processes (done ++ [s]) valid where
  ids id := by
    rw [hf.ids]
    constructor
    · rintro ⟨t, ht, hid⟩
      exact ⟨t, List.mem_append_left _ ht, hid⟩
    · rintro ⟨t, ht, hid, hm⟩
      refine ⟨t, (List.mem_append.1 ht).resolve_right fun hlast => hno ?_, hid, hm⟩
      rwa [← List.mem_singleton.1 hlast]
  sources source := by
    rw [hf.sources]
    refine (attributed_congr ⟨?_, ?_⟩).symm
    · rintro ⟨t, ht, hsource, hm⟩
      refine ⟨t, (List.mem_append.1 ht).resolve_right fun hlast => hno ?_, hsource, hm⟩
      rwa [← List.mem_singleton.1 hlast]
    · rintro ⟨t, ht, hsource, hm⟩
      exact ⟨t, List.mem_append_left _ ht, hsource, hm⟩

theorem find_add (valid : ValidRoots) (s : AgentSession) (attribution : AttributionQuality)
    (source : AgentSource) :
    ((valid.add s attribution).sources.find? (·.1 = source)).map (·.2) =
      ((valid.sources.find? (·.1 = source)).map (·.2)).or
        (if s.source = source then some attribution else none) := by
  unfold ValidRoots.add
  dsimp only
  split
  · next hany =>
    split_ifs with hsource
    · obtain ⟨p, hp, hsame⟩ := List.any_eq_true.1 hany
      cases hfind : valid.sources.find? (·.1 = source) with
      | some q => rfl
      | none =>
        refine absurd hsame ?_
        rw [hsource]
        exact List.find?_eq_none.1 hfind p hp
    · rw [Option.or_none]
  · rw [List.find?_append]
    cases valid.sources.find? (·.1 = source) with
    | some q => rfl
    | none => by_cases hsource : s.source = source <;> simp [hsource]

theorem Found.add (hf : Found processes done valid) (hyes : Measurable processes s) :
    Found processes (done ++ [s]) (valid.add s (attributionForSource s.source)) where
  ids id := by
    show id ∈ valid.sessionIds ++ [s.id] ↔ _
    rw [List.mem_append, hf.ids, List.mem_singleton]
    constructor
    · rintro (⟨t, ht, hid⟩ | rfl)
      · exact ⟨t, List.mem_append_left _ ht, hid⟩
      · exact ⟨s, by simp, rfl, hyes⟩
    · rintro ⟨t, ht, hid, hm⟩
      rcases List.mem_append.1 ht with ht | ht
      · exact .inl ⟨t, ht, hid, hm⟩
      · exact .inr (by rw [← hid, List.mem_singleton.1 ht])
  sources source := by
    rw [find_add, hf.sources]
    by_cases hsource : s.source = source
    · have hnew : attributed processes (done ++ [s]) source = some (attributionForSource source) :=
        if_pos ⟨s, by simp, hsource, hyes⟩
      rw [if_pos hsource, hnew, hsource]
      unfold attributed
      split_ifs <;> rfl
    · rw [if_neg hsource, Option.or_none]
      refine (attributed_congr ⟨?_, ?_⟩).symm
      · rintro ⟨t, ht, hts, hm⟩
        refine ⟨t, (List.mem_append.1 ht).resolve_right fun hlast => hsource ?_, hts, hm⟩
        rwa [← List.mem_singleton.1 hlast]
      · rintro ⟨t, ht, hts, hm⟩
        exact ⟨t, List.mem_append_left _ ht, hts, hm⟩

section

variable (hi : Settling processes h₀ done valid h)

include hi

theorem Settling.stored (hs : h₀.world.registry.sessions.lookup s.id = some s)
    (hnew : s.id ∉ done.map (·.id)) : h.world.registry.sessions.lookup s.id = some s :=
  (hi.others s.id hnew).trans hs

theorem Settling.fresh (hnew : s.id ∉ done.map (·.id)) : s.id ∉ valid.sessionIds := by
  rw [hi.found.ids]
  rintro ⟨t, ht, hid, -⟩
  exact hnew (List.mem_map.2 ⟨t, ht, hid⟩)

/-- The session is not measured; no other root changed. -/
theorem Settling.skip (hs : h₀.world.registry.sessions.lookup s.id = some s)
    (hnew : s.id ∉ done.map (·.id)) (hno : ¬ Measurable processes s)
    (hsteady : Steady processes h') (hkeyed : Keyed h'.world.registry)
    (hlookup : ∀ id, h'.world.registry.sessions.lookup id =
      if id = s.id then some (settled processes s) else h.world.registry.sessions.lookup id)
    (hintegrations : h'.world.inner.integrations = h.world.inner.integrations)
    (hroots : ∀ id, id ≠ s.id →
      (id ∈ h'.roots.map (·.sessionId) ↔ id ∈ h.roots.map (·.sessionId)))
    (hsub : ∀ id ∈ h'.roots.map (·.sessionId), id ∈ h.roots.map (·.sessionId)) :
    Settling processes h₀ (done ++ [s]) valid h' where
  found := hi.found.skip hno
  steady := hsteady
  keyed := hkeyed
  visited id hid := by
    rw [hlookup]
    split_ifs with heq
    · rw [heq, hs]
      rfl
    · rw [List.map_append, List.mem_append] at hid
      exact hi.visited id (hid.resolve_right fun hlast => heq (List.mem_singleton.1 hlast))
  others id hid := by
    rw [List.map_append, List.mem_append, not_or] at hid
    rw [hlookup, if_neg fun heq => hid.2 (List.mem_singleton.2 heq)]
    exact hi.others id hid.1
  integrations := hintegrations.trans hi.integrations
  measured id hid :=
    (hroots id fun heq => hi.fresh hnew (heq ▸ hid)).2 (hi.measured id hid)
  registered id hid := hi.registered id (hsub id hid)
  waiting id hid hlater := by
    rw [List.map_append, List.mem_append, not_or] at hlater
    exact (hroots id fun heq => hlater.2 (List.mem_singleton.2 heq)).2
      (hi.waiting id hid hlater.1)

/-- The root of a session that does not run is dropped. -/
theorem Settling.drop (hs : h₀.world.registry.sessions.lookup s.id = some s)
    (hnew : s.id ∉ done.map (·.id)) (hroot : s.processRoot.isSome = true)
    (hdead : ¬ Live processes s) (hworld : h₁.world = h.world) (hroots : h₁.roots = h.roots)
    (hsteady : Steady processes h₁) :
    wp (do dropRoot s.id; pure valid) h₁ (fun valid' => Settling processes h₀ (done ++ [s]) valid')
      fun _ _ => True := by
  have hstored : h₁.world.registry.sessions.lookup s.id = some s :=
    hworld ▸ hi.stored hs hnew
  rw [wp_bind]
  refine wp_dropRoot_outcome hstored hroot (fun _ h' hsketch _ => ?_) (fun _ _ _ _ _ => trivial)
    fun _ _ _ => trivial
  have hsessions : h'.world.registry.sessions =
      h₁.world.registry.sessions.adjust s.id fun _ => s.withoutRoot :=
    congrArg Sketch.sessions hsketch
  have hmeasured : h'.roots.map (·.sessionId) =
      (h₁.roots.map (·.sessionId)).filter (· ≠ s.id) := congrArg Sketch.measured hsketch
  have henvs : h'.envs = fun n => h₁.envs (n + 1) := congrArg Sketch.envs hsketch
  refine hi.skip hs hnew (fun hm => hdead hm.1) (fun n => ?_) ?_ (fun id => ?_) ?_ (fun id hid => ?_)
    fun id hid => ?_
  · rw [henvs]
    exact hsteady (n + 1)
  · exact keyed_change (hworld ▸ hi.keyed) hsessions rfl
  · rw [hsessions, Dict.lookup_adjust, hstored, hworld, settled_of_not hroot hdead]
    rfl
  · exact (congrArg Sketch.integrations hsketch).trans (by rw [← hworld]; rfl)
  · rw [hmeasured, List.mem_filter, hroots]
    exact ⟨fun h => h.1, fun h => ⟨h, decide_eq_true hid⟩⟩
  · rw [hmeasured, List.mem_filter, hroots] at hid
    exact hid.1

end

theorem mem_unregistered (roots : List RegisteredSession) (k id : String) :
    id ∈ (roots.filter fun r => r.sessionId ≠ k).map (·.sessionId) ↔
      id ∈ roots.map (·.sessionId) ∧ id ≠ k := by
  have hfilter : (roots.filter fun r => r.sessionId ≠ k).map (·.sessionId) =
      (roots.map (·.sessionId)).filter (· ≠ k) := by
    rw [List.filter_map]
    rfl
  rw [hfilter, List.mem_filter, decide_eq_true_eq]

section

variable (hi : Settling processes h₀ done valid h)

include hi

section

variable (hs : h₀.world.registry.sessions.lookup s.id = some s)

include hs

/-- The session is measured. -/
theorem Settling.measure (hnew : s.id ∉ done.map (·.id)) (hyes : Measurable processes s)
    (hworld : h'.world = h.world) (hsteady : Steady processes h')
    (hroots : ∀ id, id ∈ h'.roots.map (·.sessionId) ↔ id ∈ h.roots.map (·.sessionId) ∨ id = s.id) :
    Settling processes h₀ (done ++ [s]) (valid.add s (attributionForSource s.source)) h' where
  found := hi.found.add hyes
  steady := hsteady
  keyed := hworld ▸ hi.keyed
  visited id hid := by
    rw [hworld]
    rw [List.map_append, List.mem_append] at hid
    rcases hid with hid | hid
    · exact hi.visited id hid
    · rw [List.mem_singleton.1 hid, hi.stored hs hnew, hs, Option.map_some, settled_of_live hyes.1]
  others id hid := by
    rw [List.map_append, List.mem_append, not_or] at hid
    rw [hworld, hi.others id hid.1]
  integrations := by rw [hworld, hi.integrations]
  measured id hid := by
    rw [hroots]
    exact (List.mem_append.1 hid).imp (hi.measured id) List.mem_singleton.1
  registered id hid := by
    rcases (hroots id).1 hid with hid | rfl
    · exact (hi.registered id hid).imp_right (List.mem_append_left _)
    · exact .inr (List.mem_append_right _ (List.mem_singleton_self _))
  waiting id hid hlater := by
    rw [List.map_append, List.mem_append, not_or] at hlater
    exact (hroots id).2 (.inl (hi.waiting id hid hlater.1))

/-- A root that runs is kept. -/
theorem Settling.keep {observed : ProcessIdentity} (hnew : s.id ∉ done.map (·.id))
    (hlive : Live processes s) :
    wp (keepRoot (h₀.roots.map (·.sessionId)) s observed valid) (h.called h.world)
      (fun valid' => Settling processes h₀ (done ++ [s]) valid') fun _ _ => True := by
  have hsteady : Steady processes (h.called h.world) := fun n => hi.steady (n + 1)
  unfold keepRoot
  dsimp only
  split
  · next hunknown =>
    refine hi.skip hs hnew (fun hm => hm.2 hunknown) hsteady hi.keyed (fun id => ?_) rfl
      (fun _ _ => Iff.rfl) fun _ hid => hid
    split_ifs with heq
    · rw [settled_of_live hlive, heq]
      exact hi.stored hs hnew
    · rfl
  · next hknown =>
    rw [wp_bind, wp_onlyIf]
    constructor
    · intro _
      simp only [registerSession, unregisterSession, wp_bind, wp_modify, wp_get]
      split
      · trivial
      · refine hi.measure hs hnew ⟨hlive, hknown⟩ rfl hsteady fun id => ?_
        show id ∈ ((h.roots.filter _) ++ [_]).map _ ↔ _
        rw [List.map_append, List.mem_append, mem_unregistered, List.map_singleton,
          List.mem_singleton]
        by_cases hid : id = s.id
        · exact iff_of_true (.inr hid) (.inr hid)
        · exact or_congr_left (and_iff_left hid)
    · intro hcontains
      refine hi.measure hs hnew ⟨hlive, hknown⟩ rfl hsteady fun id => ?_
      have hmem : s.id ∈ h₀.roots.map (·.sessionId) := by simpa using hcontains
      refine ⟨.inl, fun h => ?_⟩
      rcases h with h | rfl
      · exact h
      · exact hi.waiting s.id hmem hnew

/-- One session. -/
theorem Settling.session (hnew : s.id ∉ done.map (·.id)) :
    wp (reconcileSession (h₀.roots.map (·.sessionId)) valid s) h
      (fun valid' => Settling processes h₀ (done ++ [s]) valid') fun _ _ => True := by
  have hsteady : Steady processes (h.called h.world) := fun n => hi.steady (n + 1)
  unfold reconcileSession
  split
  · next hnone =>
    have hdead : ¬ Live processes s := by
      rintro ⟨-, root, hroot, -⟩
      rw [hnone] at hroot
      cases hroot
    refine hi.skip hs hnew (fun hm => hdead hm.1) hi.steady hi.keyed (fun id => ?_) rfl
      (fun _ _ => Iff.rfl) fun _ hid => hid
    split_ifs with heq
    · rw [settled_rootless hnone, heq]
      exact hi.stored hs hnew
    · rfl
  · next root hroot =>
    have hsome : s.processRoot.isSome = true := by rw [hroot]; rfl
    split
    · next hterminal =>
      refine hi.drop hs hnew hsome (fun hlive => ?_) rfl rfl hi.steady
      rw [hlive.1] at hterminal
      cases hterminal
    · next hactive =>
      simp only [liveProcess, wp_bind, wp_resolveProcessIdentity, wp_pure]
      have hlive : (h.envs 0).live root = none ↔ ¬ Runs processes root :=
        live_eq_none (hi.steady 0)
      split
      · next hnone =>
        refine hi.drop hs hnew hsome (fun h => ?_) rfl rfl hsteady
        obtain ⟨-, root', hroot', hruns⟩ := h
        rw [hroot] at hroot'
        cases hroot'
        exact hlive.1 hnone hruns
      · next observed hobserved =>
        refine hi.keep hs hnew ⟨by simpa using hactive, root, hroot, ?_⟩
        by_contra hno
        have hnone := hlive.2 hno
        rw [show (h.envs 0).live root = some observed from hobserved] at hnone
        cases hnone

end

/-- All sessions. -/
theorem Settling.sessions {sessions : List AgentSession}
    (hnodup : ((done ++ sessions).map (·.id)).Nodup)
    (hs : ∀ s ∈ sessions, h₀.world.registry.sessions.lookup s.id = some s) :
    wp (sessions.foldlM (reconcileSession (h₀.roots.map (·.sessionId))) valid) h
      (fun valid' => Settling processes h₀ (done ++ sessions) valid') fun _ _ => True := by
  induction sessions generalizing h done valid with
  | nil =>
    rw [List.append_nil]
    exact hi
  | cons s rest ih =>
    have hsplit : done ++ s :: rest = done ++ [s] ++ rest := by simp
    have hnew : s.id ∉ done.map (·.id) := by
      rw [List.map_append, List.nodup_append] at hnodup
      exact fun h => hnodup.2.2 _ h _ (by simp) rfl
    rw [List.foldlM_cons, wp_bind]
    refine wp_mono (hi.session (hs s (by simp)) hnew) (fun valid' h₁ h₁i => ?_) fun _ _ h => h
    rw [hsplit]
    exact ih h₁i (hsplit ▸ hnodup) fun t ht => hs t (List.mem_cons_of_mem s ht)

end

end Sessions

/-! ## The adapters -/

theorem find_upsertCapabilities_ne {c : AdapterCapabilities} {source : AgentSource}
    (hne : c.source ≠ source) (all : List AdapterCapabilities) :
    (upsertCapabilities c all).find? (·.source = source) = all.find? (·.source = source) := by
  unfold upsertCapabilities
  split
  · next i hi =>
    induction all generalizing i with
    | nil => cases hi
    | cons b all ih =>
      rw [List.findIdx?_cons] at hi
      split at hi
      · next hb =>
        cases hi
        have hsame : b.source = c.source := by simpa using hb
        have hb' : b.source ≠ source := fun h => hne (hsame.symm.trans h)
        rw [List.set_cons_zero, List.find?_cons_of_neg (by simpa using hne),
          List.find?_cons_of_neg (by simpa using hb')]
      · obtain ⟨j, hj, rfl⟩ := Option.map_eq_some_iff.1 hi
        rw [List.set_cons_succ, List.find?_cons, List.find?_cons, ih j hj]
  · rw [List.find?_append, List.find?_cons_of_neg (by simpa using hne), List.find?_nil,
      Option.or_none]

section Adapters

variable {cfg : CoreConfig} (attribution : AgentSource → AttributionQuality)
  {current : List AdapterCapabilities}

/-- The adapters have these attributions, nothing else changed. -/
structure Told (attribution : AgentSource → AttributionQuality) (cs : List AdapterCapabilities)
    (h h' : HostWorld) : Prop where
  sessions : h'.world.registry.sessions = h.world.registry.sessions
  roots : h'.roots = h.roots
  later : ∃ n, ∀ i, h'.envs i = h.envs (i + n)
  told : ∀ c ∈ cs, h'.world.inner.integrations.find? (·.source = c.source) =
    some { c with processAttribution := attribution c.source }
  others : ∀ source ∉ cs.map (·.source), h'.world.inner.integrations.find? (·.source = source) =
    h.world.inner.integrations.find? (·.source = source)

theorem wp_tellAdapter {c : AdapterCapabilities}
    (hc : builtinAdapterCapabilities.find? (·.source = c.source) = some c)
    (hcurrent : h.world.inner.integrations.find? (·.source = c.source) =
      current.find? (·.source = c.source)) :
    wp (setAdapterAttributionWithSnapshot cfg c.source (attribution c.source) current) h
      (fun _ => Told attribution [c] h) fun _ _ => True := by
  simp only [setAdapterAttributionWithSnapshot, hc]
  split
  · next hsame =>
    refine ⟨rfl, rfl, ⟨0, fun _ => rfl⟩, fun d hd => ?_, fun _ _ => rfl⟩
    rw [List.mem_singleton.1 hd, hcurrent, hsame]
  · simp only [wp_bind, wp_get, ingestCore, wp_callCore, wp_pure, AppCore.ingest,
      AppCore.handleIngest]
    refine wp_mono (wp_integrationHealth_outcome fun w' hr _ _ _ hi => ?_)
      (fun _ _ h => h) fun _ _ _ => trivial
    refine ⟨?_, rfl, ⟨1, fun _ => rfl⟩, fun d hd => ?_, fun source hsource => ?_⟩
    · show (w'.flush _).registry.sessions = _
      rw [registry_flush]
      exact hr.sessions
    · rw [List.mem_singleton.1 hd]
      show ((w'.flush _).inner.integrations).find? _ = _
      rw [integrations_flush, hi]
      exact find_upsertCapabilities { c with processAttribution := attribution c.source } _
    · show ((w'.flush _).inner.integrations).find? _ = _
      rw [integrations_flush, hi]
      refine find_upsertCapabilities_ne (fun heq => hsource ?_) _
      rw [← heq]
      exact List.mem_singleton_self _

theorem wp_tellAdapters {cs : List AdapterCapabilities}
    (hbuiltin : ∀ c ∈ cs, builtinAdapterCapabilities.find? (·.source = c.source) = some c)
    (hnodup : (cs.map (·.source)).Nodup)
    (hcurrent : ∀ c ∈ cs, h.world.inner.integrations.find? (·.source = c.source) =
      current.find? (·.source = c.source)) :
    wp (cs.forM fun c =>
        setAdapterAttributionWithSnapshot cfg c.source (attribution c.source) current) h
      (fun _ => Told attribution cs h) fun _ _ => True := by
  induction cs generalizing h with
  | nil =>
    exact ⟨rfl, rfl, ⟨0, fun _ => rfl⟩, fun c hc => absurd hc List.not_mem_nil, fun _ _ => rfl⟩
  | cons c cs ih =>
    rw [List.map_cons, List.nodup_cons] at hnodup
    show wp (_ >>= fun _ => cs.forM _) h _ _
    rw [wp_bind]
    refine wp_mono (wp_tellAdapter attribution (hbuiltin c (by simp)) (hcurrent c (by simp)))
      (fun _ h₁ hfirst => ?_) fun _ _ h => h
    have hne : ∀ d ∈ cs, d.source ∉ [c].map (·.source) := by
      intro d hd hmem
      rw [List.map_singleton, List.mem_singleton] at hmem
      exact hnodup.1 (hmem ▸ List.mem_map_of_mem hd)
    refine wp_mono (ih (fun d hd => hbuiltin d (List.mem_cons_of_mem c hd)) hnodup.2
      fun d hd => ?_) (fun _ h' hrest => ?_) fun _ _ h => h
    · rw [hfirst.others _ (hne d hd)]
      exact hcurrent d (List.mem_cons_of_mem c hd)
    · obtain ⟨n, hn⟩ := hfirst.later
      obtain ⟨m, hm⟩ := hrest.later
      refine ⟨hrest.sessions.trans hfirst.sessions, hrest.roots.trans hfirst.roots,
        ⟨m + n, fun i => ?_⟩, fun d hd => ?_, fun source hsource => ?_⟩
      · rw [hm, hn, Nat.add_assoc]
      · rcases List.mem_cons.1 hd with rfl | hd
        · rw [hrest.others _ hnodup.1]
          exact hfirst.told _ (List.mem_singleton_self _)
        · exact hrest.told d hd
      · rw [List.map_cons, List.mem_cons, not_or] at hsource
        rw [hrest.others source hsource.2]
        exact hfirst.others source (by simpa using hsource.1)

theorem find_builtin_self : ∀ c ∈ builtinAdapterCapabilities,
    builtinAdapterCapabilities.find? (·.source = c.source) = some c := by
  decide

theorem nodup_builtin : (builtinAdapterCapabilities.map (·.source)).Nodup := by
  decide

end Adapters

/-! ## The pass -/

/-- Sessions that are not measured any more are unregistered. -/
theorem wp_unregisterAll {E : HostFault → HostWorld → Prop} (valid ids : List String) :
    wp (ids.forM fun id => onlyIf (!valid.contains id) (unregisterSession id)) h
      (fun _ h' => h' = { h with
        roots := h.roots.filter fun r => !ids.contains r.sessionId || valid.contains r.sessionId })
      E := by
  induction ids generalizing h with
  | nil =>
    show h = _
    simp
  | cons id ids ih =>
    show wp (_ >>= fun _ => ids.forM _) h _ _
    rw [wp_bind, wp_onlyIf]
    refine ⟨fun hstale => ?_, fun hvalid => ?_⟩
    · rw [unregisterSession, wp_modify]
      refine wp_mono ih (fun _ h' hh => ?_) fun _ _ h => h
      rw [hh]
      refine congrArg (fun roots => { h with roots := roots }) ?_
      rw [List.filter_filter]
      refine List.filter_congr fun r _ => ?_
      by_cases heq : r.sessionId = id
      · simp_all
      · simp [heq]
    · refine wp_mono ih (fun _ h' hh => ?_) fun _ _ h => h
      rw [hh]
      refine congrArg (fun roots => { h with roots := roots }) (List.filter_congr fun r _ => ?_)
      by_cases heq : r.sessionId = id
      · simp_all
      · simp [heq]

section Passes

variable {cfg : CoreConfig} {h₀ h' : HostWorld} {valid : ValidRoots}

/-- The attribution that was found for a source. -/
def attributionIn (sources : List (AgentSource × AttributionQuality)) (source : AgentSource) :
    AttributionQuality :=
  ((sources.find? (·.1 = source)).map (·.2)).getD .unknown

theorem wp_reconcileAdapters (sources : List (AgentSource × AttributionQuality)) :
    wp (reconcileAdapterAttribution cfg sources) h
      (fun _ => Told (attributionIn sources) builtinAdapterCapabilities h) fun _ _ => True := by
  have htold : wp (builtinAdapterCapabilities.forM fun c =>
      setAdapterAttributionWithSnapshot cfg c.source (attributionIn sources c.source)
        h.world.inner.integrations) (h.called h.world)
      (fun _ => Told (attributionIn sources) builtinAdapterCapabilities (h.called h.world))
      fun _ _ => True :=
    wp_tellAdapters _ find_builtin_self nodup_builtin fun _ _ => rfl
  have hread : ∀ {Q : List AdapterCapabilities → HostWorld → Prop}
      {E : HostFault → HostWorld → Prop},
      wp snapshotAdapters h Q E ↔ Q h.world.inner.integrations (h.called h.world) := Iff.rfl
  unfold reconcileAdapterAttribution
  rw [wp_bind, hread]
  refine wp_mono htold (fun _ h' ht => ?_) fun _ _ h => h
  obtain ⟨n, hn⟩ := ht.later
  exact ⟨ht.sessions, ht.roots, ⟨n + 1, fun i => hn i⟩, ht.told, ht.others⟩

/-- After all sessions of the snapshot. -/
theorem wp_settling (hk : Keyed h.world.registry) (hsteady : Steady processes h) :
    wp ((snapshotWithSequence h.env.core h.world).snapshot.sessions.foldlM
        (reconcileSession (h.roots.map (·.sessionId))) {}) (h.called h.world)
      (fun valid => Settling processes h
        (snapshotWithSequence h.env.core h.world).snapshot.sessions valid) fun _ _ => True := by
  have hstart : Settling processes h [] {} (h.called h.world) :=
    { found := ⟨fun id => by simp, fun source => by simp [attributed]⟩
      steady := fun n => hsteady (n + 1)
      keyed := hk
      visited := fun id hid => absurd hid List.not_mem_nil
      others := fun id _ => rfl
      integrations := rfl
      measured := fun id hid => absurd hid List.not_mem_nil
      registered := fun id hid => .inl hid
      waiting := fun id hid _ => hid }
  exact hstart.sessions (@nodup_snapshot h.sketch hk.id) fun s hs => (mem_snapshot hk).1 hs

theorem mem_kept (roots : List RegisteredSession) (ids valid : List String) (id : String) :
    id ∈ (roots.filter fun r => !ids.contains r.sessionId || valid.contains r.sessionId).map
      (·.sessionId) ↔ id ∈ roots.map (·.sessionId) ∧ (id ∈ ids → id ∈ valid) := by
  have hfilter : (roots.filter fun r => !ids.contains r.sessionId ||
      valid.contains r.sessionId).map (·.sessionId) =
      (roots.map (·.sessionId)).filter fun k => !ids.contains k || valid.contains k := by
    rw [List.filter_map]
    rfl
  rw [hfilter, List.mem_filter]
  simp [imp_iff_not_or]

theorem live_of_settled (hroot : (settled processes s).processRoot.isSome = true) :
    Live processes (settled processes s) := by
  unfold settled at hroot ⊢
  split_ifs at hroot ⊢ with hdead
  · cases hroot
  · exact not_not.1 fun hno => hdead ⟨hroot, hno⟩

/-- A pass leaves what should be there. -/
theorem wp_settles (hk : Keyed h.world.registry) (hsteady : Steady processes h) :
    wp (reconcileMetricRoots cfg) h (fun _ h' => Settled processes h' ∧
      Keyed h'.world.registry ∧ Steady processes h' ∧
      ∀ id, h'.world.registry.sessions.lookup id =
        (h.world.registry.sessions.lookup id).map (settled processes)) fun _ _ => True := by
  unfold reconcileMetricRoots
  rw [wp_bind, wp_snapshotSessions, wp_bind, wp_get, wp_bind]
  refine wp_mono (wp_settling hk hsteady) (fun valid h₁ hi => ?_) fun _ _ h => h
  set sessions := (snapshotWithSequence h.env.core h.world).snapshot.sessions
  rw [wp_bind]
  refine wp_mono (wp_unregisterAll valid.sessionIds _) (fun _ h₂ hkept => ?_) fun _ _ h => h
  refine wp_mono (wp_reconcileAdapters valid.sources) (fun _ h' ht => ?_) fun _ _ h => h
  subst hkept
  have hlookup : ∀ id, h'.world.registry.sessions.lookup id =
      (h.world.registry.sessions.lookup id).map (settled processes) := by
    intro id
    rw [ht.sessions]
    by_cases hid : id ∈ sessions.map (·.id)
    · exact hi.visited id hid
    · refine (hi.others id hid).trans ?_
      cases hs : h.world.registry.sessions.lookup id with
      | none => rfl
      | some s =>
        obtain rfl := hk.id hs
        exact absurd (List.mem_map_of_mem ((mem_snapshot hk).2 hs)) hid
  have hmeasurable : ∀ id, (∃ s ∈ sessions, s.id = id ∧ Measurable processes s) ↔
      ∃ s, h'.world.registry.sessions.lookup id = some s ∧ Measurable processes s := by
    intro id
    rw [hlookup]
    constructor
    · rintro ⟨s, hs, rfl, hm⟩
      exact ⟨_, by rw [(mem_snapshot hk).1 hs]; rfl, measurable_settled_iff.2 hm⟩
    · rintro ⟨s', hs', hm⟩
      obtain ⟨s, hs, rfl⟩ := Option.map_eq_some_iff.1 hs'
      obtain rfl := hk.id hs
      exact ⟨s, (mem_snapshot hk).2 hs, rfl, measurable_settled_iff.1 hm⟩
  have hused_iff : ∀ source, Used processes h' source ↔
      ∃ s ∈ sessions, s.source = source ∧ Measurable processes s := by
    intro source
    constructor
    · rintro ⟨id, s', hs', hm, rfl⟩
      rw [hlookup] at hs'
      obtain ⟨s, hs, rfl⟩ := Option.map_eq_some_iff.1 hs'
      obtain rfl := hk.id hs
      exact ⟨s, (mem_snapshot hk).2 hs, (source_settled s).symm, measurable_settled_iff.1 hm⟩
    · rintro ⟨s, hs, rfl, hm⟩
      refine ⟨s.id, settled processes s, ?_, measurable_settled_iff.2 hm, source_settled s⟩
      rw [hlookup, (mem_snapshot hk).1 hs]
      rfl
  refine ⟨⟨fun id s hs hroot => ?_, fun id => ?_, fun c hc => ?_⟩, ?_, ?_, hlookup⟩
  · rw [hlookup] at hs
    obtain ⟨t, -, rfl⟩ := Option.map_eq_some_iff.1 hs
    exact live_of_settled hroot
  · rw [ht.roots, mem_kept, ← hmeasurable, ← hi.found.ids]
    constructor
    · rintro ⟨hid, hvalid⟩
      exact (hi.registered id hid).elim hvalid fun h => h
    · exact fun hid => ⟨hi.measured id hid, fun _ => hid⟩
  · refine ⟨_, ht.told c hc, fun hused => ?_, fun hunused => ?_⟩
    · rw [attributionIn, hi.found.sources]
      exact congrArg (Option.getD · _) (if_pos ((hused_iff c.source).1 hused))
    · rw [attributionIn, hi.found.sources]
      exact congrArg (Option.getD · _) (if_neg fun h => hunused ((hused_iff c.source).2 h))
  · exact ⟨fun hs => hi.keyed.id (ht.sessions ▸ hs), by
      rw [SessionRegistry.len, ht.sessions]; exact hi.keyed.bounded⟩
  · intro n
    obtain ⟨m, hm⟩ := ht.later
    rw [hm]
    exact hi.steady _

/-- Nothing that is kept changed. -/
structure Still (h h' : HostWorld) : Prop where
  world : h'.world = h.world
  roots : h'.roots = h.roots
  traffic : h'.traffic = h.traffic

theorem Still.settled (hstill : Still h h') (hsettled : Settled processes h') :
    Settled processes h := by
  obtain ⟨hworld, hroots, -⟩ := hstill
  refine ⟨fun id s => ?_, fun id => ?_, fun c hc => ?_⟩
  · rw [← hworld]
    exact hsettled.rooted id s
  · rw [← hworld, ← hroots]
    exact hsettled.measured id
  · unfold Used
    rw [← hworld]
    exact hsettled.adapters c hc

theorem still_session (hsettled : Settled processes h₀) (hstill : Still h₀ h)
    (hsteady : Steady processes h) (hs : h₀.world.registry.sessions.lookup s.id = some s) :
    wp (reconcileSession (h₀.roots.map (·.sessionId)) valid s) h
      (fun _ h' => Still h₀ h' ∧ Steady processes h') fun _ _ => False := by
  have hcalled : Still h₀ (h.called h.world) ∧ Steady processes (h.called h.world) :=
    ⟨⟨hstill.world, hstill.roots, hstill.traffic⟩, fun n => hsteady (n + 1)⟩
  unfold reconcileSession
  split
  · exact ⟨hstill, hsteady⟩
  · next root hroot =>
    have hlive := hsettled.rooted _ s hs (by rw [hroot]; rfl)
    obtain ⟨hactive, root', hroot', hruns⟩ := hlive
    obtain rfl := Option.some.inj (hroot.symm.trans hroot')
    rw [if_neg (by simp [hactive])]
    simp only [liveProcess, wp_bind, wp_resolveProcessIdentity, wp_pure]
    split
    · next hnone => exact ((live_eq_none (hsteady 0)).1 hnone hruns).elim
    · unfold keepRoot
      dsimp only
      split
      · exact hcalled
      · next hknown =>
        have hmem : s.id ∈ h₀.roots.map (·.sessionId) :=
          (hsettled.measured s.id).2 ⟨s, hs, ⟨hactive, root, hroot, hruns⟩, hknown⟩
        rw [wp_bind, wp_onlyIf]
        refine ⟨fun hno => ?_, fun _ => hcalled⟩
        simp [hmem] at hno

/-- A pass over a settled host does not fail and changes nothing. -/
theorem wp_still (hk : Keyed h.world.registry) (hsteady : Steady processes h)
    (hsettled : Settled processes h) :
    wp (reconcileMetricRoots cfg) h (fun _ => Still h) fun _ _ => False := by
  unfold reconcileMetricRoots
  rw [wp_bind, wp_snapshotSessions, wp_bind, wp_get, wp_bind]
  have hrun : wp ((snapshotWithSequence h.env.core h.world).snapshot.sessions.foldlM
      (reconcileSession (h.roots.map (·.sessionId))) {}) (h.called h.world)
      (fun _ h' => Still h h' ∧ Steady processes h') fun _ _ => False :=
    wp_foldlM (fun valid s hs h' hh => still_session hsettled hh.1 hh.2 ((mem_snapshot hk).1 hs)) _
      ⟨⟨rfl, rfl, rfl⟩, fun n => hsteady (n + 1)⟩
  refine wp_mono (wp_and (wp_settling hk hsteady) hrun) ?_ fun _ _ h => h.2
  rintro valid h₁ ⟨hi, hstill, -⟩
  set sessions := (snapshotWithSequence h.env.core h.world).snapshot.sessions
  have hmeasurable : ∀ id s, h.world.registry.sessions.lookup id = some s →
      Measurable processes s → s ∈ sessions ∧ s.id = id := by
    intro id s hs _
    obtain rfl := hk.id hs
    exact ⟨(mem_snapshot hk).2 hs, rfl⟩
  rw [wp_bind]
  refine wp_mono (wp_unregisterAll valid.sessionIds _) (fun _ h₂ hkept => ?_) fun _ _ h => h
  have hstill₂ : Still h h₂ := by
    rw [hkept]
    refine ⟨hstill.world, ?_, hstill.traffic⟩
    refine (List.filter_eq_self.2 fun r hr => ?_).trans hstill.roots
    rw [hstill.roots] at hr
    obtain ⟨s, hs, hm⟩ := (hsettled.measured r.sessionId).1 (List.mem_map_of_mem hr)
    have hvalid : r.sessionId ∈ valid.sessionIds := by
      obtain ⟨hmem, hid⟩ := hmeasurable _ s hs hm
      exact (hi.found.ids _).2 ⟨s, hmem, hid, hm⟩
    simp [hvalid]
  unfold reconcileAdapterAttribution
  have hread : ∀ {Q : List AdapterCapabilities → HostWorld → Prop}
      {E : HostFault → HostWorld → Prop},
      wp snapshotAdapters h₂ Q E ↔ Q h₂.world.inner.integrations (h₂.called h₂.world) := Iff.rfl
  rw [wp_bind, hread]
  refine wp_forM (I := Still h) _ _ (fun c hc h' hh => ?_)
    ⟨hstill₂.world, hstill₂.roots, hstill₂.traffic⟩
  obtain ⟨attribution, hfind, hused, hunused⟩ := hsettled.adapters c hc
  have hattribution : attributionIn valid.sources c.source = attribution := by
    rw [attributionIn, hi.found.sources]
    by_cases h : Used processes h c.source
    · rw [hused h]
      obtain ⟨id, s, hs, hm, hsource⟩ := h
      exact congrArg (Option.getD · _) (if_pos ⟨s, (hmeasurable id s hs hm).1, hsource, hm⟩)
    · rw [hunused h]
      refine congrArg (Option.getD · _) (if_neg ?_)
      rintro ⟨s, hs, hsource, hm⟩
      exact h ⟨s.id, s, (mem_snapshot hk).1 hs, hm, hsource⟩
  simp only [setAdapterAttributionWithSnapshot, find_builtin_self c hc]
  rw [if_pos]
  · exact hh
  · rw [hstill₂.world, hfind, ← hattribution]
    rfl

end Passes

/-! ## Convergence -/

/-- From every reachable state : a pass that returns settles the host. It takes away the roots that
do not run, leaves every other session as it was, and changes nothing exactly if the host was
settled; after it a pass always returns and changes nothing. -/
theorem reconcile_converges {cfg : CoreConfig} {env : Env} {settings : PublicSettings}
    {db : Database} {s₀ s : CoreState} {acts : List CoreAct} {h' : HostWorld}
    (hstart : startCore cfg env settings db = some s₀) (hrun : run (coreStep cfg) s₀ acts = some s)
    (hworld : h.world = s.world) (hsteady : Steady processes h)
    (hpass : reconcileMetricRoots cfg h = .ok () h') :
    Settled processes h' ∧
    (∀ id, h'.world.registry.sessions.lookup id =
      (h.world.registry.sessions.lookup id).map (settled processes)) ∧
    (Still h h' ↔ Settled processes h) ∧
    ∃ h'', reconcileMetricRoots cfg h' = .ok () h'' ∧ Still h' h'' := by
  have hk : Keyed h.world.registry := hworld ▸ keyed_run hstart hrun
  obtain ⟨hsettled, hk', hsteady', hlookup⟩ := wp_ok (wp_settles hk hsteady) hpass
  refine ⟨hsettled, hlookup, ⟨fun hstill => hstill.settled hsettled, fun hbefore => ?_⟩, ?_⟩
  · have hstill := wp_ok (wp_still hk hsteady hbefore) hpass
    exact hstill
  · have hagain := @wp_still processes h' cfg hk' hsteady' hsettled
    cases hresult : reconcileMetricRoots cfg h' with
    | ok u h'' =>
      have hstill := wp_ok hagain hresult
      exact ⟨h'', rfl, hstill⟩
    | error e h'' => exact (wp_error hagain hresult).elim

/-- The process of the session runs. -/
def running : ℕ → Option ProcessIdentity :=
  fun pid => if pid = 7 then some ⟨7, 5⟩ else none

def runningHost (w : World) : HostWorld where
  world := w
  envs n := { core := { uuid := n + 10 }, processes := running }

/-- A root that runs is measured after a pass. -/
theorem reconcile_converges_rooted : ∃ s₀ s h',
    startCore sampleCoreConfig {} sampleSettings { integrations := sampleIntegrations } =
      some s₀ ∧
    run (coreStep sampleCoreConfig) s₀ rootedRun = some s ∧
    reconcileMetricRoots sampleCoreConfig (runningHost s.world) = .ok () h' ∧
    h'.roots.map (·.sessionId) = ["Generic:e"] ∧ Settled running h' ∧
    ∃ h'', reconcileMetricRoots sampleCoreConfig h' = .ok () h'' ∧ Still h' h'' := by
  have heval : ((startCore sampleCoreConfig {} sampleSettings
      { integrations := sampleIntegrations }).bind fun s₀ =>
        (run (coreStep sampleCoreConfig) s₀ rootedRun).bind fun s =>
          (returnedState (reconcileMetricRoots sampleCoreConfig (runningHost s.world))).map
            fun h' => h'.roots.map (·.sessionId)) = some ["Generic:e"] := by
    decide +kernel
  obtain ⟨s₀, hs₀, heval⟩ := Option.bind_eq_some_iff.1 heval
  obtain ⟨s, hs, heval⟩ := Option.bind_eq_some_iff.1 heval
  obtain ⟨h', hreturned, hroots⟩ := Option.map_eq_some_iff.1 heval
  obtain ⟨u, hpass⟩ := returnedState_eq_some.1 hreturned
  have hsteady : Steady running (runningHost s.world) := fun _ => rfl
  obtain ⟨hsettled, -, -, hagain⟩ := reconcile_converges hs₀ hs rfl hsteady hpass
  exact ⟨s₀, s, h', hs₀, hs, hpass, hroots, hsettled, hagain⟩

end Host

end LlmNotch
