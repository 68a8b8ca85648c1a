import LlmNotch.ReconnectSchedule

/-!
# The reconnects of every host

A poll goes through the registered sessions, and does to each host what it does to the session of
that host alone (`pollActiveSessions_host`). `WellPaced` holds in every registry the desktop can
reach, so that the counts of a host and of its session stay together.

A run of polls is `OnSchedule` while the watch has the count of the schedule and no attempt was
early. `onSchedule_iff` : from every registry the desktop can reach, a run of polls stays on
schedule exactly if each poll counts every loss and every attempt once.
-/

namespace LlmNotch

namespace Relay

/-! ## The registry between two polls -/

section

variable {s : RelaySession} {w : SessionWatch}

theorem Paced.snapshot (h : Paced s w) (alive : Except TransportError Bool) :
    Paced (s.snapshot alive) w := by
  rcases h.state with ⟨hsome, -⟩ | ⟨hnone, -⟩
  · cases halive : isAlive alive with
    | true =>
      rw [RelaySession.snapshot_alive halive]
      exact h
    | false =>
      rw [RelaySession.snapshot_dead halive hsome]
      exact h.dropped hsome
  · rw [RelaySession.snapshot_none hnone]
    exact h

/-- A start that is refused leaves the watch as it is, one that succeeds resets it. -/
theorem Paced.start (h : Paced s w) (outcome : Except TransportError RelayHello) :
    (∀ error, (s.start outcome).1 = .error error → Paced (s.start outcome).2 w) ∧
    ((s.start outcome).1 = .ok () → Paced (s.start outcome).2 w.reset) := by
  unfold RelaySession.start
  split_ifs with hactive hfailed
  · exact ⟨fun _ _ => h, nofun⟩
  · exact ⟨fun _ _ => h, nofun⟩
  · split
    · refine ⟨nofun, fun _ => ⟨h.policy, .inl ⟨rfl, rfl⟩, fun _ => ⟨rfl, rfl⟩, Nat.zero_le _, ?_⟩⟩
      exact Nat.zero_le _
    · refine ⟨fun error _ => ⟨h.policy, .inr ⟨rfl, ?_⟩, nofun, h.attempt, h.bound⟩, nofun⟩
      unfold RelaySession.fail
      dsimp only
      split_ifs <;> rfl

theorem Paced.withResume {host : RemoteHostConfig} (hzero : w.reconnectAttempt = 0) :
    Paced (.withResume host .default 0) w := by
  refine ⟨rfl, .inr ⟨rfl, rfl⟩, nofun, Nat.zero_le _, ?_⟩
  rw [hzero]
  exact Nat.zero_le _

end

/-- A host with the session that is registered for it, if any. -/
def HostPaced : Option RelaySession → SessionWatch → Prop
  | some s, w => Paced s w
  | none, w => w.reconnectAttempt = 0

namespace Registry

variable {env : Env} {r t : Registry} {hostId : String}

def watchOf (r : Registry) (hostId : String) : SessionWatch :=
  (r.watch hostId).getD .default

def hostIds (r : Registry) : List String :=
  r.sessions.map fun s => s.host.id

structure WellPaced (r : Registry) : Prop where
  nodup : r.hostIds.Nodup
  keyed : ∀ hostId config, r.hosts hostId = some config → config.id = hostId
  hosts : ∀ hostId, HostPaced (r.session hostId) (r.watchOf hostId)

/-- Two registries that agree on a host. -/
def SameHost (r t : Registry) (hostId : String) : Prop :=
  t.session hostId = r.session hostId ∧ t.watchOf hostId = r.watchOf hostId

theorem WellPaced.change (h : r.WellPaced) (hostId : String) (hnodup : t.hostIds.Nodup)
    (hkeyed : ∀ hostId config, t.hosts hostId = some config → config.id = hostId)
    (hsame : ∀ other, other ≠ hostId → SameHost r t other)
    (hhost : HostPaced (t.session hostId) (t.watchOf hostId)) : t.WellPaced := by
  refine ⟨hnodup, hkeyed, fun other => ?_⟩
  by_cases hother : other = hostId
  · exact hother ▸ hhost
  · obtain ⟨hsession, hwatch⟩ := hsame other hother
    rw [hsession, hwatch]
    exact h.hosts other

theorem hostIds_setSession (r : Registry) (s : RelaySession) :
    (r.setSession s).hostIds = r.hostIds := by
  unfold hostIds setSession
  rw [List.map_map]
  refine List.map_congr_left fun other _ => ?_
  dsimp only [Function.comp]
  split_ifs with hsame
  · exact hsame.symm
  · rfl

/-- The session of a host after one session was put back. -/
theorem session_setSession (r : Registry) (s : RelaySession) (hostId : String) :
    (r.setSession s).session hostId =
      if hostId = s.host.id then (r.session hostId).map fun _ => s else r.session hostId := by
  unfold session setSession
  dsimp only
  induction r.sessions with
  | nil => split_ifs <;> rfl
  | cons other rest ih =>
    rw [List.map_cons, List.find?_cons, List.find?_cons]
    by_cases hself : other.host.id = s.host.id
    · rw [if_pos hself]
      by_cases hid : hostId = s.host.id
      · simp [hid, hself]
      · have hother : other.host.id ≠ hostId := fun heq => hid (heq.symm.trans hself)
        simpa [Ne.symm hid, hother] using ih
    · rw [if_neg hself]
      by_cases hother : other.host.id = hostId
      · have hid : hostId ≠ s.host.id := fun heq => hself (hother.trans heq)
        simp [hother, hid]
      · simpa [hother] using ih

theorem watchOf_update (r : Registry) (hostId : String) (w : Option SessionWatch)
    (other : String) :
    { r with watch := Function.update r.watch hostId w }.watchOf other =
      if other = hostId then w.getD .default else r.watchOf other := by
  unfold watchOf
  dsimp only
  by_cases hother : other = hostId
  · rw [if_pos hother, hother, Function.update_self]
  · rw [if_neg hother, Function.update_of_ne hother]

theorem mem_hostIds (h : r.session hostId = none) : hostId ∉ r.hostIds := by
  intro hmem
  obtain ⟨s, hs, hid⟩ := List.mem_map.1 hmem
  have hnot := List.find?_eq_none.1 h s hs
  simp [hid] at hnot

/-- The session that is dropped is the only one of its host. -/
theorem session_eraseP (hnodup : r.hostIds.Nodup) (hostId other : String) :
    { r with sessions := r.sessions.eraseP fun s => s.host.id = hostId }.session other =
      if other = hostId then none else r.session other := by
  unfold hostIds at hnodup
  unfold session
  dsimp only
  generalize r.sessions = sessions at hnodup ⊢
  induction sessions with
  | nil => split_ifs <;> rfl
  | cons s rest ih =>
    rw [List.map_cons, List.nodup_cons] at hnodup
    rw [List.eraseP_cons, List.find?_cons]
    by_cases hself : s.host.id = hostId
    · have hrest : rest.find? (fun other => other.host.id = hostId) = none := by
        refine List.find?_eq_none.2 fun other hmem hid => hnodup.1 ?_
        rw [hself, ← of_decide_eq_true hid]
        exact List.mem_map_of_mem hmem
      by_cases hid : other = hostId
      · simpa [hself, hid] using hrest
      · simp [hself, hid, Ne.symm hid]
    · by_cases hother : s.host.id = other
      · have hid : other ≠ hostId := fun heq => hself (hother.trans heq)
        simp [hother, hid]
      · simpa [hself, hother] using ih hnodup.2

theorem WellPaced.setSession (h : r.WellPaced) {s s' : RelaySession} {w : SessionWatch}
    (hs : r.session hostId = some s) (hhost : s'.host.id = hostId) (hpaced : Paced s' w)
    (watch : String → Option SessionWatch) (connects : List ConnectMade)
    (hwatch : ∀ other, (watch other).getD .default =
      if other = hostId then w else r.watchOf other) :
    { r.setSession s' with watch := watch, connects := connects }.WellPaced := by
  refine h.change hostId ?_ h.keyed (fun other hother => ⟨?_, ?_⟩) ?_
  · exact (r.hostIds_setSession s').symm ▸ h.nodup
  · refine (r.session_setSession s' other).trans ?_
    rw [hhost, if_neg hother]
  · refine (hwatch other).trans ?_
    rw [if_neg hother]
  · have hsession : (r.setSession s').session hostId = some s' := by
      rw [session_setSession, hhost, if_pos rfl, hs]
      rfl
    have hself : (watch hostId).getD .default = w := by rw [hwatch, if_pos rfl]
    show HostPaced ((r.setSession s').session hostId) ((watch hostId).getD .default)
    rw [hsession, hself]
    exact hpaced

theorem WellPaced.connectionStatus (h : r.WellPaced) (hostId : String)
    (alive : Except TransportError Bool) : (r.connectionStatus hostId alive).WellPaced := by
  unfold Registry.connectionStatus
  split
  · exact h
  · next s hs =>
    have hpaced : HostPaced (r.session hostId) (r.watchOf hostId) := h.hosts hostId
    rw [hs] at hpaced
    refine h.setSession (w := r.watchOf hostId) hs ?_ (hpaced.snapshot alive) r.watch r.connects ?_
    · rw [RelaySession.snapshot_host]
      exact (mem_of_session hs).2
    · intro other
      split_ifs with hother
      · rw [hother]
        rfl
      · rfl

theorem session_noteConnect (r : Registry) (config : RemoteHostConfig) (called : Bool) :
    ∃ connects, r.noteConnect config called = { r with connects := connects } := by
  unfold noteConnect
  split_ifs
  · exact ⟨_, rfl⟩
  · exact ⟨r.connects, rfl⟩

/-- `RemoteRelayManager::snapshots`, which looks at the process of every session. -/
def snapshots (r : Registry) (alive : String → Except TransportError Bool) : Registry :=
  { r with sessions := r.sessions.map fun s : RelaySession => s.snapshot (alive s.host.id) }

theorem session_snapshots (r : Registry) (alive : String → Except TransportError Bool)
    (hostId : String) :
    (r.snapshots alive).session hostId =
      (r.session hostId).map fun s => s.snapshot (alive hostId) := by
  unfold snapshots session
  dsimp only
  induction r.sessions with
  | nil => rfl
  | cons s rest ih =>
    rw [List.map_cons, List.find?_cons, List.find?_cons, RelaySession.snapshot_host]
    by_cases hid : s.host.id = hostId
    · simp [hid]
    · simpa [hid] using ih

theorem hostIds_snapshots (r : Registry) (alive : String → Except TransportError Bool) :
    (r.snapshots alive).hostIds =
      r.hostIds := by
  unfold snapshots hostIds
  dsimp only
  rw [List.map_map]
  refine List.map_congr_left fun s _ => ?_
  exact congrArg RemoteHostConfig.id (s.snapshot_host _)

theorem WellPaced.snapshots (h : r.WellPaced) (alive : String → Except TransportError Bool) :
    (r.snapshots alive).WellPaced := by
  refine ⟨(r.hostIds_snapshots alive).symm ▸ h.nodup, h.keyed, fun hostId => ?_⟩
  have hpaced := h.hosts hostId
  rw [session_snapshots]
  cases hs : r.session hostId with
  | none =>
    rw [hs] at hpaced
    exact hpaced
  | some s =>
    rw [hs] at hpaced
    exact hpaced.snapshot _

variable {closeFault : Option TransportError} {error : RelaySessionError}

/-- Only a session with a connection can fail to close it. -/
theorem dropSession_error (hfail : (r.dropSession hostId closeFault).1 = .error error) :
    ∃ s, r.session hostId = some s ∧ s.connection.isSome = true := by
  unfold dropSession at hfail
  split at hfail
  · cases hfail
  · next s hs =>
    refine ⟨s, hs, ?_⟩
    unfold RelaySession.stop at hfail
    dsimp only at hfail
    split at hfail
    · cases hfail
    · next hconnection =>
      rw [hconnection]
      rfl

theorem session_dropSession (hnodup : r.hostIds.Nodup) (closeFault : Option TransportError)
    (other : String) :
    (r.dropSession hostId closeFault).2.session other =
      if other = hostId then none else r.session other := by
  unfold dropSession
  split
  · next hnone =>
    split_ifs with hother
    · rw [hother]
      exact hnone
    · rfl
  · exact session_eraseP hnodup hostId other

section

variable (h : r.WellPaced)

include h

/-- A host whose session was dropped, with the watch that is left. -/
theorem WellPaced.drop (hostId : String) (closeFault : Option TransportError) (t : Registry)
    (hsessions : t.sessions = (r.dropSession hostId closeFault).2.sessions)
    (hkeyed : ∀ other config, t.hosts other = some config → config.id = other)
    (hwatch : ∀ other, other ≠ hostId → t.watchOf other = r.watchOf other)
    (hzero : (t.watchOf hostId).reconnectAttempt = 0) : t.WellPaced := by
  have hsession : ∀ other, t.session other = if other = hostId then none else r.session other := by
    intro other
    rw [← session_dropSession h.nodup closeFault other]
    unfold session
    rw [hsessions]
  refine h.change hostId ?_ hkeyed (fun other hother => ⟨?_, hwatch other hother⟩) ?_
  · obtain ⟨sessions, hsub, hdrop⟩ := dropSession_snd r hostId closeFault
    unfold hostIds
    rw [hsessions, hdrop]
    exact (hsub.map _).nodup h.nodup
  · rw [hsession, if_neg hother]
  · rw [hsession, if_pos rfl]
    exact hzero

theorem WellPaced.drop_failed (hfail : (r.dropSession hostId closeFault).1 = .error error) :
    (r.dropSession hostId closeFault).2.WellPaced := by
  obtain ⟨s, hs, hsome⟩ := dropSession_error hfail
  obtain ⟨sessions, -, hdrop⟩ := dropSession_snd r hostId closeFault
  have hpaced : HostPaced (r.session hostId) (r.watchOf hostId) := h.hosts hostId
  rw [hs] at hpaced
  refine h.drop hostId closeFault _ rfl ?_ ?_ ?_
  · rw [hdrop]
    exact h.keyed
  · intro other _
    rw [hdrop]
    rfl
  · rw [hdrop]
    exact (hpaced.fresh hsome).2

theorem WellPaced.drop_watch (hostId : String) (closeFault : Option TransportError)
    (hosts : String → Option RemoteHostConfig)
    (hkeyed : ∀ other config, hosts other = some config → config.id = other) :
    { (r.dropSession hostId closeFault).2 with
      hosts := hosts
      watch := Function.update (r.dropSession hostId closeFault).2.watch hostId none
      }.WellPaced := by
  obtain ⟨sessions, -, hdrop⟩ := dropSession_snd r hostId closeFault
  have hwatch : (r.dropSession hostId closeFault).2.watch = r.watch := by rw [hdrop]
  refine h.drop hostId closeFault _ rfl hkeyed (fun other hother => ?_) ?_
  · unfold watchOf
    dsimp only
    rw [Function.update_of_ne hother, hwatch]
  · unfold watchOf
    dsimp only
    rw [Function.update_self]
    rfl

theorem WellPaced.removeHost (hostId : String) (closeFault : Option TransportError)
    (deleteFault : Option String) : (r.removeHost hostId closeFault deleteFault).WellPaced := by
  obtain ⟨sessions, -, hdrop⟩ := dropSession_snd r hostId closeFault
  unfold Registry.removeHost
  split_ifs
  · exact h
  · split
    · next error t heq =>
      have hfailed := h.drop_failed (congrArg Prod.fst heq)
      rwa [heq] at hfailed
    · next t heq =>
      have ht : (r.dropSession hostId closeFault).2 = t := congrArg Prod.snd heq
      have hkeyed : ∀ other config, t.hosts other = some config → config.id = other := by
        rw [← ht, hdrop]
        exact h.keyed
      cases deleteFault with
      | some _ =>
        rw [← ht] at hkeyed ⊢
        exact h.drop_watch hostId closeFault _ hkeyed
      | none =>
        rw [← ht] at hkeyed ⊢
        refine h.drop_watch hostId closeFault _ fun other config hconfig => ?_
        by_cases hother : other = hostId
        · rw [hother, Function.update_self] at hconfig
          cases hconfig
        · rw [Function.update_of_ne hother] at hconfig
          exact hkeyed other config hconfig

theorem WellPaced.stopRelay (hostId : String) (available : Bool)
    (closeFault : Option TransportError) : (r.stopRelay hostId available closeFault).WellPaced := by
  obtain ⟨sessions, -, hdrop⟩ := dropSession_snd r hostId closeFault
  unfold Registry.stopRelay
  split_ifs
  · split
    · next error t heq =>
      have hfailed := h.drop_failed (congrArg Prod.fst heq)
      rwa [heq] at hfailed
    · next t heq =>
      have ht : (r.dropSession hostId closeFault).2 = t := congrArg Prod.snd heq
      rw [← ht]
      refine h.drop_watch hostId closeFault _ ?_
      rw [hdrop]
      exact h.keyed
  · exact h

theorem WellPaced.upsertHost (isAbsolute : String → Bool) (config : RemoteHostConfig)
    (persistFault : Option String) : (r.upsertHost isAbsolute config persistFault).2.WellPaced := by
  unfold Registry.upsertHost
  split
  · exact h
  · exact h
  · refine ⟨h.nodup, fun other found hfound => ?_, h.hosts⟩
    dsimp only at hfound
    by_cases hother : other = config.id
    · rw [hother, Function.update_self] at hfound
      cases hfound
      exact hother.symm
    · rw [Function.update_of_ne hother] at hfound
      exact h.keyed other found hfound

theorem WellPaced.register (spoolDirValid : Bool) {host : RemoteHostConfig}
    (hhost : host.id = hostId) : (r.register spoolDirValid hostId host).WellPaced := by
  unfold Registry.register
  split_ifs with hnew
  · have hnone : r.session hostId = none := by
      simpa using (Bool.and_eq_true_iff.1 hnew).1
    have hzero : HostPaced (r.session hostId) (r.watchOf hostId) := h.hosts hostId
    rw [hnone] at hzero
    refine h.change hostId ?_ h.keyed (fun other hother => ⟨?_, rfl⟩) ?_
    · unfold hostIds
      rw [List.map_append]
      refine List.nodup_append.2 ⟨h.nodup, List.nodup_singleton _, fun id hid new hnew => ?_⟩
      rintro rfl
      rw [List.mem_singleton.1 hnew] at hid
      exact mem_hostIds hnone (hhost ▸ hid)
    · unfold session
      rw [List.find?_append]
      have hnot : host.id ≠ other := fun heq => hother (heq.symm.trans hhost)
      simp [RelaySession.withResume, hnot]
    · have hsession : { r with sessions := r.sessions ++
            [RelaySession.withResume host .default 0] }.session hostId =
          some (RelaySession.withResume host .default 0) := by
        unfold session at hnone ⊢
        rw [List.find?_append, hnone]
        simp [RelaySession.withResume, hhost]
      rw [hsession]
      exact .withResume hzero
  · exact h

theorem WellPaced.startRelay (spoolDirValid : Bool) (hostId : String) (available : Bool)
    (outcome : Except TransportError RelayHello) (alive : Except TransportError Bool) :
    (r.startRelay spoolDirValid hostId available outcome alive).WellPaced := by
  unfold Registry.startRelay
  split
  · next host hhost =>
    have hregister : (r.register spoolDirValid hostId host).WellPaced :=
      h.register spoolDirValid (h.keyed hostId host hhost)
    dsimp only
    generalize r.register spoolDirValid hostId host = r at hregister ⊢
    split
    · exact hregister
    · next s hs =>
      have hid : (s.start outcome).2.host.id = hostId := by
        rw [RelaySession.start_host]
        exact (mem_of_session hs).2
      have hpaced : HostPaced (r.session hostId) (r.watchOf hostId) := hregister.hosts hostId
      rw [hs] at hpaced
      obtain ⟨hfail, hok⟩ := hpaced.start outcome
      obtain ⟨connects, hnote⟩ := r.session_noteConnect s.host s.startConnects
      rw [hnote]
      split
      · next error heq =>
        refine hregister.setSession (w := r.watchOf hostId) hs hid (hfail error heq) r.watch
          connects fun other => ?_
        split_ifs with hother
        · rw [hother]
          rfl
        · rfl
      · next heq =>
        refine WellPaced.connectionStatus ?_ hostId alive
        refine hregister.setSession (w := (r.watchOf hostId).reset) hs hid (hok heq) _ connects
          fun other => ?_
        by_cases hother : other = hostId
        · rw [if_pos hother, hother, Function.update_self]
          rfl
        · rw [if_neg hother, Function.update_of_ne hother]
          rfl
  · exact h

end

/-- What a poll makes of the session and the watch of one host. -/
def polledHost (now : ℤ) (poll : HostPoll) :
    Option RelaySession → SessionWatch → Option RelaySession × SessionWatch
  | some s, w => (some (pollSession now poll s w).1, (pollSession now poll s w).2.1)
  | none, w => (none, w)

theorem pollHost_self (r : Registry) (now : ℤ) (poll : HostPoll) (hostId : String) :
    ((r.pollHost now poll hostId).session hostId, (r.pollHost now poll hostId).watchOf hostId) =
      polledHost now poll (r.session hostId) (r.watchOf hostId) := by
  unfold pollHost
  cases hs : r.session hostId with
  | none =>
    dsimp only
    rw [hs]
    rfl
  | some s =>
    have hhost : (pollSession now poll s (r.watchOf hostId)).1.host.id = hostId := by
      rw [pollSession_host]
      exact (mem_of_session hs).2
    obtain ⟨connects, hnote⟩ := r.session_noteConnect s.host
      (pollSession now poll s (r.watchOf hostId)).2.2
    have hsession : (r.setSession (pollSession now poll s (r.watchOf hostId)).1).session hostId =
        some (pollSession now poll s (r.watchOf hostId)).1 := by
      rw [session_setSession, hhost, if_pos rfl, hs]
      rfl
    refine Prod.ext ?_ ?_
    · show ((r.noteConnect s.host (pollSession now poll s (r.watchOf hostId)).2.2).setSession
        (pollSession now poll s (r.watchOf hostId)).1).session hostId = _
      rw [hnote]
      exact hsession
    · exact (watchOf_update _ hostId _ hostId).trans (if_pos rfl)

theorem pollHost_other (r : Registry) (now : ℤ) (poll : HostPoll) {other : String}
    (hother : other ≠ hostId) : SameHost r (r.pollHost now poll hostId) other := by
  unfold pollHost
  split
  · exact ⟨rfl, rfl⟩
  · next s hs =>
    dsimp only
    obtain ⟨connects, hnote⟩ := r.session_noteConnect s.host
      (pollSession now poll s ((r.watch hostId).getD .default)).2.2
    rw [hnote]
    refine ⟨?_, ?_⟩
    · have hhost : (pollSession now poll s ((r.watch hostId).getD .default)).1.host.id ≠ other := by
        rw [pollSession_host, (mem_of_session hs).2]
        exact hother.symm
      exact (r.session_setSession _ other).trans (if_neg hhost.symm)
    · exact (watchOf_update _ hostId _ other).trans (if_neg hother)

theorem hostIds_pollHost (r : Registry) (now : ℤ) (poll : HostPoll) (hostId : String) :
    (r.pollHost now poll hostId).hostIds = r.hostIds ∧
      (r.pollHost now poll hostId).hosts = r.hosts := by
  unfold pollHost
  split
  · exact ⟨rfl, rfl⟩
  · next s hs =>
    dsimp only
    obtain ⟨connects, hnote⟩ := r.session_noteConnect s.host
      (pollSession now poll s ((r.watch hostId).getD .default)).2.2
    rw [hnote]
    exact ⟨r.hostIds_setSession _, rfl⟩

/-- The hosts are polled one after the other, each with the session it had. -/
theorem foldl_pollHost (now : ℤ) (hosts : String → HostPoll) :
    ∀ (ids : List String) (r : Registry), ids.Nodup →
      (∀ hostId, hostId ∉ ids → SameHost r
        (ids.foldl (fun r hostId => r.pollHost now (hosts hostId) hostId) r) hostId) ∧
      ∀ hostId ∈ ids,
        ((ids.foldl (fun r hostId => r.pollHost now (hosts hostId) hostId) r).session hostId,
          (ids.foldl (fun r hostId => r.pollHost now (hosts hostId) hostId) r).watchOf hostId) =
        polledHost now (hosts hostId) (r.session hostId) (r.watchOf hostId)
  | [], _, _ => ⟨fun _ _ => ⟨rfl, rfl⟩, nofun⟩
  | id :: ids, r, hnodup => by
    rw [List.nodup_cons] at hnodup
    obtain ⟨hsame, hpolled⟩ :=
      foldl_pollHost now hosts ids (r.pollHost now (hosts id) id) hnodup.2
    constructor
    · intro hostId hnot
      rw [List.mem_cons, not_or] at hnot
      obtain ⟨hsession, hwatch⟩ := hsame hostId hnot.2
      obtain ⟨hsession', hwatch'⟩ := r.pollHost_other now (hosts id) hnot.1
      exact ⟨hsession.trans hsession', hwatch.trans hwatch'⟩
    · intro hostId hmem
      rw [List.foldl_cons]
      by_cases hid : hostId = id
      · subst hid
        obtain ⟨hsession, hwatch⟩ := hsame hostId hnodup.1
        rw [hsession, hwatch]
        exact r.pollHost_self now (hosts hostId) hostId
      · have hrest := hpolled hostId ((List.mem_cons.1 hmem).resolve_left hid)
        obtain ⟨hsession, hwatch⟩ := r.pollHost_other now (hosts id) hid
        rw [hrest, hsession, hwatch]

theorem hostIds_foldl_pollHost (now : ℤ) (hosts : String → HostPoll) (ids : List String)
    (r : Registry) :
    (ids.foldl (fun r hostId => r.pollHost now (hosts hostId) hostId) r).hostIds = r.hostIds ∧
      (ids.foldl (fun r hostId => r.pollHost now (hosts hostId) hostId) r).hosts = r.hosts := by
  induction ids generalizing r with
  | nil => exact ⟨rfl, rfl⟩
  | cons id ids ih =>
    obtain ⟨hids, hhosts⟩ := ih (r.pollHost now (hosts id) id)
    obtain ⟨hids', hhosts'⟩ := r.hostIds_pollHost now (hosts id) id
    exact ⟨hids.trans hids', hhosts.trans hhosts'⟩

/-- A poll does to each host what it does to its session. -/
theorem pollActiveSessions_host (hnodup : r.hostIds.Nodup) (now : ℤ) (hosts : String → HostPoll)
    (hostId : String) :
    ((r.pollActiveSessions now true hosts).session hostId,
        (r.pollActiveSessions now true hosts).watchOf hostId) =
      polledHost now (hosts hostId)
        ((r.session hostId).map fun s => s.snapshot (hosts hostId).aliveFirst)
        (r.watchOf hostId) := by
  have hpoll : r.pollActiveSessions now true hosts =
      (r.snapshots fun hostId => (hosts hostId).aliveFirst).hostIds.foldl
        (fun r hostId => r.pollHost now (hosts hostId) hostId)
        (r.snapshots fun hostId => (hosts hostId).aliveFirst) := rfl
  have hsession := r.session_snapshots (fun hostId => (hosts hostId).aliveFirst) hostId
  rw [hpoll, hostIds_snapshots]
  obtain ⟨hsame, hpolled⟩ := foldl_pollHost now hosts r.hostIds
    (r.snapshots fun hostId => (hosts hostId).aliveFirst) hnodup
  by_cases hmem : hostId ∈ r.hostIds
  · rw [hpolled hostId hmem, hsession]
    rfl
  · obtain ⟨hsession', hwatch⟩ := hsame hostId hmem
    have hnone : r.session hostId = none := by
      refine List.find?_eq_none.2 fun s hs hid => hmem ?_
      rw [← of_decide_eq_true hid]
      exact List.mem_map_of_mem hs
    rw [hsession', hwatch, hsession, hnone]
    rfl

theorem WellPaced.pollActiveSessions (h : r.WellPaced) (now : ℤ) (available : Bool)
    (hosts : String → HostPoll) : (r.pollActiveSessions now available hosts).WellPaced := by
  cases available with
  | false => exact h
  | true =>
    have hsnapshots := h.snapshots fun hostId => (hosts hostId).aliveFirst
    obtain ⟨hids, hhosts⟩ := hostIds_foldl_pollHost now hosts
      (r.snapshots fun hostId => (hosts hostId).aliveFirst).hostIds
      (r.snapshots fun hostId => (hosts hostId).aliveFirst)
    refine ⟨?_, ?_, fun hostId => ?_⟩
    · exact hids.symm ▸ hsnapshots.nodup
    · exact hhosts.symm ▸ hsnapshots.keyed
    · obtain ⟨hsession, hwatch⟩ := Prod.ext_iff.1 (pollActiveSessions_host h.nodup now hosts hostId)
      dsimp only at hsession hwatch
      rw [hsession, hwatch]
      have hpaced := h.hosts hostId
      cases hs : r.session hostId with
      | none =>
        rw [hs] at hpaced
        exact hpaced
      | some s =>
        rw [hs] at hpaced
        exact hpaced.polled (polled_cases hpaced)

/-! ## Runs -/

/-- The calls of the desktop that reach the sessions. -/
inductive DesktopCall where
  | exec (call : RegistryCall)
  | listHosts (alive : String → Except TransportError Bool)
  | connectionStatus (hostId : String) (alive : Except TransportError Bool)

def desktopStep (env : Env) (r : Registry) : DesktopCall → Option Registry
  | .exec call => step env r call
  | .listHosts alive => some (r.snapshots alive)
  | .connectionStatus hostId alive => some (r.connectionStatus hostId alive)

theorem wellPaced_initial (loaded : List RemoteHostConfig) : (initial loaded).WellPaced := by
  refine ⟨List.nodup_nil, fun hostId config hconfig => ?_, fun hostId => rfl⟩
  simpa using List.find?_some hconfig

theorem WellPaced.step (h : r.WellPaced) {call : DesktopCall}
    (hstep : desktopStep env r call = some t) : t.WellPaced := by
  cases call with
  | exec call =>
    cases hstep
    cases call with
    | upsertHost config persistFault => exact h.upsertHost env.isAbsolute config persistFault
    | removeHost hostId closeFault deleteFault => exact h.removeHost hostId closeFault deleteFault
    | startRelay hostId available outcome alive =>
      exact h.startRelay env.spoolDirValid hostId available outcome alive
    | stopRelay hostId available closeFault => exact h.stopRelay hostId available closeFault
    | pollActiveSessions now available hosts => exact h.pollActiveSessions now available hosts
  | listHosts alive =>
    cases hstep
    exact h.snapshots alive
  | connectionStatus hostId alive =>
    cases hstep
    exact h.connectionStatus hostId alive

theorem wellPaced_run {loaded : List RemoteHostConfig} {calls : List DesktopCall}
    (hrun : run (desktopStep env) (initial loaded) calls = some r) : r.WellPaced :=
  Guarded.invariant (fun _ _ _ _ hpaced hstep => hpaced.step hstep) (wellPaced_initial loaded)
    (Guarded.trivial _ _ _) hrun

end Registry

/-- A call of `poll_active_sessions`, with what the processes do. -/
structure Poll where
  now : ℤ
  available : Bool
  hosts : String → HostPoll

/-- The registry in a run of polls, with the schedule of one host. -/
structure Followed where
  registry : Registry
  schedule : Schedule

namespace Followed

/-- A run starts with the count it finds. -/
def start (registry : Registry) (hostId : String) : Followed :=
  ⟨registry, (registry.watchOf hostId).reconnectAttempt, none, false⟩

def events (f : Followed) (hostId : String) (poll : Poll) : List ConnectEvent :=
  match poll.available, f.registry.session hostId with
  | true, some s => pollEvents poll.now (poll.hosts hostId) s (f.registry.watchOf hostId)
  | _, _ => []

def step (hostId : String) (f : Followed) (poll : Poll) : Option Followed :=
  some ⟨f.registry.pollActiveSessions poll.now poll.available poll.hosts,
    f.schedule.follow poll.now (f.events hostId poll)⟩

/-- The attempts are those of the schedule, and no connect was made before its time. -/
def OnSchedule (hostId : String) (f : Followed) : Prop :=
  OnTime f.schedule (f.registry.watchOf hostId)

/-- A poll of a registered host counts what it finds once. -/
def CountsHost (hostId : String) (f : Followed) (poll : Poll) : Prop :=
  poll.available = true → ∀ s, f.registry.session hostId = some s →
    CountsOnce poll.now (poll.hosts hostId) s (f.registry.watchOf hostId)

structure Inv (hostId : String) (f : Followed) : Prop where
  paced : f.registry.WellPaced
  inStep : ∀ s, f.registry.session hostId = some s →
    InStep f.schedule s (f.registry.watchOf hostId)

theorem step_onSchedule {hostId : String} {f : Followed} (poll : Poll)
    (h : f.OnSchedule hostId) (hinv : f.Inv hostId) :
    ∃ t, f.step hostId poll = some t ∧ (t.OnSchedule hostId ↔ f.CountsHost hostId poll) ∧
      (f.CountsHost hostId poll → t.Inv hostId) := by
  have hpaced := fun available =>
    hinv.paced.pollActiveSessions poll.now available poll.hosts
  refine ⟨_, rfl, ?_⟩
  unfold OnSchedule CountsHost events
  cases poll.available with
  | false => exact ⟨iff_of_true h nofun, fun _ => ⟨hpaced false, hinv.inStep⟩⟩
  | true =>
    obtain ⟨hsession, hwatch⟩ := Prod.ext_iff.1
      (Registry.pollActiveSessions_host hinv.paced.nodup poll.now poll.hosts hostId)
    have hhost := hinv.paced.hosts hostId
    cases hs : f.registry.session hostId with
    | none =>
      rw [hs] at hsession hwatch
      dsimp only [Option.map_none, Registry.polledHost] at hsession hwatch ⊢
      rw [hwatch]
      refine ⟨iff_of_true h ?_, fun _ => ⟨hpaced true, fun s hsome => ?_⟩⟩
      · rintro - s ⟨⟩
      · rw [show _ = _ from hsession] at hsome
        cases hsome
    | some s =>
      rw [hs] at hsession hwatch hhost
      dsimp only [Option.map_some, Registry.polledHost] at hsession hwatch ⊢
      obtain ⟨hiff, hstep⟩ := (polled_cases hhost).onTime_iff hhost (hinv.inStep s hs)
      rw [hwatch]
      have hhost : CountsOnce poll.now (poll.hosts hostId) s (f.registry.watchOf hostId) ↔
          (true = true → ∀ other, some s = some other →
            CountsOnce poll.now (poll.hosts hostId) other (f.registry.watchOf hostId)) := by
        refine ⟨?_, fun hcounts => hcounts rfl s rfl⟩
        rintro hcounts - other ⟨⟩
        exact hcounts
      constructor
      · exact hiff.trans hhost
      · intro hcounts
        refine ⟨hpaced true, ?_⟩
        intro s' hs'
        rw [show _ = _ from hsession] at hs'
        cases hs'
        exact hwatch ▸ hstep (hcounts rfl s rfl)

theorem inv_start {r : Registry} (h : r.WellPaced) (hostId : String) :
    (start r hostId).Inv hostId := by
  refine ⟨h, fun s hs => ⟨rfl, rfl, ?_, fun _ => rfl⟩⟩
  rintro time ⟨⟩

end Followed

/-- From every registry the desktop can reach, a run of polls keeps the schedule of a host exactly
if each of its polls counts every loss and every attempt once. -/
theorem onSchedule_iff (env : Registry.Env) (loaded : List RemoteHostConfig)
    (calls : List Registry.DesktopCall) (r : Registry)
    (hrun : run (Registry.desktopStep env) (Registry.initial loaded) calls = some r)
    (hostId : String) (polls : List Poll) :
    (∀ f ∈ visited (Followed.step hostId) (.start r hostId) polls, f.OnSchedule hostId) ↔
      Guarded (Followed.step hostId) (Followed.CountsHost hostId) (.start r hostId) polls :=
  Guarded.forall_visited_iff_kept (fun _ poll h hinv => Followed.step_onSchedule poll h hinv)
    ⟨rfl, rfl⟩ (Followed.inv_start (Registry.wellPaced_run hrun) hostId)

/-! ## A loss that is counted twice -/

instance (schedule : Schedule) (w : SessionWatch) : Decidable (OnTime schedule w) :=
  inferInstanceAs (Decidable (_ ∧ _))

instance (hostId : String) (f : Followed) : Decidable (f.OnSchedule hostId) :=
  inferInstanceAs (Decidable (OnTime _ _))

/-- The relay of the host runs. -/
def startedCalls : List Registry.DesktopCall :=
  [.exec (.upsertHost Registry.trusting none),
    .exec (.startRelay "build-1" true (Registry.diedPoll "build-1").outcome (.ok true))]

/-- The relay has nothing to say in time. -/
def quietPoll (hostId : String) : HostPoll :=
  ⟨.ok true, .ok true, .ok true, .error (.process "timed out"), none,
    (Registry.diedPoll hostId).outcome, .ok true⟩

/-- The relay ends its output. -/
def endedPoll (hostId : String) : HostPoll :=
  { quietPoll hostId with read := .ok none }

/-- The relay dies while the poll is with it. -/
def brokenPoll (hostId : String) : HostPoll :=
  { quietPoll hostId with aliveAfter := .ok false }

/-- One poll of a quiet relay, and one that loses it. -/
def lostPolls (lost : String → HostPoll) : List Poll :=
  [⟨1000, true, quietPoll⟩, ⟨2000, true, lost⟩]

theorem onSchedule_iff_broken :
    ∃ r, run (Registry.desktopStep Registry.sampleEnv) (Registry.initial []) startedCalls = some r ∧
      Guarded (Followed.step "build-1") (Followed.CountsHost "build-1") (.start r "build-1")
        (lostPolls brokenPoll) := by
  have hrun : (run (Registry.desktopStep Registry.sampleEnv) (Registry.initial [])
      startedCalls).any (fun r =>
        decide (∀ f ∈ visited (Followed.step "build-1") (.start r "build-1") (lostPolls brokenPoll),
          f.OnSchedule "build-1")) = true := by
    decide
  obtain ⟨r, hr, hkept⟩ := (Option.any_eq_true _ _).1 hrun
  exact ⟨r, hr, (onSchedule_iff _ [] startedCalls r hr "build-1" _).1 (of_decide_eq_true hkept)⟩

/-- The last state of a run of polls, if the relay was started before. -/
def afterPolls (polls : List Poll) : Option Followed :=
  (run (Registry.desktopStep Registry.sampleEnv) (Registry.initial []) startedCalls).bind fun r =>
    run (Followed.step "build-1") (.start r "build-1") polls

theorem visited_afterPolls {polls : List Poll} {f : Followed} (h : afterPolls polls = some f) :
    ∃ r, run (Registry.desktopStep Registry.sampleEnv) (Registry.initial []) startedCalls = some r ∧
      f ∈ visited (Followed.step "build-1") (.start r "build-1") polls := by
  obtain ⟨r, hr, hf⟩ := Option.bind_eq_some_iff.1 h
  exact ⟨r, hr, mem_visited hf⟩

/-- A stream that ends is one loss, and counts as two attempts. -/
theorem end_counts_twice :
    ∃ r, run (Registry.desktopStep Registry.sampleEnv) (Registry.initial []) startedCalls = some r ∧
      ∃ f ∈ visited (Followed.step "build-1") (.start r "build-1") (lostPolls endedPoll),
        f.schedule = ⟨1, some 2500, false⟩ ∧
        (f.registry.watchOf "build-1").reconnectAttempt = 2 ∧ ¬ f.OnSchedule "build-1" := by
  have hrun : (afterPolls (lostPolls endedPoll)).any (fun f =>
      f.schedule = ⟨1, some 2500, false⟩ && (f.registry.watchOf "build-1").reconnectAttempt = 2) =
        true := by
    decide
  obtain ⟨f, hf, hcounts⟩ := (Option.any_eq_true _ _).1 hrun
  obtain ⟨hschedule, htwice⟩ :
      f.schedule = ⟨1, some 2500, false⟩ ∧ (f.registry.watchOf "build-1").reconnectAttempt = 2 := by
    simpa using hcounts
  obtain ⟨r, hr, hvisited⟩ := visited_afterPolls hf
  refine ⟨r, hr, f, hvisited, hschedule, htwice, fun honce => ?_⟩
  have hone := honce.1
  rw [hschedule, htwice] at hone
  cases hone

end Relay

end LlmNotch
