import LlmNotch.RelayLoop

/-!
# The relay and its input

A `World` is the spool directory and a relay that is started again whenever it has ended. Files of
any content are placed in the spool at any time. The main loop fails on a frame that does not
decode, on one that names no session, and on an injected hook that is neither a removal nor
forwarded. A payload that does not parse fails a frame of any type. The file of a bad frame stays
in the spool, so that the next relay fails as well.

`relay_survives` : if the frames that are placed decode and the injected hooks are removals or
are forwarded, the main loop runs until the input ends, and from every state with a running loop
the threads can go on to write all events that are in the spool.
-/

namespace LlmNotch

namespace Relay

/-! ## The relay and its spool -/

/-- `used` holds the names of all files that were placed : a name contains a fresh id. -/
structure World where
  spool : List SpoolFile
  used : List String
  process : Process

inductive WorldAct where
  | place (name : String) (bytes : List UInt8)
  | process (act : ProcessAct)
  | restart (resume : ℕ)

namespace World

def initial (resume : ℕ) : World where
  spool := []
  used := []
  process := .start resume

def step (parse : String → Option WireIngestFrame) (w : World) : WorldAct → Option World
  | .place name bytes =>
    if name ∈ w.used then none
    else some { w with spool := w.spool ++ [⟨name, bytes⟩], used := name :: w.used }
  | .process act =>
    (w.process.step parse w.spool act).map fun r => { w with spool := r.1, process := r.2 }
  | .restart resume =>
    if w.process.main.running then none else some { w with process := .start resume }

end World

/-! ## Clean runs -/

/-- A hook the main loop takes without an error. -/
def Hook.Fine (hook : Hook) : Prop :=
  ∃ payload, hook.result = .ok payload ∧ validateHookPayload payload = .ok () ∧
    (Removes payload ∨ Forwards payload)

/-- The control messages are valid, an injected hook is a removal or is forwarded, no system call
of the watcher's visits and the main loop fails, and there is a sequence number left. -/
def Process.Clean (p : Process) : ProcessAct → Prop
  | .list fault | .visit fault => fault = none
  | .remove _ | .check => True
  | .control input => ∃ message, readControl input = .ok message ∧
    ∀ payload, message = some (.injectHook payload) → Removes payload ∨ Forwards payload
  | .drain _ fault => fault = none ∧ p.sequence + 1 < 2 ^ 64
  | .beat _ fault => fault = none ∧ p.sequence + 1 < 2 ^ 64

/-- The names a pass has still to deal with. -/
def Watcher.pending : Watcher → List String
  | visiting rest => rest
  | removing name rest => name :: rest

/-- The pending names are distinct names of frames in the spool. -/
structure Watcher.Listed (spool : List SpoolFile) (watcher : Watcher) : Prop where
  nodup : watcher.pending.Nodup
  mem : ∀ name ∈ watcher.pending, hasFrameExtension name = true ∧
    ∃ file ∈ spool, file.name = name

/-- Every frame of the spool decodes, to an event or to nothing. -/
def Decodes (parse : String → Option WireIngestFrame) (spool : List SpoolFile) : Prop :=
  ∀ file ∈ spool, hasFrameExtension file.name = true →
    (decodeFrame parse file.bytes).isOk = true

/-- Nothing but the end of the input ends the main loop. -/
structure Process.Healthy (spool : List SpoolFile) (p : Process) : Prop where
  hooks : ∀ hook ∈ p.hooks, hook.Fine
  controls : ∀ entry ∈ p.controls, ∃ control, entry = .ok control ∧
    (control = .shutdown → p.reading = false)
  watcher : p.watcher.Listed spool
  main : p.main.running = true ∨ p.main = .stopped ∧ p.reading = false

namespace Process

variable {parse : String → Option WireIngestFrame} {spool : List SpoolFile} {p : Process}
  {r : List SpoolFile × Process} {fault : Option String} {act : ProcessAct}

theorem Healthy.send (h : p.Healthy spool) {hook : Hook} (hfine : hook.Fine) :
    (p.send hook).Healthy spool := by
  constructor
  · intro other hmem
    rcases mem_send hmem with hmem | rfl
    · exact h.hooks other hmem
    · exact hfine
  · simpa using h.controls
  · simpa using h.watcher
  · simpa using h.main

variable {rest : List String} {input : Except String (Option RelayControl)}

theorem Healthy.visiting (h : p.Healthy spool) (hrest : (Watcher.visiting rest).Listed spool) :
    { p with watcher := .visiting rest }.Healthy spool :=
  ⟨h.hooks, h.controls, hrest, h.main⟩

theorem Healthy.leave (h : p.Healthy spool) (hended : p.reading = false) :
    (p.leave .stopped).Healthy spool := by
  refine ⟨?_, ?_, h.watcher, Or.inr ⟨rfl, hended⟩⟩
  · rintro hook ⟨⟩
  · rintro entry ⟨⟩

/-- A hook that is fine keeps the loop running, and its event is written. -/
theorem drain_fine {hook : Hook} {rest : List Hook} (now : Int64)
    (hhooks : p.hooks = hook :: rest) (hfine : hook.Fine) (hmain : p.main = .draining)
    (hsequence : p.sequence + 1 < 2 ^ 64) :
    ∃ sequence lines, p.drain now none =
      { p with hooks := rest, sequence := sequence, output := p.output ++ lines } ∧
        sequence ≤ p.sequence + 1 ∧
        (∀ payload, hook.result = .ok payload → Forwards payload →
          hook.origin ∈ lines.map Line.origin) := by
  obtain ⟨payload, hresult, hvalid, hremoves | hforwards⟩ := hfine
  · refine ⟨p.sequence, [], ?_, Nat.le_succ _, ?_⟩
    · simp [drain, hhooks, hresult, remove_normalizes hvalid hremoves]
    · intro other hother hforwards
      obtain rfl : payload = other := Except.ok.inj (hresult.symm.trans hother)
      exact absurd hremoves (not_removes hforwards)
  · obtain ⟨event, hnormal, -, hcheck⟩ := forward_event hvalid hforwards now
    refine ⟨p.sequence + 1, [⟨⟨p.sequence + 1, event⟩, hook.origin⟩], ?_, le_rfl, ?_⟩
    · simp only [drain, hhooks, hresult, hnormal, hmain]
      exact emit_ok hook.origin hsequence (hcheck _ _ (Nat.lt_succ_self p.sequence) hsequence)
    · intro other _ _
      exact List.mem_singleton.2 rfl

theorem Healthy.drain (h : p.Healthy spool) (hmain : p.main = .draining) (now : Int64)
    (hsequence : p.sequence + 1 < 2 ^ 64) : (p.drain now none).Healthy spool := by
  cases hhooks : p.hooks with
  | nil =>
    simp only [Process.drain, hhooks]
    exact ⟨by simp, h.controls, h.watcher, Or.inl rfl⟩
  | cons hook rest =>
    have hfine := h.hooks hook (by simp [hhooks])
    obtain ⟨sequence, lines, hdrain, -⟩ := drain_fine now hhooks hfine hmain hsequence
    rw [hdrain]
    refine ⟨fun other hmem => h.hooks other ?_, h.controls, h.watcher, h.main⟩
    rw [hhooks]
    exact List.mem_cons_of_mem hook hmem

theorem Healthy.check (h : p.Healthy spool) : p.check.Healthy spool := by
  unfold Process.check
  split
  · split_ifs with hreading
    · exact ⟨h.hooks, h.controls, h.watcher, Or.inl rfl⟩
    · exact h.leave (Bool.eq_false_of_not_eq_true hreading)
  · next hcontrols =>
    obtain ⟨_, hok, -⟩ := h.controls _ (by rw [hcontrols]; exact List.mem_cons_self)
    cases hok
  · next hcontrols =>
    obtain ⟨control, hok, hended⟩ := h.controls _ (by rw [hcontrols]; exact List.mem_cons_self)
    exact h.leave (hended (Except.ok.inj hok).symm)
  · next hcontrols =>
    refine ⟨h.hooks, fun entry hmem => h.controls entry ?_, h.watcher, Or.inl rfl⟩
    rw [hcontrols]
    exact List.mem_cons_of_mem _ hmem

theorem Healthy.beat (h : p.Healthy spool) (due : Bool) (hsequence : p.sequence + 1 < 2 ^ 64) :
    (p.beat due none).Healthy spool := by
  unfold Process.beat
  split_ifs
  · rw [emit_ok none hsequence (validateAfter_heartbeat hsequence)]
    exact ⟨h.hooks, h.controls, h.watcher, Or.inl rfl⟩
  · exact ⟨h.hooks, h.controls, h.watcher, Or.inl rfl⟩

theorem Healthy.ended (h : p.Healthy spool) :
    { p with controls := p.controls ++ [Except.ok RelayControl.shutdown], reading := false }.Healthy
      spool := by
  refine ⟨h.hooks, fun entry hmem => ?_, h.watcher, h.main.imp_right fun hmain => ⟨hmain.1, rfl⟩⟩
  rcases List.mem_append.1 hmem with hmem | hmem
  · obtain ⟨control, hok, -⟩ := h.controls entry hmem
    exact ⟨control, hok, fun _ => rfl⟩
  · exact ⟨.shutdown, List.mem_singleton.1 hmem, fun _ => rfl⟩

theorem readControl_valid {payload : RelayHookPayload}
    (h : readControl input = .ok (some (.injectHook payload))) :
    validateHookPayload payload = .ok () := by
  unfold readControl at h
  split at h
  · cases h
  · cases h
  · split at h
    · cases h
    · next hvalid =>
      cases h
      simp only [RelayControl.validate] at hvalid
      cases hpayload : validateHookPayload payload with
      | ok _ => rfl
      | error e =>
        rw [hpayload] at hvalid
        cases hvalid

theorem Healthy.control (h : p.Healthy spool) (hclean : p.Clean (.control input)) :
    (p.control input).Healthy spool := by
  obtain ⟨message, hread, hinject⟩ := hclean
  unfold Process.control
  split
  · next payload hpayload =>
    have hwelcome := hinject payload (Except.ok.inj (hread.symm.trans hpayload))
    exact h.send ⟨payload, rfl, readControl_valid hpayload, hwelcome⟩
  · exact h.ended
  · exact h.ended
  · next last _ =>
    refine ⟨h.hooks, fun entry hmem => ?_, h.watcher, h.main⟩
    rcases List.mem_append.1 hmem with hmem | hmem
    · exact h.controls entry hmem
    · exact ⟨.acknowledge last, List.mem_singleton.1 hmem, fun hshutdown => (by cases hshutdown)⟩
  · next error herror => cases hread.symm.trans herror

/-- The visit of a frame that decodes. -/
theorem Healthy.visit (h : p.Healthy spool) {file : SpoolFile}
    (hwatcher : p.watcher = .visiting (file.name :: rest))
    (hok : (decodeFrame parse file.bytes).isOk = true) :
    (p.visit parse file rest).Healthy spool := by
  have hlisted := h.watcher
  rw [hwatcher] at hlisted
  have hrest : (Watcher.visiting rest).Listed spool :=
    ⟨(List.nodup_cons.1 hlisted.nodup).2, fun name hname =>
      hlisted.mem name (List.mem_cons_of_mem file.name hname)⟩
  have hremoving : { p with watcher := .removing file.name rest }.Healthy spool :=
    ⟨h.hooks, h.controls, ⟨hlisted.nodup, hlisted.mem⟩, h.main⟩
  unfold Process.visit
  split
  · next payload hdecode =>
    obtain ⟨hvalid, hforwards⟩ := forwards_of_decodeFrame hdecode
    exact hremoving.send ⟨payload, rfl, hvalid, Or.inr hforwards⟩
  · exact hremoving
  · exact h.visiting hrest
  · next error herror =>
    rw [herror] at hok
    cases hok

theorem Healthy.remove (h : p.Healthy spool) {name : String}
    (hwatcher : p.watcher = .removing name rest) (fault : Option String) :
    { p with watcher := .visiting rest }.Healthy
      (if fault = none then spool.filter fun file => file.name ≠ name else spool) := by
  have hlisted := h.watcher
  rw [hwatcher] at hlisted
  obtain ⟨hout, hnodup⟩ := List.nodup_cons.1 hlisted.nodup
  refine ⟨h.hooks, h.controls, ⟨hnodup, fun other hother => ?_⟩, h.main⟩
  obtain ⟨hext, file, hfile, hname⟩ := hlisted.mem other (List.mem_cons_of_mem name hother)
  refine ⟨hext, file, ?_, hname⟩
  split_ifs
  · refine List.mem_filter.2 ⟨hfile, decide_eq_true ?_⟩
    rintro rfl
    exact hout (hname ▸ hother)
  · exact hfile

theorem mem_listFrames {name : String} :
    name ∈ listFrames spool ↔ hasFrameExtension name = true ∧ ∃ file ∈ spool, file.name = name := by
  unfold listFrames
  rw [(List.perm_insertionSort _ _).mem_iff, List.mem_filter, List.mem_map, and_comm]

theorem nodup_listFrames (h : (spool.map SpoolFile.name).Nodup) : (listFrames spool).Nodup :=
  (List.perm_insertionSort _ _).nodup_iff.2 (h.filter _)

/-- A clean step of a healthy process. -/
theorem Healthy.step (h : p.Healthy spool) (hnames : (spool.map SpoolFile.name).Nodup)
    (hdecodes : Decodes parse spool) (hclean : p.Clean act)
    (hstep : p.step parse spool act = some r) :
    r.2.Healthy r.1 := by
  cases act with
  | list fault =>
    obtain rfl : fault = none := hclean
    obtain ⟨hwatcher, hspool, ⟨-, hp⟩ | ⟨error, hfault, -⟩⟩ := step_list hstep
    · rw [hspool, hp]
      exact h.visiting ⟨nodup_listFrames hnames, fun name hname => mem_listFrames.1 hname⟩
    · cases hfault
  | visit fault =>
    obtain rfl : fault = none := hclean
    obtain ⟨name, rest, hwatcher, hspool, ⟨-, file, hfile, rfl, hp⟩ | ⟨error, hfault, -⟩⟩ :=
      step_visit hstep
    · have hlisted := h.watcher
      rw [hwatcher] at hlisted
      have hext := (hlisted.mem file.name List.mem_cons_self).1
      rw [hspool, hp]
      exact h.visit hwatcher (hdecodes file hfile hext)
    · cases hfault
  | remove fault =>
    obtain ⟨name, rest, hwatcher, hspool, hp⟩ := step_remove hstep
    rw [hspool, hp]
    exact h.remove hwatcher fault
  | control input =>
    obtain ⟨-, rfl⟩ := guard_eq_some hstep
    exact h.control hclean
  | drain now fault =>
    obtain ⟨rfl, hsequence⟩ := hclean
    obtain ⟨hmain, rfl⟩ := guard_eq_some hstep
    exact h.drain hmain now hsequence
  | check =>
    obtain ⟨-, rfl⟩ := guard_eq_some hstep
    exact h.check
  | beat due fault =>
    obtain ⟨rfl, hsequence⟩ := hclean
    obtain ⟨-, rfl⟩ := guard_eq_some hstep
    exact h.beat due hsequence

end Process

/-! ## Clean worlds -/

namespace World

variable {parse : String → Option WireIngestFrame} {w t : World} {act : WorldAct}

/-- A frame that is placed decodes (its payload parses, whatever the type of the frame), and the
steps of the process are clean. -/
def Clean (parse : String → Option WireIngestFrame) (w : World) : WorldAct → Prop
  | .place name bytes =>
    hasFrameExtension name = true → (decodeFrame parse bytes).isOk = true
  | .process act => w.process.Clean act
  | .restart _ => True

/-- What holds in every world a clean run reaches. -/
structure Sound (parse : String → Option WireIngestFrame) (w : World) : Prop where
  names : (w.spool.map SpoolFile.name).Nodup
  used : ∀ file ∈ w.spool, file.name ∈ w.used
  decodes : Decodes parse w.spool
  healthy : w.process.Healthy w.spool
  sound : ∀ hook ∈ w.process.hooks, hook.Sound
  careful : ∀ name rest, w.process.watcher = .removing name rest → w.process.main.running = true →
    Process.InSpool parse w.spool name → w.process.Sent name

theorem sound_start {spool : List SpoolFile} {used : List String}
    (names : (spool.map SpoolFile.name).Nodup) (hused : ∀ file ∈ spool, file.name ∈ used)
    (hdecodes : Decodes parse spool) (resume : ℕ) :
    Sound parse ⟨spool, used, .start resume⟩ := by
  refine ⟨names, hused, hdecodes, ⟨?_, ?_, ⟨List.nodup_nil, ?_⟩, Or.inl rfl⟩, ?_, ?_⟩
  · rintro hook ⟨⟩
  · rintro entry ⟨⟩
  · rintro name ⟨⟩
  · rintro hook ⟨⟩
  · rintro name rest ⟨⟩

variable {name : String} {rest : List String}

theorem Sound.place (h : Sound parse w) {bytes : List UInt8} (hfresh : name ∉ w.used)
    (hclean : hasFrameExtension name = true → (decodeFrame parse bytes).isOk = true) :
    Sound parse { w with spool := w.spool ++ [⟨name, bytes⟩], used := name :: w.used } := by
  have hnew : ∀ file ∈ w.spool, file.name ≠ name := by
    rintro file hfile rfl
    exact hfresh (h.used file hfile)
  constructor
  · rw [List.map_append, List.nodup_append]
    refine ⟨h.names, List.nodup_singleton name, ?_⟩
    rintro other hother _ hname
    obtain ⟨file, hfile, rfl⟩ := List.mem_map.1 hother
    rw [List.mem_singleton.1 hname]
    exact hnew file hfile
  · intro file hfile
    rcases List.mem_append.1 hfile with hfile | hfile
    · exact List.mem_cons_of_mem name (h.used file hfile)
    · rw [List.mem_singleton.1 hfile]
      exact List.mem_cons_self
  · intro file hfile
    rcases List.mem_append.1 hfile with hfile | hfile
    · exact h.decodes file hfile
    · rw [List.mem_singleton.1 hfile]
      exact hclean
  · refine ⟨h.healthy.hooks, h.healthy.controls, ⟨h.healthy.watcher.nodup, ?_⟩, h.healthy.main⟩
    intro pending hpending
    obtain ⟨hext, file, hfile, hname⟩ := h.healthy.watcher.mem pending hpending
    exact ⟨hext, file, List.mem_append_left _ hfile, hname⟩
  · exact h.sound
  · intro removed rest hwatcher hrunning hin
    refine h.careful removed rest hwatcher hrunning ?_
    -- the new file is not the one the watcher is about to remove
    have hlisted := h.healthy.watcher
    rw [hwatcher] at hlisted
    obtain ⟨-, old, hold, hname⟩ := hlisted.mem removed List.mem_cons_self
    obtain ⟨hext, file, hfile, hfileName, hforward⟩ := hin
    rcases List.mem_append.1 hfile with hfile | hfile
    · exact ⟨hext, file, hfile, hfileName, hforward⟩
    · rw [List.mem_singleton.1 hfile] at hfileName
      exact absurd (hname.trans hfileName.symm) (hnew old hold)

theorem Sound.process (h : Sound parse w) {act : ProcessAct} {r : List SpoolFile × Process}
    (hclean : w.process.Clean act) (hstep : w.process.step parse w.spool act = some r) :
    Sound parse { w with spool := r.1, process := r.2 } := by
  have hhealthy := h.healthy.step h.names h.decodes hclean hstep
  have hspool := Process.spool_sublist hstep
  refine ⟨h.names.sublist (hspool.map _), fun file hfile => h.used file (hspool.subset hfile),
    fun file hfile => h.decodes file (hspool.subset hfile), hhealthy,
    Process.sound_step h.sound hstep, ?_⟩
  intro name rest hwatcher hrunning hin
  have hrunning' : w.process.main.running = true := Process.running_of_step hstep hrunning
  obtain ⟨hbefore, hinBefore⟩ | ⟨-, -, -, hsent⟩ :=
    Process.removing_step h.names hstep hwatcher hin
  · exact (h.careful name rest hbefore hrunning' hinBefore).step h.sound hstep fun _ => hrunning
  · exact hsent hrunning'

/-- A clean step keeps all of it. -/
theorem Sound.step (h : Sound parse w) (hclean : Clean parse w act)
    (hstep : w.step parse act = some t) : Sound parse t := by
  cases act with
  | place name bytes =>
    obtain ⟨hfresh, ht⟩ := Option.ite_none_left_eq_some.1 hstep
    cases ht
    exact h.place hfresh hclean
  | process act =>
    obtain ⟨r, hr, rfl⟩ := Option.map_eq_some_iff.1 hstep
    exact h.process hclean hr
  | restart resume =>
    obtain ⟨-, ht⟩ := Option.ite_none_left_eq_some.1 hstep
    cases ht
    exact sound_start h.names h.used h.decodes resume

/-! ## What the threads can go on to do -/

/-- A step of the watcher or the main loop in which no system call fails. -/
def internal : WorldAct → Bool
  | .process (.list none) | .process (.visit none) | .process (.remove none) => true
  | .process (.drain _ none) | .process .check | .process (.beat false none) => true
  | _ => false

/-- The watcher and the main loop get from one world to the other by clean steps. -/
inductive Reaches (parse : String → Option WireIngestFrame) : World → World → Prop where
  | refl (w : World) : Reaches parse w w
  | step {w t u : World} {act : WorldAct} (hinternal : internal act = true)
    (hclean : Clean parse w act) (hstep : w.step parse act = some t) (hrest : Reaches parse t u) :
    Reaches parse w u

namespace Reaches

variable {u : World}

theorem trans (h : Reaches parse w t) (h' : Reaches parse t u) : Reaches parse w u := by
  induction h with
  | refl w => exact h'
  | step hinternal hclean hstep _ ih => exact .step hinternal hclean hstep (ih h')

theorem one (act : ProcessAct) (r : List SpoolFile × Process)
    (hinternal : internal (.process act) = true) (hclean : w.process.Clean act)
    (hstep : w.process.step parse w.spool act = some r) :
    Reaches parse w { w with spool := r.1, process := r.2 } := by
  have hworld : w.step parse (.process act) = some { w with spool := r.1, process := r.2 } := by
    simp [World.step, hstep]
  exact .step hinternal hclean hworld (.refl _)

theorem sound (h : Reaches parse w t) (hw : Sound parse w) : Sound parse t := by
  induction h with
  | refl w => exact hw
  | step _ hclean hstep _ ih => exact ih (hw.step hclean hstep)

theorem run (h : Reaches parse w t) :
    ∃ acts : List WorldAct, (∀ act ∈ acts, internal act = true) ∧
      LlmNotch.run (World.step parse) w acts = some t := by
  induction h with
  | refl w => exact ⟨[], by simp, rfl⟩
  | @step w t u act hinternal _ hstep _ ih =>
    obtain ⟨acts, hacts, hrun⟩ := ih
    refine ⟨act :: acts, fun other hother => ?_, run_cons.2 ⟨t, hstep, hrun⟩⟩
    rcases List.mem_cons.1 hother with rfl | hother
    · exact hinternal
    · exact hacts other hother

theorem running (h : Reaches parse w t) (hrunning : t.process.main.running = true) :
    w.process.main.running = true := by
  induction h with
  | refl w => exact hrunning
  | @step w t u act hinternal _ hstep _ ih =>
    cases act with
    | place name bytes => cases hinternal
    | restart resume => cases hinternal
    | process act =>
      obtain ⟨r, hr, rfl⟩ := Option.map_eq_some_iff.1 hstep
      exact Process.running_of_step hr (ih hrunning)

end Reaches

/-- The event of the frame is in the spool, in the channel, or written. -/
def Holds (parse : String → Option WireIngestFrame) (w : World) (name : String) : Prop :=
  Process.InSpool parse w.spool name ∨ w.process.Sent name

theorem Reaches.holds (h : Reaches parse w t) (hw : Sound parse w)
    (hrunning : t.process.main.running = true) (hholds : Holds parse w name) :
    Holds parse t name := by
  induction h with
  | refl w => exact hholds
  | @step w t u act hinternal hclean hstep hrest ih =>
    refine ih (hw.step hclean hstep) hrunning ?_
    have hnext := hrest.running hrunning
    cases act with
    | place name bytes => cases hinternal
    | restart resume => cases hinternal
    | process act =>
      obtain ⟨r, hr, rfl⟩ := Option.map_eq_some_iff.1 hstep
      rcases hholds with hin | hsent
      · obtain hin | ⟨rest, hwatcher⟩ := Process.inSpool_step hr hin
        · exact Or.inl hin
        · have hnow := Process.running_of_step hr hnext
          exact Or.inr ((hw.careful name rest hwatcher hnow hin).step hw.sound hr fun _ => hnext)
      · exact Or.inr (hsent.step hw.sound hr fun _ => hnext)

/-- The main loop and its input stand still. -/
structure Still (w t : World) : Prop where
  main : t.process.main = w.process.main
  reading : t.process.reading = w.process.reading
  controls : t.process.controls = w.process.controls
  sequence : t.process.sequence = w.process.sequence
  spool : t.spool.Sublist w.spool
  load : t.process.hooks.length + t.spool.length ≤ w.process.hooks.length + w.spool.length

theorem Still.trans {u : World} (h : Still w t) (h' : Still t u) : Still w u :=
  ⟨h'.main.trans h.main, h'.reading.trans h.reading, h'.controls.trans h.controls,
    h'.sequence.trans h.sequence, h'.spool.trans h.spool, h'.load.trans h.load⟩

theorem remove_reaches (parse : String → Option WireIngestFrame)
    (hwatcher : w.process.watcher = .removing name rest) :
    Reaches parse w { w with
      spool := w.spool.filter fun file => file.name ≠ name
      process := { w.process with watcher := .visiting rest } } := by
  refine .one (.remove none) (_, _) rfl trivial ?_
  simp [Process.step, hwatcher]

theorem length_send_le (p : Process) (hook : Hook) :
    (p.send hook).hooks.length ≤ p.hooks.length + 1 := by
  unfold Process.send
  split_ifs
  · simp
  · exact Nat.le_succ _

/-- The watcher visits a frame, and removes it if it is for the host or for nobody. -/
theorem visit_reaches (hw : Sound parse w)
    (hwatcher : w.process.watcher = .visiting (name :: rest)) :
    ∃ t, Reaches parse w t ∧ Still w t ∧ t.process.watcher = .visiting rest ∧
      ¬ Process.InSpool parse t.spool name := by
  have hlisted := hw.healthy.watcher
  rw [hwatcher] at hlisted
  obtain ⟨hext, file, hfile, hname⟩ := hlisted.mem name List.mem_cons_self
  obtain ⟨found, hfind⟩ : ∃ found, (w.spool.find? fun f => f.name = name) = some found := by
    rw [← Option.isSome_iff_exists, List.find?_isSome]
    exact ⟨file, hfile, decide_eq_true hname⟩
  have hfound : found.name = name := by simpa using List.find?_some hfind
  obtain rfl : found = file := Process.eq_of_name hw.names (List.mem_of_find?_eq_some hfind) hfile
    (hfound.trans hname.symm)
  obtain rfl := hname
  have hvisit : Reaches parse w { w with process := w.process.visit parse found rest } := by
    refine .one (.visit none) (w.spool, w.process.visit parse found rest) rfl rfl ?_
    simp [Process.step, hwatcher, hfind]
  have hshort : (w.spool.filter fun f => f.name ≠ found.name).length < w.spool.length := by
    rw [List.length_filter_lt_length_iff_exists]
    exact ⟨found, hfile, by simp⟩
  have hgone : ¬ Process.InSpool parse (w.spool.filter fun f => f.name ≠ found.name) found.name := by
    rintro ⟨-, other, hother, hsame, -⟩
    exact of_decide_eq_true (List.mem_filter.1 hother).2 hsame
  cases hdecode : decodeFrame parse found.bytes with
  | error error =>
    have hok := hw.decodes found hfile hext
    rw [hdecode] at hok
    cases hok
  | ok event =>
    have hremove : ∀ {p : Process}, p.watcher = .removing found.name rest →
        w.process.visit parse found rest = p → Reaches parse w { w with
          spool := w.spool.filter fun f => f.name ≠ found.name
          process := { p with watcher := .visiting rest } } := by
      rintro _ hp rfl
      exact hvisit.trans (remove_reaches parse hp)
    cases event with
    | none =>
      refine ⟨_, hvisit, ?_⟩
      simp only [Process.visit, hdecode]
      refine ⟨⟨rfl, rfl, rfl, rfl, List.Sublist.refl _, le_rfl⟩, trivial, ?_⟩
      rintro ⟨-, other, hother, hsame, payload, hforward⟩
      obtain rfl := Process.eq_of_name hw.names hother hfile hsame
      cases hdecode.symm.trans hforward
    | some event =>
      cases event with
      | ignored =>
        have hp : w.process.visit parse found rest =
            { w.process with watcher := .removing found.name rest } := by
          simp only [Process.visit, hdecode]
        refine ⟨_, hremove rfl hp, ?_, rfl, hgone⟩
        exact ⟨rfl, rfl, rfl, rfl, List.filter_sublist, Nat.add_le_add_left hshort.le _⟩
      | forwardable payload =>
        have hp : w.process.visit parse found rest =
            { w.process with watcher := .removing found.name rest }.send
              ⟨.ok payload, some found.name⟩ := by
          simp only [Process.visit, hdecode]
        refine ⟨_, hremove (Process.send_watcher _ _) hp, ?_, rfl, hgone⟩
        refine ⟨by simp, by simp, by simp, by simp, List.filter_sublist, ?_⟩
        have hlen := length_send_le { w.process with watcher := .removing found.name rest }
          ⟨.ok payload, some found.name⟩
        dsimp only at hlen ⊢
        omega

/-- The watcher ends its pass. -/
theorem pass_reaches (hw : Sound parse w) (hwatcher : w.process.watcher = .visiting rest) :
    ∃ t, Reaches parse w t ∧ Still w t ∧ t.process.watcher = .visiting [] ∧
      ∀ name ∈ rest, ¬ Process.InSpool parse t.spool name := by
  induction rest generalizing w with
  | nil => exact ⟨w, .refl w, ⟨rfl, rfl, rfl, rfl, List.Sublist.refl _, le_rfl⟩, hwatcher, by simp⟩
  | cons name rest ih =>
    obtain ⟨t, hreach, hstill, hnext, hgone⟩ := visit_reaches hw hwatcher
    obtain ⟨u, hreach', hstill', hidle, hrest⟩ := ih (hreach.sound hw) hnext
    refine ⟨u, hreach.trans hreach', hstill.trans hstill', hidle, fun other hother => ?_⟩
    rcases List.mem_cons.1 hother with rfl | hother
    · rintro ⟨hext, file, hfile, hname, hforward⟩
      exact hgone ⟨hext, file, hstill'.spool.subset hfile, hname, hforward⟩
    · exact hrest other hother

/-- The watcher ends its pass and makes another one, after which no event is in the spool. -/
theorem watcher_reaches (hw : Sound parse w) :
    ∃ t, Reaches parse w t ∧ Still w t ∧ ∀ name, ¬ Process.InSpool parse t.spool name := by
  have hidle : ∃ t, Reaches parse w t ∧ Still w t ∧ t.process.watcher = .visiting [] := by
    cases hwatcher : w.process.watcher with
    | visiting rest =>
      obtain ⟨t, hreach, hstill, hidle, -⟩ := pass_reaches hw hwatcher
      exact ⟨t, hreach, hstill, hidle⟩
    | removing name rest =>
      have hremove := remove_reaches parse hwatcher
      obtain ⟨t, hreach, hstill, hidle, -⟩ := pass_reaches (hremove.sound hw) rfl
      refine ⟨t, hremove.trans hreach, Still.trans ?_ hstill, hidle⟩
      exact ⟨rfl, rfl, rfl, rfl, List.filter_sublist,
        Nat.add_le_add_left (List.length_filter_le _ _) _⟩
  obtain ⟨t, hreach, hstill, hidle⟩ := hidle
  have hlist : Reaches parse t
      { t with process := { t.process with watcher := .visiting (listFrames t.spool) } } := by
    refine .one (.list none) (t.spool, _) rfl rfl ?_
    simp [Process.step, hidle]
  obtain ⟨u, hreach', hstill', -, hgone⟩ := pass_reaches (hlist.sound (hreach.sound hw)) rfl
  refine ⟨u, (hreach.trans hlist).trans hreach', ?_, ?_⟩
  · refine hstill.trans (Still.trans ?_ hstill')
    exact ⟨rfl, rfl, rfl, rfl, List.Sublist.refl _, le_rfl⟩
  · rintro name ⟨hext, file, hfile, hname, hforward⟩
    refine hgone name ?_ ⟨hext, file, hfile, hname, hforward⟩
    exact Process.mem_listFrames.2 ⟨hext, file, hstill'.spool.subset hfile, hname⟩

/-- While the input is open, the main loop gets around to draining. -/
theorem draining_reaches (hw : Sound parse w) (hrunning : w.process.main.running = true)
    (hreading : w.process.reading = true) (hsequence : w.process.sequence + 1 < 2 ^ 64) :
    ∃ t, Reaches parse w t ∧ t.process.main = .draining ∧ t.process.reading = true ∧
      t.spool = w.spool ∧ t.process.hooks = w.process.hooks ∧
      t.process.sequence = w.process.sequence := by
  have hbeat : ∀ {v : World}, v.process.main = .beating → v.process.sequence + 1 < 2 ^ 64 →
      Reaches parse v { v with process := { v.process with main := .draining } } := by
    intro v hmain hseq
    refine .one (.beat false none) (v.spool, _) rfl ⟨rfl, hseq⟩ ?_
    simp [Process.step, hmain, Process.beat]
  cases hmain : w.process.main with
  | draining => exact ⟨w, .refl w, hmain, hreading, rfl, rfl, rfl⟩
  | beating => exact ⟨_, hbeat hmain hsequence, rfl, hreading, rfl, rfl, rfl⟩
  | checking =>
    -- no shutdown is queued while the reader has not ended
    have hcheck : ∃ controls, w.process.check =
        { w.process with controls := controls, main := .beating } := by
      refine Process.check_running ?_
      unfold Process.check
      split
      · rw [if_pos hreading]
        rfl
      · next hcontrols =>
        obtain ⟨_, hok, -⟩ := hw.healthy.controls _ (by rw [hcontrols]; exact List.mem_cons_self)
        cases hok
      · next hcontrols =>
        obtain ⟨control, hok, hended⟩ :=
          hw.healthy.controls _ (by rw [hcontrols]; exact List.mem_cons_self)
        rw [hended (Except.ok.inj hok).symm] at hreading
        cases hreading
      · rfl
    obtain ⟨controls, hcheck⟩ := hcheck
    have hstep : w.process.step parse w.spool .check =
        some (w.spool, { w.process with controls := controls, main := .beating }) := by
      simp [Process.step, hmain, hcheck]
    have hreach := Reaches.one .check _ rfl trivial hstep
    exact ⟨_, hreach.trans (hbeat rfl hsequence), rfl, hreading, rfl, rfl, rfl⟩
  | stopped =>
    rw [hmain] at hrunning
    cases hrunning
  | failed error =>
    rw [hmain] at hrunning
    cases hrunning

/-- The main loop drains the channel. -/
theorem drain_reaches (now : Int64) (hw : Sound parse w) (hmain : w.process.main = .draining)
    (hreading : w.process.reading = true)
    (hsequence : w.process.sequence + w.process.hooks.length < 2 ^ 64) :
    ∃ t, Reaches parse w t ∧ t.process.main = .draining ∧ t.process.reading = true ∧
      t.spool = w.spool ∧ t.process.hooks = [] := by
  generalize hhooks : w.process.hooks = hooks at hsequence
  induction hooks generalizing w with
  | nil => exact ⟨w, .refl w, hmain, hreading, rfl, hhooks⟩
  | cons hook rest ih =>
    rw [List.length_cons] at hsequence
    have hfine := hw.healthy.hooks hook (by rw [hhooks]; exact List.mem_cons_self)
    obtain ⟨sequence, lines, hdrain, hnext, -⟩ :=
      Process.drain_fine now hhooks hfine hmain (by omega)
    have hstep : w.process.step parse w.spool (.drain now none) = some (w.spool,
        { w.process with hooks := rest, sequence := sequence, output := w.process.output ++ lines }) := by
      simp only [Process.step, if_pos hmain, hdrain]
    have hreach := Reaches.one (.drain now none) _ rfl ⟨rfl, by omega⟩ hstep
    obtain ⟨t, hreach', hmain', hreading', hspool, hempty⟩ :=
      ih (hreach.sound hw) hmain hreading rfl (by dsimp only; omega)
    exact ⟨t, hreach.trans hreach', hmain', hreading', hspool, hempty⟩

/-- While the input is open, the threads can write every event that is in the spool or in the
channel. -/
theorem forwards_all (now : Int64) (hw : Sound parse w) (hrunning : w.process.main.running = true)
    (hreading : w.process.reading = true)
    (hsequence : w.process.sequence + w.process.hooks.length + w.spool.length + 1 < 2 ^ 64) :
    ∃ t, Reaches parse w t ∧ t.process.main.running = true ∧ t.process.reading = true ∧
      ∀ name, Holds parse w name → some name ∈ t.process.output.map Line.origin := by
  obtain ⟨u, hu, hstill, hgone⟩ := watcher_reaches hw
  have hload := hstill.load
  obtain ⟨v, hv, hmain, hread, hspool, hhooks, hseq⟩ := draining_reaches (hu.sound hw)
    (hstill.main ▸ hrunning) (hstill.reading.trans hreading) (by rw [hstill.sequence]; omega)
  obtain ⟨t, ht, hmain', hread', hspool', hempty⟩ := drain_reaches now (hv.sound (hu.sound hw))
    hmain hread (by rw [hseq, hstill.sequence, hhooks]; omega)
  have hreach := (hu.trans hv).trans ht
  refine ⟨t, hreach, by rw [hmain']; rfl, hread', fun name hname => ?_⟩
  obtain hin | hqueued | hwritten := hreach.holds hw (by rw [hmain']; rfl) hname
  · rw [hspool', hspool] at hin
    exact absurd hin (hgone name)
  · rw [hempty] at hqueued
    cases hqueued
  · exact hwritten

/-- In every clean run the main loop ends only after the end of the input. While it runs and the
input is open, the watcher and the main loop can go on, without an error, to write every event
that is in the spool. -/
theorem relay_survives (parse : String → Option WireIngestFrame) (resume : ℕ)
    (acts : List WorldAct) (w : World) (hrun : run (World.step parse) (initial resume) acts = some w)
    (hclean : Guarded (World.step parse) (Clean parse) (initial resume) acts) :
    (w.process.main.running = true ∨ w.process.main = .stopped ∧ w.process.reading = false) ∧
    (w.process.main.running = true → w.process.reading = true →
      w.process.sequence + w.process.hooks.length + w.spool.length + 1 < 2 ^ 64 →
      ∃ later t, (∀ act ∈ later, internal act = true) ∧
        run (World.step parse) w later = some t ∧ t.process.main.running = true ∧
        ∀ file ∈ w.spool, hasFrameExtension file.name = true → Forwardable parse file.bytes →
          some file.name ∈ t.process.output.map Line.origin) := by
  have hw : Sound parse w := by
    have hstart : Sound parse ⟨[], [], .start resume⟩ :=
      sound_start (by simp) (by simp) (by simp [Decodes]) resume
    exact Guarded.invariant (fun _ _ _ hok hs hstep => hs.step hok hstep) hstart hclean hrun
  refine ⟨hw.healthy.main, fun hrunning hreading hsequence => ?_⟩
  obtain ⟨t, hreach, hgoes, -, hwritten⟩ := forwards_all 0 hw hrunning hreading hsequence
  obtain ⟨later, hinternal, hlater⟩ := hreach.run
  refine ⟨later, t, hinternal, hlater, hgoes, fun file hfile hext hforward => ?_⟩
  exact hwritten file.name (Or.inl ⟨hext, file, hfile, rfl, hforward⟩)

/-! ## Runs with a bad frame and with a good one -/

/-- A frame as the hook of an agent spools it. -/
def toolText : String :=
  "\x7b\"type\":\"ingest\",\"payload\":\x7b\"source\":\"codex\",\"event\":\"tool\",\"sessionId\":\"s\"\x7d\x7d"

def toolPayload : RelayHookPayload :=
  ⟨"codex", "tool", some "s", none, none, none, none, none⟩

def parseTool (text : String) : Option WireIngestFrame :=
  if text = toolText then some ⟨"ingest", toolPayload⟩ else none

def toolFrame : List UInt8 :=
  [0, 0, 0, 77] ++ Utf8.encode toolText

/-- Evaluate `Clean`. -/
def cleanCheck (parse : String → Option WireIngestFrame) (w : World) : WorldAct → Bool
  | .place name bytes => !hasFrameExtension name || (decodeFrame parse bytes).isOk
  | .process (.list fault) | .process (.visit fault) => fault.isNone
  | .process (.remove _) | .process .check => true
  | .process (.control input) => match readControl input with
    | .ok (some (.injectHook payload)) => Removes payload ∨ Forwards payload
    | .ok _ => true
    | .error _ => false
  | .process (.drain _ fault) | .process (.beat _ fault) =>
    fault.isNone && w.process.sequence + 1 < 2 ^ 64
  | .restart _ => true

theorem clean_of_check (h : cleanCheck parse w act = true) : Clean parse w act := by
  cases act with
  | place name bytes =>
    intro hext
    simpa [cleanCheck, hext] using h
  | restart resume => trivial
  | process act =>
    cases act with
    | list fault | visit fault => exact Option.isNone_iff_eq_none.1 h
    | remove fault | check => trivial
    | control input =>
      simp only [cleanCheck] at h
      cases hread : readControl input with
      | error error =>
        rw [hread] at h
        cases h
      | ok message =>
        refine ⟨message, hread, ?_⟩
        rintro payload rfl
        rw [hread] at h
        exact of_decide_eq_true h
    | drain now fault | beat due fault =>
      obtain ⟨hnone, hsequence⟩ := Bool.and_eq_true_iff.1 h
      exact ⟨Option.isNone_iff_eq_none.1 hnone, of_decide_eq_true hsequence⟩

/-- A frame is placed while the relay waits at its first check. -/
def toolRun : List WorldAct :=
  [.process (.drain 0 none), .place "a.frame" toolFrame]

/-- The relay can go on to forward it. -/
theorem relay_survives_toolRun :
    ∃ w, run (World.step parseTool) (initial 0) toolRun = some w ∧
      w.spool = [⟨"a.frame", toolFrame⟩] ∧
      ∃ later t, run (World.step parseTool) w later = some t ∧ t.process.main.running = true ∧
        some "a.frame" ∈ t.process.output.map Line.origin := by
  have hrun : ((run (World.step parseTool) (initial 0) toolRun).map fun w =>
      (w.spool, w.process.main, w.process.reading, w.process.sequence, w.process.hooks.length)) =
        some ([⟨"a.frame", toolFrame⟩], .checking, true, 0, 0) := by
    decide
  obtain ⟨w, hw, hparts⟩ := Option.map_eq_some_iff.1 hrun
  obtain ⟨hspool, hmain, hreading, hsequence, hhooks⟩ : _ ∧ _ ∧ _ ∧ _ ∧ _ := by
    simpa only [Prod.mk.injEq] using hparts
  have hclean : Guarded (World.step parseTool) (Clean parseTool) (initial 0) toolRun := by
    refine Guarded.of_sound (cleanCheck parseTool) (fun _ _ h => clean_of_check h) ?_
    decide
  obtain ⟨later, t, -, hlater, hgoes, hwritten⟩ :=
    (relay_survives parseTool 0 toolRun w hw hclean).2 (by rw [hmain]; rfl) hreading
      (by rw [hspool, hsequence, hhooks]; decide)
  refine ⟨w, hw, hspool, later, t, hlater, hgoes, hwritten ⟨"a.frame", toolFrame⟩ ?_ ?_ ?_⟩
  · rw [hspool]
    exact List.mem_singleton.2 rfl
  · decide
  · exact ⟨toolPayload, by decide⟩

/-- An empty frame stands before a good one. -/
def emptyFrameRun : List WorldAct :=
  [.place "a.frame" [], .place "b.frame" toolFrame, .process (.list none), .process (.visit none),
    .process (.visit none), .process (.remove none), .process (.drain 0 none)]

/-- The next relay visits the empty frame again. -/
def secondRelayRun : List WorldAct :=
  [.restart 0, .process (.list none), .process (.visit none), .process (.drain 0 none)]

/-- A hook for a decision, which is a valid control message. -/
def decisionWait : Except String (Option RelayControl) :=
  .ok (some (.injectHook { toolPayload with event := "decisionWait" }))

/-- The relay fails on the empty frame and loses the good one, whose file it has removed; the next
relay fails again. It also fails on a valid control message. -/
theorem relay_fails :
    (∃ w t, run (World.step parseTool) (initial 0) emptyFrameRun = some w ∧
      w.process.main = .failed "hook payload field `frame` is invalid" ∧
      w.spool = [⟨"a.frame", []⟩] ∧ w.process.output = [] ∧
      run (World.step parseTool) w secondRelayRun = some t ∧
      t.process.main = .failed "hook payload field `frame` is invalid" ∧
      t.process.output = []) ∧
    readControl decisionWait = decisionWait ∧
    ∃ w, run (World.step parseTool) (initial 0)
        [.process (.control decisionWait), .process (.drain 0 none)] = some w ∧
      w.process.main = .failed "hook ingest rejected: hook event `decisionwait` is not forwardable" ∧
      w.process.reading = true := by
  refine ⟨?_, by rfl, ?_⟩
  · have hfirst : ((run (World.step parseTool) (initial 0) emptyFrameRun).map fun w =>
        (w.process.main, w.spool, w.process.output)) =
          some (.failed "hook payload field `frame` is invalid", [⟨"a.frame", []⟩], []) := by
      decide
    have hboth : ((run (World.step parseTool) (initial 0) (emptyFrameRun ++ secondRelayRun)).map
        fun w => (w.process.main, w.process.output)) =
          some (.failed "hook payload field `frame` is invalid", []) := by
      decide
    obtain ⟨w, hw, hparts⟩ := Option.map_eq_some_iff.1 hfirst
    obtain ⟨t, ht, hparts'⟩ := Option.map_eq_some_iff.1 hboth
    obtain ⟨w', hw', hsecond⟩ := run_append.1 ht
    obtain rfl : w' = w := Option.some.inj (hw'.symm.trans hw)
    simp only [Prod.mk.injEq] at hparts hparts'
    exact ⟨w', t, hw, hparts.1, hparts.2.1, hparts.2.2, hsecond, hparts'⟩
  · have hinject : ((run (World.step parseTool) (initial 0)
        [.process (.control decisionWait), .process (.drain 0 none)]).map fun w =>
          (w.process.main, w.process.reading)) =
        some (.failed "hook ingest rejected: hook event `decisionwait` is not forwardable", true) := by
      decide
    obtain ⟨w, hw, hparts⟩ := Option.map_eq_some_iff.1 hinject
    simp only [Prod.mk.injEq] at hparts
    exact ⟨w, hw, hparts.1, hparts.2⟩

end World

end Relay

end LlmNotch
