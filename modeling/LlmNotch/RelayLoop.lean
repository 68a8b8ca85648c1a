import Mathlib.Data.List.Sort
import LlmNotch.RelayHooks
import LlmNotch.Transition

/-!
# The relay process

The relay has three threads. The watcher lists the frames of the spool directory and visits them
in order of their names : what a frame holds is sent to the main loop, and then the file is
removed. The reader takes control messages from the input. The main loop drains the hook channel,
writing a line for every event, checks for one control message, writes a heartbeat when it is
due, and starts over. Everything that goes wrong is sent through the hook channel or the control
channel, and the main loop ends at the first error it takes. One step of one thread is one
`ProcessAct`; file-system calls and writes may fail.

`Process.Sent.step` : what the watcher has sent stays in the channel or is written, while the
main loop runs. `Process.inSpool_step` and `Process.removing_step` : a frame leaves the spool
only after its event was sent.
-/

namespace LlmNotch

namespace Relay

/-! ## The process -/

structure SpoolFile where
  name : String
  bytes : List UInt8
  deriving DecidableEq

/-- The `extension` of a path with this file name is `frame`. -/
def hasFrameExtension (name : String) : Bool :=
  ".frame".toList.isSuffixOf name.toList && name != ".frame"

def listFrames (spool : List SpoolFile) : List String :=
  ((spool.map SpoolFile.name).filter hasFrameExtension).insertionSort (· ≤ ·)

/-- The frames a pass has still to visit, after one that is to be removed. The watcher sleeps if
there is none. -/
inductive Watcher where
  | visiting (rest : List String)
  | removing (name : String) (rest : List String)
  deriving DecidableEq

/-- An item of the hook channel. `origin` is the spool file it was read from. -/
structure Hook where
  result : Except String RelayHookPayload
  origin : Option String

/-- A line of the output. -/
structure Line where
  frame : RelayFrame
  origin : Option String
  deriving DecidableEq

/-- The main loop by what it does next, or how it was left. -/
inductive Main where
  | draining
  | checking
  | beating
  | stopped
  | failed (error : String)
  deriving DecidableEq

def Main.running : Main → Bool
  | draining | checking | beating => true
  | stopped | failed _ => false

/-- `reading` : the reader has not ended. -/
structure Process where
  watcher : Watcher
  hooks : List Hook
  controls : List (Except String RelayControl)
  reading : Bool
  sequence : ℕ
  main : Main
  output : List Line

/-- One step of a thread. A `fault` is the error of a system call that fails. -/
inductive ProcessAct where
  | list (fault : Option String)
  | visit (fault : Option String)
  | remove (fault : Option String)
  | control (input : Except String (Option RelayControl))
  | drain (now : Int64) (fault : Option String)
  | check
  | beat (due : Bool) (fault : Option String)

/-- `read_control` of what the line reader and the JSON reader give. -/
def readControl (input : Except String (Option RelayControl)) :
    Except String (Option RelayControl) :=
  match input with
  | .error error => .error error
  | .ok none => .ok none
  | .ok (some control) => match control.validate with
    | .error error => .error error.message
    | .ok _ => .ok (some control)

namespace Process

def start (resume : ℕ) : Process where
  watcher := .visiting []
  hooks := []
  controls := []
  reading := true
  sequence := resume
  main := .draining
  output := []

/-- A send to the hook channel, which fails unnoticed once the main loop was left. -/
def send (p : Process) (hook : Hook) : Process :=
  if p.main.running then { p with hooks := p.hooks ++ [hook] } else p

/-- Leaving the main loop drops its ends of the channels. -/
def leave (p : Process) (main : Main) : Process :=
  { p with main := main, hooks := [], controls := [] }

/-- `emit_frame`, after which the main loop is at `next`. -/
def emit (p : Process) (payload : RelayPayload) (origin fault : Option String) (next : Main) :
    Process :=
  if p.sequence + 1 < 2 ^ 64 then
    match (RelayFrame.mk (p.sequence + 1) payload).validateAfter p.sequence, fault with
    | .error error, _ =>
      { p with sequence := p.sequence + 1 }.leave (.failed error.message)
    | .ok _, some error => { p with sequence := p.sequence + 1 }.leave (.failed error)
    | .ok _, none =>
      { p with
        sequence := p.sequence + 1
        output := p.output ++ [⟨⟨p.sequence + 1, payload⟩, origin⟩]
        main := next }
  else p.leave (.failed "relay sequence exhausted")

/-- One round of `drain_hook_events`. -/
def drain (p : Process) (now : Int64) (fault : Option String) : Process :=
  match p.hooks with
  | [] => { p with main := .checking }
  | hook :: rest =>
    match hook.result with
    | .error error => { p with hooks := rest }.leave (.failed error)
    | .ok payload => match normalizeHookPayload payload now with
      | .error error =>
        { p with hooks := rest }.leave (.failed ("hook ingest rejected: " ++ error.message))
      | .ok none => { p with hooks := rest }
      | .ok (some payload) => { p with hooks := rest }.emit payload hook.origin fault .draining

/-- The `match` on the control channel. -/
def check (p : Process) : Process :=
  match p.controls with
  | [] => if p.reading then { p with main := .beating } else p.leave .stopped
  | .error error :: _ => p.leave (.failed error)
  | .ok .shutdown :: _ => p.leave .stopped
  | .ok _ :: rest => { p with controls := rest, main := .beating }

def beat (p : Process) (due : Bool) (fault : Option String) : Process :=
  if due then p.emit .heartbeat none fault .draining else { p with main := .draining }

/-- One round of the reader. -/
def control (p : Process) (input : Except String (Option RelayControl)) : Process :=
  match readControl input with
  | .ok (some (.injectHook payload)) => p.send ⟨.ok payload, none⟩
  | .ok (some .shutdown) | .ok none =>
    { p with controls := p.controls ++ [.ok .shutdown], reading := false }
  | .ok (some (.acknowledge last)) => { p with controls := p.controls ++ [.ok (.acknowledge last)] }
  | .error error => { p with controls := p.controls ++ [.error error], reading := false }

/-- The visit of a frame that was read. -/
def visit (parse : String → Option WireIngestFrame) (p : Process) (file : SpoolFile)
    (rest : List String) : Process :=
  match decodeFrame parse file.bytes with
  | .ok (some (.forwardable payload)) =>
    { p with watcher := .removing file.name rest }.send ⟨.ok payload, some file.name⟩
  | .ok (some .ignored) => { p with watcher := .removing file.name rest }
  | .ok none => { p with watcher := .visiting rest }
  | .error error => { p with watcher := .visiting rest }.send ⟨.error error, none⟩

/-- One step of a thread, with the spool directory. -/
def step (parse : String → Option WireIngestFrame) (spool : List SpoolFile) (p : Process) :
    ProcessAct → Option (List SpoolFile × Process)
  | .list fault => match p.watcher, fault with
    | .visiting [], none => some (spool, { p with watcher := .visiting (listFrames spool) })
    | .visiting [], some error => some (spool, p.send ⟨.error error, none⟩)
    | _, _ => none
  | .visit fault => match p.watcher, fault with
    | .visiting (name :: rest), none =>
      (spool.find? fun file => file.name = name).map fun file => (spool, p.visit parse file rest)
    | .visiting (_ :: rest), some error =>
      some (spool, { p with watcher := .visiting rest }.send ⟨.error error, none⟩)
    | _, _ => none
  | .remove fault => match p.watcher with
    | .removing name rest =>
      some (if fault = none then spool.filter fun file => file.name ≠ name else spool,
        { p with watcher := .visiting rest })
    | _ => none
  | .control input =>
    if p.reading ∧ p.main.running then some (spool, p.control input) else none
  | .drain now fault => if p.main = .draining then some (spool, p.drain now fault) else none
  | .check => if p.main = .checking then some (spool, p.check) else none
  | .beat due fault => if p.main = .beating then some (spool, p.beat due fault) else none

end Process

/-! ## What a step does -/

/-- The frame holds an event that is forwarded. -/
def Forwardable (parse : String → Option WireIngestFrame) (bytes : List UInt8) : Prop :=
  ∃ payload, decodeFrame parse bytes = .ok (some (.forwardable payload))

theorem forwards_of_decodeFrame {parse : String → Option WireIngestFrame} {bytes : List UInt8}
    {payload : RelayHookPayload}
    (h : decodeFrame parse bytes = .ok (some (.forwardable payload))) :
    validateHookPayload payload = .ok () ∧ Forwards payload := by
  unfold decodeFrame at h
  split at h
  · cases h
  · cases h
  · split at h
    · next hclass =>
      cases h
      exact classify_forward.1 hclass
    · cases h
    · cases h

theorem guard_eq_some {α : Type} {q : Prop} [Decidable q] {a b : α}
    (h : (if q then some a else none) = some b) : q ∧ b = a :=
  (Option.ite_none_right_eq_some.1 h).imp_right fun h => (Option.some.inj h).symm

/-- A hook that was read from the spool is forwarded. -/
def Hook.Sound (hook : Hook) : Prop :=
  hook.origin.isSome → ∃ payload, hook.result = .ok payload ∧
    validateHookPayload payload = .ok () ∧ Forwards payload

namespace Process

variable {parse : String → Option WireIngestFrame} {spool : List SpoolFile} {p : Process}
  {r : List SpoolFile × Process} {fault : Option String} {act : ProcessAct}

theorem step_list (h : p.step parse spool (.list fault) = some r) :
    p.watcher = .visiting [] ∧ r.1 = spool ∧
      ((fault = none ∧ r.2 = { p with watcher := .visiting (listFrames spool) }) ∨
        ∃ error, fault = some error ∧ r.2 = p.send ⟨.error error, none⟩) := by
  simp only [step] at h
  split at h
  · next hwatcher =>
    cases h
    exact ⟨hwatcher, rfl, Or.inl ⟨rfl, rfl⟩⟩
  · next error hwatcher =>
    cases h
    exact ⟨hwatcher, rfl, Or.inr ⟨error, rfl, rfl⟩⟩
  · cases h

theorem step_visit (h : p.step parse spool (.visit fault) = some r) :
    ∃ name rest, p.watcher = .visiting (name :: rest) ∧ r.1 = spool ∧
      ((fault = none ∧ ∃ file ∈ spool, file.name = name ∧ r.2 = p.visit parse file rest) ∨
        ∃ error, fault = some error ∧
          r.2 = { p with watcher := .visiting rest }.send ⟨.error error, none⟩) := by
  simp only [step] at h
  split at h
  · next name rest hwatcher =>
    obtain ⟨file, hfind, rfl⟩ := Option.map_eq_some_iff.1 h
    have hname := List.find?_some hfind
    exact ⟨name, rest, hwatcher, rfl, Or.inl ⟨rfl, file, List.mem_of_find?_eq_some hfind,
      of_decide_eq_true hname, rfl⟩⟩
  · next name rest error hwatcher =>
    cases h
    exact ⟨name, rest, hwatcher, rfl, Or.inr ⟨error, rfl, rfl⟩⟩
  · cases h

theorem step_remove (h : p.step parse spool (.remove fault) = some r) :
    ∃ name rest, p.watcher = .removing name rest ∧
      r.1 = (if fault = none then spool.filter fun file => file.name ≠ name else spool) ∧
      r.2 = { p with watcher := .visiting rest } := by
  simp only [step] at h
  split at h
  · next name rest hwatcher =>
    cases h
    exact ⟨name, rest, hwatcher, rfl, rfl⟩
  · cases h

@[simp] theorem send_watcher (p : Process) (hook : Hook) : (p.send hook).watcher = p.watcher := by
  unfold send
  split <;> rfl

@[simp] theorem send_main (p : Process) (hook : Hook) : (p.send hook).main = p.main := by
  unfold send
  split <;> rfl

@[simp] theorem send_output (p : Process) (hook : Hook) : (p.send hook).output = p.output := by
  unfold send
  split <;> rfl

@[simp] theorem send_reading (p : Process) (hook : Hook) : (p.send hook).reading = p.reading := by
  unfold send
  split <;> rfl

@[simp] theorem send_controls (p : Process) (hook : Hook) :
    (p.send hook).controls = p.controls := by
  unfold send
  split <;> rfl

@[simp] theorem send_sequence (p : Process) (hook : Hook) :
    (p.send hook).sequence = p.sequence := by
  unfold send
  split <;> rfl

theorem send_hooks (hook : Hook) (h : p.main.running = true) :
    (p.send hook).hooks = p.hooks ++ [hook] := by
  rw [send, if_pos h]

variable {hook : Hook} {now : Int64} {due : Bool} {name : String} {file : SpoolFile}
  {rest : List String}

theorem mem_send {hook' : Hook} (h : hook ∈ (p.send hook').hooks) :
    hook ∈ p.hooks ∨ hook = hook' := by
  unfold send at h
  split_ifs at h
  · simpa using h
  · exact Or.inl h

/-- A frame that passes its check is written. -/
theorem emit_ok {payload : RelayPayload} {next : Main} (origin : Option String)
    (hsequence : p.sequence + 1 < 2 ^ 64)
    (hvalid : (RelayFrame.mk (p.sequence + 1) payload).validateAfter p.sequence = .ok ()) :
    p.emit payload origin none next =
      { p with
        sequence := p.sequence + 1
        output := p.output ++ [⟨⟨p.sequence + 1, payload⟩, origin⟩]
        main := next } := by
  unfold emit
  rw [if_pos hsequence, hvalid]

/-- Otherwise the main loop is left. -/
theorem emit_cases (p : Process) (payload : RelayPayload) (origin fault : Option String)
    (next : Main) :
    (fault = none ∧ p.sequence + 1 < 2 ^ 64 ∧
      (RelayFrame.mk (p.sequence + 1) payload).validateAfter p.sequence = .ok () ∧
      p.emit payload origin fault next =
        { p with
          sequence := p.sequence + 1
          output := p.output ++ [⟨⟨p.sequence + 1, payload⟩, origin⟩]
          main := next }) ∨
      ∃ sequence error, p.sequence ≤ sequence ∧ p.emit payload origin fault next =
        { p with sequence := sequence }.leave (.failed error) := by
  unfold emit
  split_ifs with hsequence
  · split
    · exact Or.inr ⟨_, _, Nat.le_succ _, rfl⟩
    · exact Or.inr ⟨_, _, Nat.le_succ _, rfl⟩
    · next hvalid => exact Or.inl ⟨rfl, hsequence, hvalid, rfl⟩
  · exact Or.inr ⟨p.sequence, _, le_rfl, rfl⟩

/-- A round of draining after which the main loop goes on. -/
theorem drain_running (hrunning : (p.drain now fault).main.running = true) :
    (p.hooks = [] ∧ p.drain now fault = { p with main := .checking }) ∨
    ∃ hook rest payload, p.hooks = hook :: rest ∧ hook.result = .ok payload ∧
      ((normalizeHookPayload payload now = .ok none ∧
          p.drain now fault = { p with hooks := rest }) ∨
        ∃ event, normalizeHookPayload payload now = .ok (some event) ∧
          p.sequence + 1 < 2 ^ 64 ∧
          (RelayFrame.mk (p.sequence + 1) event).validateAfter p.sequence = .ok () ∧
          p.drain now fault =
            { p with
              hooks := rest
              sequence := p.sequence + 1
              output := p.output ++ [⟨⟨p.sequence + 1, event⟩, hook.origin⟩]
              main := .draining }) := by
  cases hhooks : p.hooks with
  | nil =>
    refine Or.inl ⟨rfl, ?_⟩
    simp [drain, hhooks]
  | cons hook rest =>
    refine Or.inr ⟨hook, rest, ?_⟩
    simp only [drain, hhooks] at hrunning ⊢
    cases hresult : hook.result with
    | error error =>
      rw [hresult] at hrunning
      cases hrunning
    | ok payload =>
      refine ⟨payload, trivial, rfl, ?_⟩
      rw [hresult] at hrunning
      dsimp only at hrunning ⊢
      cases hnormal : normalizeHookPayload payload now with
      | error error =>
        rw [hnormal] at hrunning
        cases hrunning
      | ok normalized =>
        cases normalized with
        | none => exact Or.inl ⟨rfl, rfl⟩
        | some event =>
          rw [hnormal] at hrunning
          refine Or.inr ⟨event, rfl, ?_⟩
          obtain ⟨-, hsequence, hvalid, hemit⟩ | ⟨sequence, error, -, hemit⟩ :=
            emit_cases { p with hooks := rest } event hook.origin fault .draining
          · exact ⟨hsequence, hvalid, hemit⟩
          · dsimp only at hrunning
            rw [hemit] at hrunning
            cases hrunning

/-- A check after which the main loop goes on. -/
theorem check_running (hrunning : p.check.main.running = true) :
    ∃ controls, p.check = { p with controls := controls, main := .beating } := by
  unfold check at hrunning ⊢
  split
  · next hcontrols =>
    split_ifs with hreading
    · exact ⟨p.controls, rfl⟩
    · simp [hcontrols, hreading, leave, Main.running] at hrunning
  · next hcontrols =>
    rw [hcontrols] at hrunning
    cases hrunning
  · next hcontrols =>
    rw [hcontrols] at hrunning
    cases hrunning
  · next rest _ _ => exact ⟨rest, rfl⟩

/-- A beat after which the main loop goes on. -/
theorem beat_running (hrunning : (p.beat due fault).main.running = true) :
    p.beat due fault = { p with main := .draining } ∨
      (p.sequence + 1 < 2 ^ 64 ∧
        (RelayFrame.mk (p.sequence + 1) .heartbeat).validateAfter p.sequence = .ok () ∧
        p.beat due fault =
          { p with
            sequence := p.sequence + 1
            output := p.output ++ [⟨⟨p.sequence + 1, .heartbeat⟩, none⟩]
            main := .draining }) := by
  unfold beat at hrunning ⊢
  split_ifs at hrunning ⊢
  · obtain ⟨-, hsequence, hvalid, hemit⟩ | ⟨sequence, error, -, hemit⟩ :=
      emit_cases p .heartbeat none fault .draining
    · exact Or.inr ⟨hsequence, hvalid, hemit⟩
    · rw [hemit] at hrunning
      cases hrunning
  · exact Or.inl rfl

/-- Whatever ends the main loop drops the channels, and writes nothing. -/
theorem drain_left (hmain : p.main.running = true)
    (hleft : (p.drain now fault).main.running = false) :
    ∃ sequence main, p.sequence ≤ sequence ∧
      p.drain now fault = { p with sequence := sequence }.leave main := by
  unfold drain at hleft ⊢
  split at hleft
  · cases hleft
  · next hook rest hhooks =>
    split at hleft
    · exact ⟨p.sequence, _, le_rfl, rfl⟩
    · split at hleft
      · exact ⟨p.sequence, _, le_rfl, rfl⟩
      · cases hleft.symm.trans hmain
      · next event _ =>
        obtain ⟨-, -, -, hemit⟩ | ⟨sequence, error, hle, hemit⟩ :=
          emit_cases { p with hooks := rest } event hook.origin fault .draining
        · rw [hemit] at hleft
          cases hleft
        · exact ⟨sequence, .failed error, hle, hemit⟩

theorem check_left (hleft : p.check.main.running = false) : ∃ main, p.check = p.leave main := by
  unfold check at hleft ⊢
  split at hleft
  · split_ifs at hleft ⊢ with hreading
    · cases hleft
    · exact ⟨.stopped, rfl⟩
  · exact ⟨_, rfl⟩
  · exact ⟨_, rfl⟩
  · cases hleft

theorem beat_left (hleft : (p.beat due fault).main.running = false) :
    ∃ sequence main, p.sequence ≤ sequence ∧
      p.beat due fault = { p with sequence := sequence }.leave main := by
  unfold beat at hleft ⊢
  split_ifs at hleft ⊢
  · obtain ⟨-, -, -, hemit⟩ | ⟨sequence, error, hle, hemit⟩ :=
      emit_cases p .heartbeat none fault .draining
    · rw [hemit] at hleft
      cases hleft
    · exact ⟨sequence, .failed error, hle, hemit⟩
  · cases hleft

theorem control_main (p : Process) (input : Except String (Option RelayControl)) :
    (p.control input).main = p.main := by
  unfold control
  split <;> simp

theorem visit_main (p : Process) (file : SpoolFile) (rest : List String) :
    (p.visit parse file rest).main = p.main := by
  unfold visit
  split <;> simp

/-- Only a step of the main loop ends it. -/
theorem step_leaves (hstep : p.step parse spool act = some r) (hmain : p.main.running = true)
    (hleft : r.2.main.running = false) :
    (∃ now fault, act = .drain now fault ∧ r = (spool, p.drain now fault)) ∨
      (act = .check ∧ r = (spool, p.check)) ∨
      ∃ due fault, act = .beat due fault ∧ r = (spool, p.beat due fault) := by
  have hsame : r.2.main = p.main → False := by
    intro hsame
    rw [hsame, hmain] at hleft
    cases hleft
  cases act with
  | list fault =>
    obtain ⟨-, -, ⟨-, hp⟩ | ⟨error, -, hp⟩⟩ := step_list hstep
    · exact (hsame (by rw [hp])).elim
    · exact (hsame (by rw [hp, send_main])).elim
  | visit fault =>
    obtain ⟨name, rest, -, -, ⟨-, file, -, -, hp⟩ | ⟨error, -, hp⟩⟩ := step_visit hstep
    · exact (hsame (by rw [hp, visit_main])).elim
    · exact (hsame (by rw [hp, send_main])).elim
  | remove fault =>
    obtain ⟨name, rest, -, -, hp⟩ := step_remove hstep
    exact (hsame (by rw [hp])).elim
  | control input =>
    obtain ⟨-, rfl⟩ := guard_eq_some hstep
    exact (hsame (control_main p input)).elim
  | drain now fault =>
    obtain ⟨-, hr⟩ := guard_eq_some hstep
    exact Or.inl ⟨now, fault, rfl, hr⟩
  | check =>
    obtain ⟨-, hr⟩ := guard_eq_some hstep
    exact Or.inr (Or.inl ⟨rfl, hr⟩)
  | beat due fault =>
    obtain ⟨-, hr⟩ := guard_eq_some hstep
    exact Or.inr (Or.inr ⟨due, fault, rfl, hr⟩)

/-- The step that ends the main loop. -/
theorem step_left (hstep : p.step parse spool act = some r) (hmain : p.main.running = true)
    (hleft : r.2.main.running = false) :
    r.1 = spool ∧ ∃ sequence main, p.sequence ≤ sequence ∧
      r.2 = { p with sequence := sequence }.leave main := by
  obtain ⟨now, fault, -, rfl⟩ | ⟨-, rfl⟩ | ⟨due, fault, -, rfl⟩ := step_leaves hstep hmain hleft
  · exact ⟨rfl, drain_left hmain hleft⟩
  · obtain ⟨main, hp⟩ := check_left hleft
    exact ⟨rfl, p.sequence, main, le_rfl, hp⟩
  · exact ⟨rfl, beat_left hleft⟩

theorem emit_watcher (p : Process) (payload : RelayPayload) (origin fault : Option String)
    (next : Main) : (p.emit payload origin fault next).watcher = p.watcher := by
  obtain ⟨-, -, -, hemit⟩ | ⟨sequence, error, -, hemit⟩ := emit_cases p payload origin fault next
  · rw [hemit]
  · rw [hemit]
    rfl

theorem validateAfter_heartbeat {last : ℕ} (h : last + 1 < 2 ^ 64) :
    (RelayFrame.mk (last + 1) .heartbeat).validateAfter last = .ok () := by
  refine validateAfter_ok_iff.2 ⟨Nat.lt_succ_self last, rfl, ?_⟩
  have hseq : Json.size (last + 1).repr ≤ 20 := Json.size_repr_le (by decide) (by omega)
  have hkeys : Json.size (Json.quote "sequence") = 10 ∧ Json.size (Json.quote "payload") = 9 ∧
      Json.size (RelayPayload.toJson .heartbeat).text = 20 := by
    decide
  have hlimit : maxFrameBytes = 262144 := rfl
  refine (Json.size_obj_le _).trans ?_
  simp only [List.map_cons, List.map_nil, List.sum_cons, List.sum_nil, Json.fieldSize, Json.text]
  omega

/-- The main loop is never entered again. -/
theorem running_of_step (hstep : p.step parse spool act = some r)
    (hrunning : r.2.main.running = true) : p.main.running = true := by
  cases act with
  | list fault =>
    obtain ⟨-, -, ⟨-, hp⟩ | ⟨error, -, hp⟩⟩ := step_list hstep
    · rwa [hp] at hrunning
    · rwa [hp, send_main] at hrunning
  | visit fault =>
    obtain ⟨name, rest, -, -, ⟨-, file, -, -, hp⟩ | ⟨error, -, hp⟩⟩ := step_visit hstep
    · rwa [hp, visit_main] at hrunning
    · rwa [hp, send_main] at hrunning
  | remove fault =>
    obtain ⟨name, rest, -, -, hp⟩ := step_remove hstep
    rwa [hp] at hrunning
  | control input => exact (guard_eq_some hstep).1.2
  | drain now fault | check | beat due fault =>
    rw [(guard_eq_some hstep).1]
    rfl

/-! ## What is on its way -/

/-- A frame of the spool with this name holds an event that is forwarded. -/
def InSpool (parse : String → Option WireIngestFrame) (spool : List SpoolFile) (name : String) :
    Prop :=
  hasFrameExtension name = true ∧ ∃ file ∈ spool, file.name = name ∧ Forwardable parse file.bytes

/-- The event of the frame was sent to the main loop, and not dropped there. -/
def Sent (p : Process) (name : String) : Prop :=
  some name ∈ p.hooks.map Hook.origin ∨ some name ∈ p.output.map Line.origin

theorem Sent.send (h : p.Sent name) (hook : Hook) : (p.send hook).Sent name := by
  unfold Process.send
  split_ifs
  · exact h.imp_left fun hmem => by simp [hmem]
  · exact h

theorem sent_send (horigin : hook.origin = some name) (hrunning : p.main.running = true) :
    (p.send hook).Sent name := by
  left
  rw [send_hooks hook hrunning]
  simp [horigin]

/-- The watcher's steps change neither the spool nor the channel otherwise. -/
theorem Sent.visit (h : p.Sent name) (file : SpoolFile) (rest : List String) :
    (p.visit parse file rest).Sent name := by
  unfold Process.visit
  split
  · exact Sent.send (p := { p with watcher := .removing file.name rest }) h _
  · exact h
  · exact h
  · exact Sent.send (p := { p with watcher := .visiting rest }) h _

theorem Sent.control (h : p.Sent name) (input : Except String (Option RelayControl)) :
    (p.control input).Sent name := by
  unfold Process.control
  split
  · exact h.send _
  all_goals exact h

theorem Sent.beat (h : p.Sent name) (hrunning : (p.beat due fault).main.running = true) :
    (p.beat due fault).Sent name := by
  obtain hp | ⟨-, -, hp⟩ := beat_running hrunning
  · rw [hp]
    exact h
  · rw [hp]
    exact h.imp_right fun hmem => by simp [hmem]

/-- What was sent and is not lost with the main loop is written. -/
theorem Sent.drain (h : p.Sent name) (hsound : ∀ hook ∈ p.hooks, hook.Sound)
    (hrunning : (p.drain now fault).main.running = true) : (p.drain now fault).Sent name := by
  obtain ⟨-, hp⟩ | ⟨hook, rest, payload, hhooks, hresult, hnext⟩ := drain_running hrunning
  · rw [hp]
    exact h
  have hhead : some name = hook.origin → validateHookPayload payload = .ok () ∧ Forwards payload := by
    intro hname
    obtain ⟨other, hother, hvalid⟩ :=
      hsound hook (by rw [hhooks]; exact List.mem_cons_self) (by rw [← hname]; rfl)
    obtain rfl : payload = other := Except.ok.inj (hresult.symm.trans hother)
    exact hvalid
  rw [Sent, hhooks, List.map_cons, List.mem_cons, or_assoc] at h
  obtain ⟨hnormal, hp⟩ | ⟨event, -, -, -, hp⟩ := hnext
  · rw [hp]
    rcases h with hname | h
    · obtain ⟨event, hevent, -⟩ := forward_event (hhead hname).1 (hhead hname).2 now
      cases hnormal.symm.trans hevent
    · exact h
  · rw [hp]
    rcases h with hname | h | h
    · exact Or.inr (by simp [hname])
    · exact Or.inl h
    · exact Or.inr (by simp [h])

/-- No step that does not end the main loop loses what was sent. -/
theorem Sent.step (h : p.Sent name) (hsound : ∀ hook ∈ p.hooks, hook.Sound)
    (hstep : p.step parse spool act = some r)
    (hrunning : p.main.running = true → r.2.main.running = true) : r.2.Sent name := by
  cases act with
  | list fault =>
    obtain ⟨-, -, ⟨-, hp⟩ | ⟨error, -, hp⟩⟩ := step_list hstep
    · rw [hp]
      exact h
    · rw [hp]
      exact h.send _
  | visit fault =>
    obtain ⟨name, rest, -, -, ⟨-, file, -, -, hp⟩ | ⟨error, -, hp⟩⟩ := step_visit hstep
    · rw [hp]
      exact h.visit file rest
    · rw [hp]
      exact Sent.send (p := { p with watcher := .visiting rest }) h _
  | remove fault =>
    obtain ⟨name, rest, -, -, hp⟩ := step_remove hstep
    rw [hp]
    exact h
  | control input =>
    obtain ⟨-, rfl⟩ := guard_eq_some hstep
    exact h.control input
  | drain now fault =>
    obtain ⟨hmain, rfl⟩ := guard_eq_some hstep
    exact h.drain hsound (hrunning (by rw [hmain]; rfl))
  | check =>
    obtain ⟨hmain, rfl⟩ := guard_eq_some hstep
    obtain ⟨controls, hp⟩ := check_running (hrunning (by rw [hmain]; rfl))
    rw [hp]
    exact h
  | beat due fault =>
    obtain ⟨hmain, rfl⟩ := guard_eq_some hstep
    exact h.beat (hrunning (by rw [hmain]; rfl))

theorem sound_visit (hsound : ∀ hook ∈ p.hooks, hook.Sound) :
    ∀ hook ∈ (p.visit parse file rest).hooks, hook.Sound := by
  intro hook hmem
  unfold Process.visit at hmem
  split at hmem
  · next payload hdecode =>
    rcases mem_send hmem with hmem | rfl
    · exact hsound hook hmem
    · exact fun _ => ⟨payload, rfl, forwards_of_decodeFrame hdecode⟩
  · exact hsound hook hmem
  · exact hsound hook hmem
  · rcases mem_send hmem with hmem | rfl
    · exact hsound hook hmem
    · intro h
      cases h

theorem mem_drain (hmain : p.main.running = true) (h : hook ∈ (p.drain now fault).hooks) :
    hook ∈ p.hooks := by
  cases hrunning : (p.drain now fault).main.running with
  | false =>
    obtain ⟨sequence, main, -, hp⟩ := drain_left hmain hrunning
    rw [hp] at h
    cases h
  | true =>
    obtain ⟨-, hp⟩ | ⟨first, rest, payload, hhooks, -, ⟨-, hp⟩ | ⟨event, -, -, -, hp⟩⟩ :=
      drain_running hrunning
    · rwa [hp] at h
    all_goals
      rw [hp] at h
      rw [hhooks]
      exact List.mem_cons_of_mem first h

theorem mem_check (h : hook ∈ p.check.hooks) : hook ∈ p.hooks := by
  cases hrunning : p.check.main.running with
  | false =>
    obtain ⟨main, hp⟩ := check_left hrunning
    rw [hp] at h
    cases h
  | true =>
    obtain ⟨controls, hp⟩ := check_running hrunning
    rwa [hp] at h

theorem mem_beat (h : hook ∈ (p.beat due fault).hooks) : hook ∈ p.hooks := by
  cases hrunning : (p.beat due fault).main.running with
  | false =>
    obtain ⟨sequence, main, -, hp⟩ := beat_left hrunning
    rw [hp] at h
    cases h
  | true =>
    obtain hp | ⟨-, -, hp⟩ := beat_running hrunning
    all_goals rwa [hp] at h

/-- The channel holds no other hook of the spool. -/
theorem sound_step (hsound : ∀ hook ∈ p.hooks, hook.Sound)
    (hstep : p.step parse spool act = some r) : ∀ hook ∈ r.2.hooks, hook.Sound := by
  have hsend : ∀ {q : Process} {result : Except String RelayHookPayload}, q.hooks = p.hooks →
      ∀ hook ∈ (q.send ⟨result, none⟩).hooks, hook.Sound := by
    intro q result hq hook hmem
    rcases mem_send hmem with hmem | rfl
    · exact hsound hook (hq ▸ hmem)
    · intro h
      cases h
  cases act with
  | list fault =>
    obtain ⟨-, -, ⟨-, hp⟩ | ⟨error, -, hp⟩⟩ := step_list hstep
    · rw [hp]
      exact hsound
    · rw [hp]
      exact hsend rfl
  | visit fault =>
    obtain ⟨name, rest, -, -, ⟨-, file, -, -, hp⟩ | ⟨error, -, hp⟩⟩ := step_visit hstep
    · rw [hp]
      exact sound_visit hsound
    · rw [hp]
      exact hsend rfl
  | remove fault =>
    obtain ⟨name, rest, -, -, hp⟩ := step_remove hstep
    rw [hp]
    exact hsound
  | control input =>
    obtain ⟨-, rfl⟩ := guard_eq_some hstep
    unfold control
    dsimp only
    split
    · exact hsend rfl
    all_goals exact hsound
  | drain now fault =>
    obtain ⟨hmain, rfl⟩ := guard_eq_some hstep
    exact fun hook hmem => hsound hook (mem_drain (by rw [hmain]; rfl) hmem)
  | check =>
    obtain ⟨-, rfl⟩ := guard_eq_some hstep
    exact fun hook hmem => hsound hook (mem_check hmem)
  | beat due fault =>
    obtain ⟨-, rfl⟩ := guard_eq_some hstep
    exact fun hook hmem => hsound hook (mem_beat hmem)

/-- A frame leaves the spool only through the watcher's removal. -/
theorem inSpool_step (hstep : p.step parse spool act = some r) (h : InSpool parse spool name) :
    InSpool parse r.1 name ∨ ∃ rest, p.watcher = .removing name rest := by
  cases act with
  | list fault =>
    obtain ⟨-, hspool, -⟩ := step_list hstep
    exact Or.inl (hspool ▸ h)
  | visit fault =>
    obtain ⟨_, _, -, hspool, -⟩ := step_visit hstep
    exact Or.inl (hspool ▸ h)
  | remove fault =>
    obtain ⟨removed, rest, hwatcher, hspool, -⟩ := step_remove hstep
    by_cases hname : name = removed
    · exact Or.inr ⟨rest, hname ▸ hwatcher⟩
    · obtain ⟨hext, file, hfile, hfileName, hforward⟩ := h
      refine Or.inl ⟨hext, file, ?_, hfileName, hforward⟩
      rw [hspool]
      split_ifs
      · exact List.mem_filter.2 ⟨hfile, decide_eq_true (hfileName ▸ hname)⟩
      · exact hfile
  | control input | drain now fault | check | beat due fault =>
    obtain ⟨-, rfl⟩ := guard_eq_some hstep
    exact Or.inl h

theorem eq_of_name {file' : SpoolFile} (hnames : (spool.map SpoolFile.name).Nodup)
    (h : file ∈ spool) (h' : file' ∈ spool) (hname : file.name = file'.name) : file = file' :=
  List.inj_on_of_nodup_map hnames h h' hname

theorem control_watcher (p : Process) (input : Except String (Option RelayControl)) :
    (p.control input).watcher = p.watcher := by
  unfold control
  split <;> simp

theorem drain_watcher (p : Process) (now : Int64) (fault : Option String) :
    (p.drain now fault).watcher = p.watcher := by
  unfold drain
  split
  · rfl
  · next hook rest _ =>
    split
    · rfl
    · split
      · rfl
      · rfl
      · exact emit_watcher { p with hooks := rest } _ _ _ _

theorem check_watcher (p : Process) : p.check.watcher = p.watcher := by
  unfold check
  split
  · split_ifs <;> rfl
  all_goals rfl

theorem beat_watcher (p : Process) (due : Bool) (fault : Option String) :
    (p.beat due fault).watcher = p.watcher := by
  unfold beat
  split_ifs
  · exact emit_watcher p _ _ _ _
  · rfl

theorem removing_visit {later : List String}
    (h : (p.visit parse file later).watcher = .removing name rest) :
    file.name = name ∧ later = rest := by
  unfold visit at h
  split at h
  · rw [send_watcher] at h
    exact Watcher.removing.inj h
  · exact Watcher.removing.inj h
  · cases h
  · rw [send_watcher] at h
    cases h

/-- The watcher comes to remove a file by a visit. -/
theorem removing_of_step (hstep : p.step parse spool act = some r)
    (hremoving : r.2.watcher = .removing name rest) :
    p.watcher = .removing name rest ∨
      (act = .visit none ∧ p.watcher = .visiting (name :: rest) ∧ r.1 = spool ∧
        ∃ file ∈ spool, file.name = name ∧ r.2 = p.visit parse file rest) := by
  cases act with
  | list fault =>
    obtain ⟨hwatcher, -, ⟨-, hp⟩ | ⟨error, -, hp⟩⟩ := step_list hstep
    · rw [hp] at hremoving
      cases hremoving
    · rw [hp, send_watcher, hwatcher] at hremoving
      cases hremoving
  | visit fault =>
    obtain ⟨visited, later, hwatcher, hspool, ⟨rfl, file, hfile, hname, hp⟩ | ⟨error, -, hp⟩⟩ :=
      step_visit hstep
    · obtain ⟨rfl, rfl⟩ := removing_visit (hp ▸ hremoving)
      exact Or.inr ⟨rfl, hname ▸ hwatcher, hspool, file, hfile, rfl, hp⟩
    · rw [hp, send_watcher] at hremoving
      cases hremoving
  | remove fault =>
    obtain ⟨_, _, -, -, hp⟩ := step_remove hstep
    rw [hp] at hremoving
    cases hremoving
  | control input =>
    obtain ⟨-, rfl⟩ := guard_eq_some hstep
    exact Or.inl (control_watcher p input ▸ hremoving)
  | drain now fault =>
    obtain ⟨-, rfl⟩ := guard_eq_some hstep
    exact Or.inl (drain_watcher p now fault ▸ hremoving)
  | check =>
    obtain ⟨-, rfl⟩ := guard_eq_some hstep
    exact Or.inl (check_watcher p ▸ hremoving)
  | beat due fault =>
    obtain ⟨-, rfl⟩ := guard_eq_some hstep
    exact Or.inl (beat_watcher p due fault ▸ hremoving)

/-- Steps only take files out of the spool. -/
theorem spool_sublist (hstep : p.step parse spool act = some r) : r.1.Sublist spool := by
  cases act with
  | list fault =>
    obtain ⟨-, hspool, -⟩ := step_list hstep
    exact hspool ▸ List.Sublist.refl _
  | visit fault =>
    obtain ⟨_, _, -, hspool, -⟩ := step_visit hstep
    exact hspool ▸ List.Sublist.refl _
  | remove fault =>
    obtain ⟨_, _, -, hspool, -⟩ := step_remove hstep
    rw [hspool]
    split_ifs
    · exact List.filter_sublist
    · exact List.Sublist.refl spool
  | control input | drain now fault | check | beat due fault =>
    obtain ⟨-, rfl⟩ := guard_eq_some hstep
    exact List.Sublist.refl spool

theorem InSpool.mono {spool' : List SpoolFile} (h : InSpool parse spool name)
    (hspool : ∀ file ∈ spool, file ∈ spool') : InSpool parse spool' name := by
  obtain ⟨hext, file, hfile, hname, hforward⟩ := h
  exact ⟨hext, file, hspool file hfile, hname, hforward⟩

/-- The watcher comes to remove a frame with an event by a visit, which sends the event. -/
theorem removing_step (hnames : (spool.map SpoolFile.name).Nodup)
    (hstep : p.step parse spool act = some r) (hremoving : r.2.watcher = .removing name rest)
    (h : InSpool parse r.1 name) :
    (p.watcher = .removing name rest ∧ InSpool parse spool name) ∨
      (act = .visit none ∧ p.watcher = .visiting (name :: rest) ∧ InSpool parse spool name ∧
        (p.main.running = true → r.2.Sent name)) := by
  have hin := h.mono fun file hfile => (spool_sublist hstep).subset hfile
  obtain hbefore | ⟨hact, hwatcher, -, file, hfile, rfl, hp⟩ := removing_of_step hstep hremoving
  · exact Or.inl ⟨hbefore, hin⟩
  · refine Or.inr ⟨hact, hwatcher, hin, fun hrunning => ?_⟩
    obtain ⟨-, file', hfile', hname', payload, hdecode⟩ := hin
    obtain rfl := eq_of_name hnames hfile' hfile hname'
    rw [hp]
    unfold Process.visit
    rw [hdecode]
    exact sent_send rfl hrunning

end Process

end Relay

end LlmNotch
