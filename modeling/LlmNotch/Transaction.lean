import LlmNotch.Transition

/-!
# Scripts of transactions

A process runs a script of commands on a database : statements, and the begin and commit of
transactions. A statement outside a transaction is committed at once. The process may stop between
two commands; then an open transaction is rolled back, and the script is chosen and started again
for what is committed.

`Leads` says that a script runs to its end through committed states that are `Good`, and
`leads_block` takes a transaction as one step. If the script of every good state leads to the same
final state, no run fails, every run can be completed, and a completed run ends there
(`resumes`).
-/

namespace LlmNotch

namespace Transaction

variable {D S E : Type}

/-! ## Commands -/

inductive Command (S : Type) where
  | begin
  | commit
  | plain (s : S)
  deriving DecidableEq

/-- The committed database, and the changed one if a transaction is open. -/
structure Connection (D : Type) where
  committed : D
  working : Option D
  deriving DecidableEq

inductive Failure (E : Type) where
  | nested
  | noTransaction
  | statement (e : E)
  deriving DecidableEq

def execute (apply : S → D → Except E D) (c : Connection D) :
    Command S → Except (Failure E) (Connection D)
  | .begin => match c.working with
    | some _ => .error .nested
    | none => .ok ⟨c.committed, some c.committed⟩
  | .commit => match c.working with
    | none => .error .noTransaction
    | some d => .ok ⟨d, none⟩
  | .plain s => match c.working with
    | some d => match apply s d with
      | .ok d => .ok ⟨c.committed, some d⟩
      | .error e => .error (.statement e)
    | none => match apply s c.committed with
      | .ok d => .ok ⟨d, none⟩
      | .error e => .error (.statement e)

/-! ## Processes -/

inductive Status (S E : Type) where
  | idle
  | running (rest : List (Command S))
  | returned
  | failed (e : Failure E)
  deriving DecidableEq

structure Process (D S E : Type) where
  connection : Connection D
  status : Status S E

/-- No process runs on this database. -/
def Process.idle (d : D) : Process D S E :=
  ⟨⟨d, none⟩, .idle⟩

inductive Act where
  | start | exec | stop
  deriving DecidableEq

def step (apply : S → D → Except E D) (script : D → List (Command S)) (p : Process D S E) :
    Act → Option (Process D S E)
  | .start => match p.status with
    | .running _ => none
    | _ => some ⟨⟨p.connection.committed, none⟩, .running (script p.connection.committed)⟩
  | .exec => match p.status with
    | .running [] => some { p with status := .returned }
    | .running (command :: rest) => match execute apply p.connection command with
      | .ok connection => some ⟨connection, .running rest⟩
      | .error e => some { p with status := .failed e }
    | _ => none
  | .stop => some (.idle p.connection.committed)

/-! ## Scripts that lead to an end -/

section Leads

variable (apply : S → D → Except E D) (Good : D → Prop) (final : D)

/-- The commands succeed one after the other, through good committed states, and end in the final
one. -/
def Leads : Connection D → List (Command S) → Prop
  | c, [] => c = ⟨final, none⟩ ∧ Good final
  | c, command :: rest => Good c.committed ∧
    ∃ next, execute apply c command = .ok next ∧ Leads next rest

/-- The statements of a transaction. -/
def applyAll : List S → D → Except E D
  | [], d => .ok d
  | s :: rest, d => match apply s d with
    | .ok d => applyAll rest d
    | .error e => .error e

/-- A transaction as commands. -/
def block (body : List S) : List (Command S) :=
  .begin :: (body.map .plain ++ [.commit])

variable {apply Good final}

theorem Leads.good {c : Connection D} {commands : List (Command S)}
    (h : Leads apply Good final c commands) : Good c.committed := by
  cases commands with
  | nil =>
    obtain ⟨rfl, hgood⟩ := h
    exact hgood
  | cons command rest => exact h.1

variable {next : D} {rest : List (Command S)}

theorem leads_plain {d : D} {s : S} (hgood : Good d) (happly : apply s d = .ok next)
    (h : Leads apply Good final ⟨next, none⟩ rest) :
    Leads apply Good final ⟨d, none⟩ (.plain s :: rest) := by
  refine ⟨hgood, ⟨next, none⟩, ?_, h⟩
  simp only [execute, happly]

theorem leads_body {d w : D} {body : List S} (hgood : Good d)
    (hbody : applyAll apply body w = .ok next) (h : Leads apply Good final ⟨next, none⟩ rest) :
    Leads apply Good final ⟨d, some w⟩ (body.map .plain ++ .commit :: rest) := by
  induction body generalizing w with
  | nil =>
    obtain rfl : w = next := Except.ok.inj hbody
    exact ⟨hgood, ⟨w, none⟩, rfl, h⟩
  | cons s body ih =>
    rw [applyAll] at hbody
    cases happly : apply s w with
    | error e =>
      rw [happly] at hbody
      cases hbody
    | ok w' =>
      rw [happly] at hbody
      refine ⟨hgood, ⟨d, some w'⟩, ?_, ih hbody⟩
      simp only [execute, happly]

theorem applyAll_cons {d : D} {s : S} (h : apply s d = .ok next) (rest : List S) :
    applyAll apply (s :: rest) d = applyAll apply rest next := by
  rw [applyAll, h]

/-- A transaction is one step, wherever the process stops in it. -/
theorem leads_block {d : D} {body : List S} (hgood : Good d)
    (hbody : applyAll apply body d = .ok next) (h : Leads apply Good final ⟨next, none⟩ rest) :
    Leads apply Good final ⟨d, none⟩ (block body ++ rest) := by
  rw [block, List.cons_append, List.append_assoc]
  exact ⟨hgood, ⟨d, some d⟩, rfl, leads_body hgood hbody h⟩

end Leads

/-! ## Runs -/

section Runs

variable {apply : S → D → Except E D} {script : D → List (Command S)} {Good : D → Prop} {final : D}

/-- What is committed is good, and what is left of the script leads to the end. -/
def Safe (apply : S → D → Except E D) (Good : D → Prop) (final : D) (p : Process D S E) : Prop :=
  Good p.connection.committed ∧ match p.status with
    | .idle => True
    | .running rest => Leads apply Good final p.connection rest
    | .returned => p.connection = ⟨final, none⟩
    | .failed _ => False

theorem safe_step (hscript : ∀ d, Good d → Leads apply Good final ⟨d, none⟩ (script d))
    {p q : Process D S E} {a : Act} (h : Safe apply Good final p)
    (hstep : step apply script p a = some q) : Safe apply Good final q := by
  obtain ⟨connection, status⟩ := p
  obtain ⟨hgood, hstatus⟩ := h
  cases a with
  | start =>
    cases status with
    | running rest => cases hstep
    | idle | returned | failed e =>
      cases hstep
      exact ⟨hgood, hscript _ hgood⟩
  | exec =>
    cases status with
    | idle | returned | failed e => cases hstep
    | running rest =>
      cases rest with
      | nil =>
        cases hstep
        exact ⟨hgood, hstatus.1⟩
      | cons command rest =>
        obtain ⟨-, next, hexecute, hrest⟩ := hstatus
        simp only [step, hexecute] at hstep
        cases hstep
        exact ⟨hrest.good, hrest⟩
  | stop =>
    cases hstep
    exact ⟨hgood, trivial⟩

/-- The commands that are left can be executed. -/
theorem completes (script : D → List (Command S)) {c : Connection D} {rest : List (Command S)}
    (h : Leads apply Good final c rest) : ∃ n, run (step apply script) ⟨c, .running rest⟩
      (List.replicate n .exec) = some ⟨⟨final, none⟩, .returned⟩ := by
  induction rest generalizing c with
  | nil =>
    obtain ⟨rfl, -⟩ := h
    exact ⟨1, rfl⟩
  | cons command rest ih =>
    obtain ⟨-, next, hexecute, hrest⟩ := h
    obtain ⟨n, hn⟩ := ih hrest
    refine ⟨n + 1, run_cons.2 ⟨_, ?_, hn⟩⟩
    simp only [step, hexecute]

/-- In every run, what is committed is good, nothing fails, what has returned is at the end, and a
new start runs to the end. -/
theorem resumes (hscript : ∀ d, Good d → Leads apply Good final ⟨d, none⟩ (script d)) {d : D}
    (hd : Good d) {acts : List Act} {p : Process D S E}
    (hrun : run (step apply script) (.idle d) acts = some p) :
    Good p.connection.committed ∧ (∀ e, p.status ≠ .failed e) ∧
    (p.status = .returned → p.connection = ⟨final, none⟩) ∧
    ∃ n, run (step apply script) p (.stop :: .start :: List.replicate n .exec) =
      some ⟨⟨final, none⟩, .returned⟩ := by
  have hsafe : Safe apply Good final p := by
    refine (Guarded.trivial (step apply script) (.idle d) acts).invariant
      (fun q a r _ hq hstep => safe_step hscript hq hstep) ?_ hrun
    exact ⟨hd, trivial⟩
  obtain ⟨hgood, hstatus⟩ := hsafe
  refine ⟨hgood, fun e he => ?_, fun hreturned => ?_, ?_⟩
  · rw [he] at hstatus
    exact hstatus
  · rw [hreturned] at hstatus
    exact hstatus
  · obtain ⟨n, hn⟩ := completes script (hscript _ hgood)
    exact ⟨n, run_cons.2 ⟨_, rfl, run_cons.2 ⟨_, rfl, hn⟩⟩⟩

end Runs

end Transaction

end LlmNotch
