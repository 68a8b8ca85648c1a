import Mathlib.Data.List.Basic

/-!
# Replicas of a log

A log of entries that change a state one after another, and copies of the state that are behind.
A copy at position `n` has the state after the first `n` entries (`Replica`). It stays one while
the log grows, moves on with the next entry, and is up to date at the end of the log.
-/

namespace LlmNotch

variable {σ π : Type} {change : σ → π → σ} {start : σ}

/-- The state after the first `n` entries. -/
def replayed (change : σ → π → σ) (start : σ) (log : List π) (n : ℕ) : σ :=
  (log.take n).foldl change start

/-- `state` is a copy at position `n`. -/
structure Replica (change : σ → π → σ) (start : σ) (log : List π) (n : ℕ) (state : σ) : Prop where
  bound : n ≤ log.length
  state : state = replayed change start log n

namespace Replica

variable {log : List π} {n : ℕ} {s : σ}

theorem latest : Replica change start log log.length (log.foldl change start) where
  bound := Nat.le_refl _
  state := by
    unfold replayed
    rw [List.take_length]

/-- A copy at the end of the log is up to date. -/
theorem eq_latest (h : Replica change start log n s) (hn : n = log.length) :
    s = log.foldl change start := by
  rw [h.state, replayed, hn, List.take_length]

theorem grow (h : Replica change start log n s) (more : List π) :
    Replica change start (log ++ more) n s where
  bound := by
    have hbound := h.bound
    rw [List.length_append]
    omega
  state := by
    rw [h.state, replayed, replayed, List.take_append_of_le_length h.bound]

theorem next (h : Replica change start log n s) {entry : π} (hentry : log[n]? = some entry) :
    Replica change start log (n + 1) (change s entry) where
  bound := (List.getElem?_eq_some_iff.1 hentry).1
  state := by
    rw [h.state, replayed, replayed, List.take_add_one, hentry, List.foldl_append]
    rfl

end Replica

end LlmNotch
