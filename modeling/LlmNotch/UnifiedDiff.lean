import Mathlib.Data.List.Basic
import Mathlib.Data.String.Basic

/-!
# The diff of a preview

`unified_diff` goes through the lines of two texts at once. Equal lines are passed over; at the
first difference a hunk begins, which takes away old lines until one is equal to the new line it
stands at, and adds new lines once there are no old ones left. A hunk is cut when it has more
lines than the longer text.

`replay` does what a hunk asks for : it copies up to its old position, finds the removed lines
there and puts the added lines in their place. `replay_hunks` : the hunks in their order make the
new lines out of the old ones, for every pair of texts.
-/

namespace LlmNotch

namespace Connector

namespace Diff

/-- A line before a newline loses a carriage return at its end. -/
def stripCarriageReturn (line : List Char) : List Char :=
  if line.getLast? = some '\r' then line.dropLast else line

/-- `str::lines` -/
def lines (text : String) : List String :=
  let parts := text.toList.splitOn '\n'
  let last := parts.getLast?.getD []
  (parts.dropLast.map stripCarriageReturn ++ if last = [] then [] else [last]).map String.ofList

/-- A hunk : where it starts in both texts, counted from one, and its lines. -/
structure Hunk where
  oldStart : ℕ
  newStart : ℕ
  removed : List String
  added : List String
  deriving DecidableEq

/-- The lines of a hunk, and what is left of both texts. -/
structure Collected where
  removed : List String
  added : List String
  old : List String
  new : List String

/-- The inner loop. -/
def collect (max : ℕ) (removed added : List String) :
    List String → List String → Collected
  | o :: old, n :: new =>
    if o = n then ⟨removed, added, o :: old, n :: new⟩
    else if max < (removed ++ [o]).length + added.length then
      ⟨removed ++ [o], added, old, n :: new⟩
    else collect max (removed ++ [o]) added old (n :: new)
  | o :: old, [] =>
    if max < (removed ++ [o]).length + added.length then ⟨removed ++ [o], added, old, []⟩
    else collect max (removed ++ [o]) added old []
  | [], n :: new =>
    if max < removed.length + (added ++ [n]).length then ⟨removed, added ++ [n], [], new⟩
    else collect max removed (added ++ [n]) [] new
  | [], [] => ⟨removed, added, [], []⟩
termination_by old new => old.length + new.length

/-- What the inner loop has taken from both texts. -/
theorem collect_spec (max : ℕ) (removed added old new : List String) :
    ∃ o n, (collect max removed added old new).removed = removed ++ o ∧
      (collect max removed added old new).added = added ++ n ∧
      old = o ++ (collect max removed added old new).old ∧
      new = n ++ (collect max removed added old new).new := by
  fun_induction collect max removed added old new with
  | case1 removed added old o new => exact ⟨[], [], by simp⟩
  | case2 removed added o old n new hne hlong => exact ⟨[o], [], by simp⟩
  | case3 removed added o old n new hne hshort ih =>
    obtain ⟨os, ns, hremoved, hadded, hold, hnew⟩ := ih
    exact ⟨o :: os, ns, by simpa using hremoved, hadded, by rw [List.cons_append, ← hold], hnew⟩
  | case4 removed added o old hlong => exact ⟨[o], [], by simp⟩
  | case5 removed added o old hshort ih =>
    obtain ⟨os, ns, hremoved, hadded, hold, hnew⟩ := ih
    exact ⟨o :: os, ns, by simpa using hremoved, hadded, by rw [List.cons_append, ← hold], hnew⟩
  | case6 removed added n new hlong => exact ⟨[], [n], by simp⟩
  | case7 removed added n new hshort ih =>
    obtain ⟨os, ns, hremoved, hadded, hold, hnew⟩ := ih
    exact ⟨os, n :: ns, hremoved, by simpa using hadded, hold, by rw [List.cons_append, ← hnew]⟩
  | case8 removed added => exact ⟨[], [], by simp⟩

/-- A hunk takes its lines from the front of both texts. -/
theorem collect_front (max : ℕ) (old new : List String) :
    old = (collect max [] [] old new).removed ++ (collect max [] [] old new).old ∧
    new = (collect max [] [] old new).added ++ (collect max [] [] old new).new := by
  obtain ⟨o, n, hremoved, hadded, hold, hnew⟩ := collect_spec max [] [] old new
  rw [hremoved, hadded]
  exact ⟨hold, hnew⟩

/-- At a difference a hunk has a line. -/
theorem collect_progress {max : ℕ} {old new : List String} (hdiffer : old.head? ≠ new.head?) :
    (collect max [] [] old new).removed ≠ [] ∨ (collect max [] [] old new).added ≠ [] := by
  have hgrows : ∀ removed added old new, removed ≠ [] ∨ added ≠ [] →
      (collect max removed added old new).removed ≠ [] ∨
        (collect max removed added old new).added ≠ [] := by
    intro removed added old new h
    obtain ⟨o, n, hremoved, hadded, -, -⟩ := collect_spec max removed added old new
    rw [hremoved, hadded]
    exact h.imp (fun h => by simp [h]) fun h => by simp [h]
  match old, new with
  | [], [] => exact absurd rfl hdiffer
  | o :: old, n :: new =>
    have hne : o ≠ n := fun heq => hdiffer (by rw [heq]; rfl)
    rw [collect, if_neg hne]
    split
    · exact .inl (by simp)
    · exact hgrows _ _ _ _ (.inl (by simp))
  | o :: old, [] =>
    rw [collect]
    split
    · exact .inl (by simp)
    · exact hgrows _ _ _ _ (.inl (by simp))
  | [], n :: new =>
    rw [collect]
    split
    · exact .inr (by simp)
    · exact hgrows _ _ _ _ (.inr (by simp))

/-- The outer loop, from the lines at two indices on. -/
def hunksFrom (max oldIdx newIdx : ℕ) (old new : List String) : List Hunk :=
  if old = [] ∧ new = [] then []
  else if old.head? = new.head? then hunksFrom max (oldIdx + 1) (newIdx + 1) old.tail new.tail
  else
    let c := collect max [] [] old new
    if c.removed = [] ∧ c.added = [] then []
    else ⟨oldIdx + 1, newIdx + 1, c.removed, c.added⟩ ::
      hunksFrom max (oldIdx + c.removed.length) (newIdx + c.added.length) c.old c.new
termination_by old.length + new.length
decreasing_by
  · rename_i hsome hsame
    rcases old with _ | ⟨o, old⟩
    · rcases new with _ | ⟨n, new⟩
      · exact absurd ⟨rfl, rfl⟩ hsome
      · cases hsame
    · simp only [List.tail_cons, List.length_cons, List.length_tail]
      omega
  · rename_i hsome hdiffer _
    obtain ⟨hold, hnew⟩ := collect_front max old new
    have holdLength := congrArg List.length hold
    have hnewLength := congrArg List.length hnew
    rw [List.length_append] at holdLength hnewLength
    have hsome' : (collect max [] [] old new).removed.length ≠ 0 ∨
        (collect max [] [] old new).added.length ≠ 0 := by
      simp only [ne_eq, List.length_eq_zero_iff]
      exact (collect_progress hdiffer)
    omega

def Hunk.render (h : Hunk) : String :=
  s!"@@ -{h.oldStart},{h.removed.length} +{h.newStart},{h.added.length} @@\n" ++
    String.join (h.removed.map fun line => "-" ++ line ++ "\n") ++
    String.join (h.added.map fun line => "+" ++ line ++ "\n")

/-- The hunks of two texts. -/
def hunks (oldText newText : String) : List Hunk :=
  hunksFrom (max (lines oldText).length (lines newText).length) 0 0 (lines oldText) (lines newText)

def unifiedDiff (oldLabel newLabel oldText newText : String) : String :=
  if oldText = newText then ""
  else s!"--- {oldLabel}\n+++ {newLabel}\n" ++
    String.join ((hunks oldText newText).map Hunk.render)

/-! ## Replaying -/

/-- Replay hunks on the old lines from `oldIdx` on, after `newIdx` new lines have been made. The
lines up to the old position of a hunk are copied. There the removed lines are deleted and the
added lines inserted, at the new position of the hunk. -/
def replay (oldIdx newIdx : ℕ) : List Hunk → List String → Option (List String)
  | [], old => some old
  | h :: rest, old =>
    let kept := old.take (h.oldStart - (oldIdx + 1))
    let after := old.drop kept.length
    if h.oldStart = oldIdx + kept.length + 1 ∧ h.newStart = newIdx + kept.length + 1 ∧
        h.removed.isPrefixOf after then
      (replay (oldIdx + kept.length + h.removed.length) (newIdx + kept.length + h.added.length)
        rest (after.drop h.removed.length)).map ((kept ++ h.added) ++ ·)
    else none

/-- A hunk that starts after the lines `kept`. -/
theorem replay_cons {oldIdx newIdx : ℕ} {kept old new : List String} {removed added : List String}
    {rest : List Hunk} (hrest : replay (oldIdx + kept.length + removed.length)
      (newIdx + kept.length + added.length) rest old = some new) :
    replay oldIdx newIdx
      (⟨oldIdx + kept.length + 1, newIdx + kept.length + 1, removed, added⟩ :: rest)
      (kept ++ (removed ++ old)) = some (kept ++ (added ++ new)) := by
  have hlength : oldIdx + kept.length + 1 - (oldIdx + 1) = kept.length := by omega
  have hkept :
      (kept ++ (removed ++ old)).take (oldIdx + kept.length + 1 - (oldIdx + 1)) = kept := by
    rw [hlength, List.take_left]
  have hfound : removed.isPrefixOf (removed ++ old) = true :=
    List.isPrefixOf_iff_prefix.2 (List.prefix_append removed old)
  rw [replay]
  simp only [hkept, List.drop_left, hfound, and_self, if_true, hrest, Option.map_some,
    List.append_assoc]

/-- The hunks of the lines from two indices on, after lines `kept` that are in both. -/
theorem replay_hunksFrom (max a b : ℕ) (old new : List String) :
    ∀ (oldIdx newIdx : ℕ) (kept : List String), a = oldIdx + kept.length →
      b = newIdx + kept.length →
      replay oldIdx newIdx (hunksFrom max a b old new) (kept ++ old) = some (kept ++ new) := by
  fun_induction hunksFrom max a b old new with
  | case1 a b old new hnone =>
    intro oldIdx newIdx kept _ _
    rw [hnone.1, hnone.2]
    rfl
  | case2 a b old new hsome hsame ih =>
    intro oldIdx newIdx kept ha hb
    match old, new with
    | [], [] => exact absurd ⟨rfl, rfl⟩ hsome
    | [], n :: new => cases hsame
    | o :: old, [] => cases hsame
    | o :: old, n :: new =>
      obtain rfl : o = n := Option.some.inj hsame
      have hnext := ih oldIdx newIdx (kept ++ [o]) (by rw [List.length_append, ha]; rfl)
        (by rw [List.length_append, hb]; rfl)
      simpa only [List.tail_cons, List.append_assoc, List.singleton_append] using hnext
  | case3 a b old new hsome hdiffer c hnone =>
    exact (collect_progress hdiffer).elim (absurd hnone.1) (absurd hnone.2)
  | case4 a b old new hsome hdiffer c hlines ih =>
    intro oldIdx newIdx kept ha hb
    obtain ⟨hold, hnew⟩ := collect_front max old new
    have hrest := ih (oldIdx + kept.length + c.removed.length)
      (newIdx + kept.length + c.added.length) [] (by rw [ha]; rfl) (by rw [hb]; rfl)
    rw [List.nil_append, List.nil_append] at hrest
    subst ha hb
    have hcons := replay_cons hrest
    rwa [← hold, ← hnew] at hcons

/-- The hunks of two texts make the lines of the new one out of those of the old one. -/
theorem replay_hunks (oldText newText : String) :
    replay 0 0 (hunks oldText newText) (lines oldText) = some (lines newText) :=
  replay_hunksFrom _ 0 0 _ _ 0 0 [] rfl rfl

theorem unifiedDiff_eq_empty {oldLabel newLabel oldText newText : String} :
    unifiedDiff oldLabel newLabel oldText newText = "" ↔ oldText = newText := by
  refine ⟨fun h => ?_, fun h => if_pos h⟩
  by_contra hne
  rw [unifiedDiff, if_neg hne] at h
  simp only [String.append_eq_empty_iff] at h
  exact absurd h.1.1.1.1.1 (by decide)

end Diff

end Connector

end LlmNotch
