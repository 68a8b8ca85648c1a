import Mathlib.Data.List.Nodup

/-!
# Tables with a key

A table is a list of rows, and `key` gives the columns of its primary key. `upsertRow` is
`INSERT ... ON CONFLICT(key) DO UPDATE` : it merges the new row into the one with its key,
or appends it. Every merge here keeps the key, so an upsert adds at most one key
(`keys_upsertRow`) and keeps the keys distinct (`nodup_upsertRow`).
-/

namespace LlmNotch

variable {ρ κ : Type*} [DecidableEq κ]

/-- Whether the table has a row with this key. -/
def hasKey (key : ρ → κ) (k : κ) (rows : List ρ) : Bool :=
  (rows.map key).contains k

/-- Merge `x` into the row with its key, or append it. -/
def upsertRow (key : ρ → κ) (merge : ρ → ρ → ρ) (x : ρ) (rows : List ρ) : List ρ :=
  if hasKey key (key x) rows then rows.map fun y => if key y = key x then merge y x else y
  else rows ++ [x]

variable {key : ρ → κ} {merge : ρ → ρ → ρ}

variable {rows : List ρ}

theorem hasKey_iff {k : κ} : hasKey key k rows = true ↔ ∃ y ∈ rows, key y = k := by
  simp [hasKey]

theorem keys_upsertRow (hm : ∀ y x, key (merge y x) = key y) (x : ρ) (rows : List ρ) :
    (upsertRow key merge x rows).map key =
      if hasKey key (key x) rows then rows.map key else rows.map key ++ [key x] := by
  unfold upsertRow
  split
  · rw [List.map_map]
    refine List.map_congr_left fun y _ => ?_
    simp only [Function.comp_apply]
    split
    · exact hm y x
    · rfl
  · simp

theorem nodup_upsertRow (hm : ∀ y x, key (merge y x) = key y) (x : ρ) (h : (rows.map key).Nodup) :
    ((upsertRow key merge x rows).map key).Nodup := by
  rw [keys_upsertRow hm]
  split
  · exact h
  · rename_i hx
    have hnew : key x ∉ rows.map key := by simpa [hasKey] using hx
    refine List.nodup_append.2 ⟨h, by simp, ?_⟩
    intro a ha b hb hab
    obtain rfl : b = key x := by simpa using hb
    exact hnew (hab ▸ ha)

/-- Every row of the table after an upsert has the key of an old row or of the new one. -/
theorem key_of_mem_upsertRow (hm : ∀ y x, key (merge y x) = key y) {x z : ρ}
    (hz : z ∈ upsertRow key merge x rows) : key z = key x ∨ ∃ y ∈ rows, key y = key z := by
  have hk : key z ∈ (upsertRow key merge x rows).map key := List.mem_map_of_mem hz
  rw [keys_upsertRow hm] at hk
  split at hk
  · exact Or.inr (List.mem_map.1 hk)
  · rcases List.mem_append.1 hk with h | h
    · exact Or.inr (List.mem_map.1 h)
    · exact Or.inl (by simpa using h)

/-- An upsert puts the new row in the place of those with its key, if the merge takes all of it. -/
theorem mem_upsertRow {x z : ρ} (hm : ∀ y ∈ rows, key y = key x → merge y x = x) :
    z ∈ upsertRow key merge x rows ↔ z = x ∨ z ∈ rows ∧ key z ≠ key x := by
  unfold upsertRow
  split
  · rename_i hx
    rw [List.mem_map]
    constructor
    · rintro ⟨y, hy, rfl⟩
      split
      · rename_i hk
        exact Or.inl (hm y hy hk)
      · rename_i hk
        exact Or.inr ⟨hy, hk⟩
    · rintro (rfl | ⟨hz, hk⟩)
      · obtain ⟨y, hy, hk⟩ := hasKey_iff.1 hx
        exact ⟨y, hy, by rw [if_pos hk, hm y hy hk]⟩
      · exact ⟨z, hz, if_neg hk⟩
  · rename_i hx
    rw [List.mem_append, List.mem_singleton]
    constructor
    · rintro (hz | rfl)
      · refine Or.inr ⟨hz, fun hk => hx ?_⟩
        exact hasKey_iff.2 ⟨z, hz, hk⟩
      · exact Or.inl rfl
    · rintro (rfl | ⟨hz, -⟩)
      · exact Or.inr rfl
      · exact Or.inl hz

/-- The row an upsert leaves under a key. -/
theorem find?_upsertRow (hm : ∀ y x, key (merge y x) = key y) (x : ρ) (rows : List ρ) (k : κ) :
    (upsertRow key merge x rows).find? (fun y => key y = k) =
      if k = key x then some ((rows.find? fun y => key y = k).elim x fun y => merge y x)
      else rows.find? fun y => key y = k := by
  have hnone : hasKey key (key x) rows = false → rows.find? (fun y => key y = key x) = none := by
    intro h
    refine List.find?_eq_none.2 fun y hy hk => ?_
    have hhas := hasKey_iff.2 ⟨y, hy, by simpa using hk⟩
    rw [h] at hhas
    cases hhas
  unfold upsertRow
  split
  · rename_i hhas
    -- the merge keeps the key, so the same row is found
    have hsame : ((fun y => decide (key y = k)) ∘ fun y => if key y = key x then merge y x else y) =
        fun y => decide (key y = k) := by
      funext y
      simp only [Function.comp_apply]
      split
      · rw [hm]
      · rfl
    rw [List.find?_map, hsame]
    split
    · rename_i hk
      subst hk
      obtain ⟨y, hy, hyx⟩ := hasKey_iff.1 hhas
      have hsome : (rows.find? fun y => decide (key y = key x)).isSome = true :=
        List.find?_isSome.2 ⟨y, hy, decide_eq_true hyx⟩
      obtain ⟨z, hz⟩ := Option.isSome_iff_exists.1 hsome
      have hzx : key z = key x := by simpa using List.find?_some hz
      rw [hz, Option.map_some, Option.elim_some, if_pos hzx]
    · rename_i hk
      cases hfind : rows.find? (fun y => decide (key y = k)) with
      | none => rfl
      | some z =>
        have hzk : key z = k := by simpa using List.find?_some hfind
        rw [Option.map_some, if_neg (hzk ▸ hk)]
  · rename_i hhas
    rw [List.find?_append]
    split
    · rename_i hk
      subst hk
      rw [hnone (by simpa using hhas)]
      simp
    · rename_i hk
      simp [Ne.symm hk]

/-- An upsert changes nothing exactly if the table has the merged row already. -/
theorem upsertRow_eq_self {x y : ρ} (h : (rows.map key).Nodup) (hy : y ∈ rows)
    (hk : key y = key x) : upsertRow key merge x rows = rows ↔ merge y x = y := by
  have hx : hasKey key (key x) rows = true := hasKey_iff.2 ⟨y, hy, hk⟩
  unfold upsertRow
  rw [if_pos hx]
  constructor
  · intro hrows
    have hmap : rows.map (fun z => if key z = key x then merge z x else z) = rows.map id := by
      simpa using hrows
    simpa [hk] using List.map_inj_left.1 hmap y hy
  · intro hmerge
    refine (List.map_congr_left fun z hz => ?_).trans (List.map_id rows)
    split
    · rename_i hzx
      obtain rfl : z = y := List.inj_on_of_nodup_map h hz hy (hzx.trans hk.symm)
      exact hmerge
    · rfl

end LlmNotch
