import Mathlib.Data.List.Range
import Mathlib.Data.List.Perm.Subperm

/-!
# Thinning a list

`keepIndexed` keeps the entries of a list whose one-based index passes a test. With the test of a
stride that also keeps both edges (`OnStride`), a list of which the stride covers all but the
first entry in `steps` steps has at most `steps + 1` entries left (`length_keepIndexed_le`).
-/

namespace LlmNotch

namespace Thinning

variable {α : Type*}

/-- The entries whose index, from one on, passes. -/
def keepIndexed (keeps : ℕ → Bool) (rows : List α) : List α :=
  ((rows.zipIdx 1).filter fun row => keeps row.2).map Prod.fst

section Keep

variable {keeps : ℕ → Bool} {rows : List α}

theorem keepIndexed_sublist (keeps : ℕ → Bool) (rows : List α) :
    (keepIndexed keeps rows).Sublist rows := by
  have h := (List.filter_sublist (p := fun row : α × ℕ => keeps row.2)
    (l := rows.zipIdx 1)).map Prod.fst
  rwa [List.zipIdx_map_fst] at h

theorem length_keepIndexed (keeps : ℕ → Bool) (rows : List α) :
    (keepIndexed keeps rows).length = ((List.range' 1 rows.length).filter keeps).length := by
  rw [keepIndexed, List.length_map, ← List.zipIdx_map_snd 1 rows, List.filter_map, List.length_map]
  rfl

/-- Nothing is dropped if every index passes. -/
theorem keepIndexed_of_all (h : ∀ index, 1 ≤ index → index ≤ rows.length → keeps index = true) :
    keepIndexed keeps rows = rows := by
  refine (keepIndexed_sublist keeps rows).eq_of_length ?_
  rw [length_keepIndexed, List.filter_eq_self.2, List.length_range']
  intro index hindex
  obtain ⟨hfirst, hlast⟩ := List.mem_range'_1.1 hindex
  exact h index hfirst (by omega)

theorem head?_keepIndexed (h : keeps 1 = true) : (keepIndexed keeps rows).head? = rows.head? := by
  cases rows with
  | nil => rfl
  | cons row rows =>
    rw [keepIndexed, List.zipIdx_cons, List.filter_cons_of_pos (by exact h)]
    rfl

theorem getLast?_keepIndexed (h : keeps rows.length = true) :
    (keepIndexed keeps rows).getLast? = rows.getLast? := by
  induction rows using List.reverseRecOn with
  | nil => rfl
  | append_singleton rows row =>
    have hkeeps : keeps (1 + rows.length) = true := by
      rwa [List.length_append, List.length_singleton, Nat.add_comm] at h
    rw [keepIndexed, List.zipIdx_append, List.filter_append, List.map_append]
    simp [hkeeps]

end Keep

/-! ## Strides -/

/-- An index among `count` that is an edge or a multiple of the stride after the first. -/
def OnStride (stride count index : ℕ) : Prop :=
  index = 1 ∨ index = count ∨ (index - 1) % stride = 0

variable {stride steps count : ℕ}

/-- The number of strides that reach an index. -/
def strideNumber (stride index : ℕ) : ℕ :=
  (index - 1 + (stride - 1)) / stride

theorem strideNumber_le (hstride : 0 < stride) (hcover : count - 1 ≤ stride * steps) {index : ℕ}
    (hindex : index ≤ count) : strideNumber stride index ≤ steps := by
  refine Nat.le_of_lt_succ ((Nat.div_lt_iff_lt_mul hstride).2 ?_)
  have hsucc : steps.succ * stride = stride * steps + stride := by
    rw [Nat.succ_mul, Nat.mul_comm]
  omega

/-- Only the last index can be off the stride, so a later one needs more strides. -/
theorem strideNumber_lt (hstride : 0 < stride) {index later : ℕ}
    (hindex : OnStride stride count index) (hlt : index < later) (hlater : later ≤ count)
    (hfirst : 1 ≤ index) : strideNumber stride index < strideNumber stride later := by
  have hmod : (index - 1) % stride = 0 := by
    rcases hindex with rfl | rfl | hmod
    · exact Nat.zero_mod stride
    · omega
    · exact hmod
  obtain ⟨k, hk⟩ := Nat.dvd_of_mod_eq_zero hmod
  have hown : strideNumber stride index = k := by
    rw [strideNumber, hk, Nat.mul_add_div hstride, Nat.div_eq_of_lt (by omega), Nat.add_zero]
  have hnext : k + 1 ≤ strideNumber stride later := by
    refine (Nat.le_div_iff_mul_le hstride).2 ?_
    have hsucc : (k + 1) * stride = stride * k + stride := by
      rw [Nat.succ_mul, Nat.mul_comm]
    omega
  omega

/-- As many strides as reach the last index, and one entry more, are left. -/
theorem length_keepIndexed_le {keeps : ℕ → Bool} {rows : List α} (hstride : 0 < stride)
    (hcover : rows.length - 1 ≤ stride * steps)
    (hkeeps : ∀ index, 1 ≤ index → keeps index = true → OnStride stride rows.length index) :
    (keepIndexed keeps rows).length ≤ steps + 1 := by
  rw [length_keepIndexed]
  have hmem : ∀ index ∈ (List.range' 1 rows.length).filter keeps,
      1 ≤ index ∧ index ≤ rows.length ∧ OnStride stride rows.length index := by
    intro index hindex
    obtain ⟨hrange, hkept⟩ := List.mem_filter.1 hindex
    obtain ⟨hfirst, hlast⟩ := List.mem_range'_1.1 hrange
    exact ⟨hfirst, by omega, hkeeps index hfirst hkept⟩
  have hpairs : (((List.range' 1 rows.length).filter keeps).map (strideNumber stride)).Pairwise
      (· < ·) := by
    rw [List.pairwise_map]
    have hrange : (List.range' 1 rows.length).Pairwise (· < ·) := List.pairwise_lt_range'
    refine (hrange.filter keeps).imp_of_mem fun {index later} hi hl hlt => ?_
    exact strideNumber_lt hstride (hmem index hi).2.2 hlt (hmem later hl).2.1 (hmem index hi).1
  have hsubset : ((List.range' 1 rows.length).filter keeps).map (strideNumber stride) ⊆
      List.range (steps + 1) := by
    intro number hnumber
    obtain ⟨index, hindex, rfl⟩ := List.mem_map.1 hnumber
    exact List.mem_range.2 (Nat.lt_succ_of_le (strideNumber_le hstride hcover
      (hmem index hindex).2.1))
  have hnodup : (((List.range' 1 rows.length).filter keeps).map (strideNumber stride)).Nodup :=
    hpairs.imp fun hlt => Nat.ne_of_lt hlt
  have hlength := (hnodup.subperm hsubset).length_le
  rwa [List.length_map, List.length_range] at hlength

end Thinning

end LlmNotch
