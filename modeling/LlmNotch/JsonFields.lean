import LlmNotch.JsonValue
import Mathlib.Data.List.Nodup

/-!
# Editing the fields of an object

An object is an ordered map. `modifyField` changes a value in place, `insertField` adds a
field at its sorted position, `ensureField` adds one that is missing and `alterField` is the
entry of a map : it changes the value of a key, or adds it. `WellFormed` says that no object
of a document has two fields of the same name, as every ordered map keeps it.

The lemmas compute `fieldOf` after each edit, so that proofs never look at field lists.
-/

namespace LlmNotch

namespace Json

/-- The fields of an object. -/
abbrev Fields := List (String × Json)

/-- Change the value of the first field named `key`. -/
def modifyField (key : String) (f : Json → Json) : Fields → Fields
  | [] => []
  | (k, v) :: rest => if k = key then (k, f v) :: rest else (k, v) :: modifyField key f rest

/-- Add a field at its sorted position. -/
def insertField (key : String) (v : Json) : Fields → Fields
  | [] => [(key, v)]
  | (k, w) :: rest =>
    if key < k then (key, v) :: (k, w) :: rest else (k, w) :: insertField key v rest

/-- Add a field if there is none of this name. -/
def ensureField (key : String) (v : Json) (fields : Fields) : Fields :=
  if (fieldOf key fields).isSome then fields else insertField key v fields

/-- Change the value of a field, or add the field. -/
def alterField (key : String) (f : Option Json → Json) (fields : Fields) : Fields :=
  match fieldOf key fields with
  | some _ => modifyField key (fun v => f (some v)) fields
  | none => insertField key (f none) fields

variable {key key' : String} {fields : Fields}

theorem fieldOf_modifyField (f : Json → Json) :
    fieldOf key' (modifyField key f fields) =
      if key' = key then (fieldOf key fields).map f else fieldOf key' fields := by
  induction fields with
  | nil => simp [modifyField, fieldOf]
  | cons e rest ih =>
    obtain ⟨k, v⟩ := e
    unfold modifyField
    by_cases hk : k = key
    · subst hk
      by_cases h : key' = k
      · simp [fieldOf, h]
      · simp [fieldOf, h, Ne.symm h]
    · rw [if_neg hk]
      by_cases h : k = key'
      · subst h
        simp [fieldOf, hk]
      · simp only [fieldOf, if_neg h, if_neg hk, ih]

theorem fieldOf_insertField (v : Json) (h : fieldOf key fields = none) :
    fieldOf key' (insertField key v fields) =
      if key' = key then some v else fieldOf key' fields := by
  induction fields with
  | nil =>
    by_cases hk : key' = key
    · simp [insertField, fieldOf, hk]
    · simp [insertField, fieldOf, hk, Ne.symm hk]
  | cons e rest ih =>
    obtain ⟨k, w⟩ := e
    have hne : k ≠ key := by
      rintro rfl
      simp [fieldOf] at h
    have hrest : fieldOf key rest = none := by simpa [fieldOf, hne] using h
    unfold insertField
    split
    · by_cases hk : key' = key
      · simp [fieldOf, hk]
      · simp [fieldOf, hk, Ne.symm hk]
    · by_cases hk : k = key'
      · subst hk
        simp [fieldOf, hne]
      · simp only [fieldOf, if_neg hk, ih hrest]

theorem fieldOf_ensureField (v : Json) :
    fieldOf key' (ensureField key v fields) =
      if key' = key then some ((fieldOf key fields).getD v) else fieldOf key' fields := by
  unfold ensureField
  cases h : fieldOf key fields with
  | some w =>
    by_cases hk : key' = key
    · simp [hk, h]
    · simp [hk]
  | none => simpa using fieldOf_insertField v h

theorem fieldOf_alterField (f : Option Json → Json) :
    fieldOf key' (alterField key f fields) =
      if key' = key then some (f (fieldOf key fields)) else fieldOf key' fields := by
  unfold alterField
  cases h : fieldOf key fields with
  | some w =>
    simp only [fieldOf_modifyField, h]
    rfl
  | none => exact fieldOf_insertField _ h

variable {f : Json → Json} {v : Json}

theorem modifyField_same (h : fieldOf key fields = some v) (hv : f v = v) :
    modifyField key f fields = fields := by
  induction fields with
  | nil => rfl
  | cons e rest ih =>
    obtain ⟨k, w⟩ := e
    unfold modifyField
    by_cases hk : k = key
    · have hw : w = v := by simpa [fieldOf, hk] using h
      rw [if_pos hk, hw, hv]
    · have hrest : fieldOf key rest = some v := by simpa [fieldOf, hk] using h
      rw [if_neg hk, ih hrest]

theorem alterField_same {f : Option Json → Json} (h : fieldOf key fields = some v)
    (hv : f (some v) = v) : alterField key f fields = fields := by
  rw [alterField, h]
  exact modifyField_same h hv

theorem ensureField_of_some {w : Json} (h : fieldOf key fields = some w) :
    ensureField key v fields = fields := by
  simp [ensureField, h]

theorem modifyField_congr {g : Json → Json} (h : fieldOf key fields = some v) (hv : f v = g v) :
    modifyField key f fields = modifyField key g fields := by
  induction fields with
  | nil => rfl
  | cons e rest ih =>
    obtain ⟨k, w⟩ := e
    unfold modifyField
    by_cases hk : k = key
    · have hw : w = v := by simpa [fieldOf, hk] using h
      rw [if_pos hk, if_pos hk, hw, hv]
    · have hrest : fieldOf key rest = some v := by simpa [fieldOf, hk] using h
      rw [if_neg hk, if_neg hk, ih hrest]

theorem modifyField_modifyField (f g : Json → Json) :
    modifyField key g (modifyField key f fields) = modifyField key (fun v => g (f v)) fields := by
  induction fields with
  | nil => rfl
  | cons e rest ih =>
    obtain ⟨k, w⟩ := e
    by_cases hk : k = key
    · simp [modifyField, hk]
    · simp [modifyField, hk, ih]

/-- Where a field is added does not depend on the other values. -/
theorem modifyField_insertField_ne (hne : key ≠ key') (f : Json → Json) (v : Json) :
    modifyField key f (insertField key' v fields) = insertField key' v (modifyField key f fields) := by
  induction fields with
  | nil => simp [insertField, modifyField, hne.symm]
  | cons e rest ih =>
    obtain ⟨k, w⟩ := e
    by_cases hlt : key' < k
    · by_cases hk : k = key
      · subst hk
        simp [insertField, modifyField, hlt, hne.symm]
      · simp [insertField, modifyField, hlt, hk, hne.symm]
    · by_cases hk : k = key
      · subst hk
        simp [insertField, modifyField, hlt]
      · simp [insertField, modifyField, hlt, hk, ih]

theorem modifyField_ensureField_ne (hne : key ≠ key') (f : Json → Json) (v : Json) :
    modifyField key f (ensureField key' v fields) =
      ensureField key' v (modifyField key f fields) := by
  have hfield : fieldOf key' (modifyField key f fields) = fieldOf key' fields := by
    rw [fieldOf_modifyField, if_neg hne.symm]
  unfold ensureField
  rw [hfield]
  split_ifs
  · rfl
  · exact modifyField_insertField_ne hne f v

theorem modifyField_insertField (v : Json) (h : fieldOf key fields = none) :
    modifyField key f (insertField key v fields) = insertField key (f v) fields := by
  induction fields with
  | nil => simp [insertField, modifyField]
  | cons e rest ih =>
    obtain ⟨k, w⟩ := e
    have hne : k ≠ key := by
      rintro rfl
      simp [fieldOf] at h
    have hrest : fieldOf key rest = none := by simpa [fieldOf, hne] using h
    unfold insertField
    split
    · simp [modifyField]
    · simp only [modifyField, if_neg hne, ih hrest]

/-- Changing a field that is added if it is missing. -/
theorem modifyField_ensureField (f : Json → Json) (v : Json) :
    modifyField key f (ensureField key v fields) =
      alterField key (fun slot => f (slot.getD v)) fields := by
  cases h : fieldOf key fields with
  | some w =>
    rw [ensureField_of_some h, alterField, h]
    rfl
  | none =>
    rw [ensureField, h, alterField, h]
    exact modifyField_insertField v h

theorem mem_of_fieldOf (h : fieldOf key fields = some v) : (key, v) ∈ fields := by
  induction fields with
  | nil => cases h
  | cons e rest ih =>
    obtain ⟨k, w⟩ := e
    unfold fieldOf at h
    split at h
    · rename_i hk
      rw [← hk, ← Option.some.inj h]
      simp
    · exact List.mem_cons_of_mem _ (ih h)

/-! ## Distinct names -/

/-- No two fields have the same name. -/
def DistinctFields (fields : Fields) : Prop :=
  (fields.map Prod.fst).Nodup

theorem fieldOf_of_mem (hd : DistinctFields fields) (h : (key, v) ∈ fields) :
    fieldOf key fields = some v := by
  induction fields with
  | nil => cases h
  | cons e rest ih =>
    obtain ⟨k, w⟩ := e
    obtain ⟨hnew, hrest⟩ := List.nodup_cons.1 hd
    rcases List.mem_cons.1 h with he | he
    · obtain ⟨rfl, rfl⟩ := Prod.mk.inj he
      simp [fieldOf]
    · have hne : k ≠ key := by
        rintro rfl
        exact hnew (List.mem_map.2 ⟨(k, v), he, rfl⟩)
      simp only [fieldOf, if_neg hne]
      exact ih hrest he

theorem names_modifyField (key : String) (f : Json → Json) (fields : Fields) :
    (modifyField key f fields).map Prod.fst = fields.map Prod.fst := by
  induction fields with
  | nil => rfl
  | cons e rest ih =>
    obtain ⟨k, v⟩ := e
    unfold modifyField
    split
    · rfl
    · rw [List.map_cons, List.map_cons, ih]

theorem fieldOf_map (f : String → Json → Json) :
    fieldOf key (fields.map fun e => (e.1, f e.1 e.2)) = (fieldOf key fields).map (f key) := by
  induction fields with
  | nil => rfl
  | cons e rest ih =>
    obtain ⟨k, v⟩ := e
    by_cases hk : k = key
    · subst hk
      simp [fieldOf]
    · simpa [fieldOf, hk] using ih

theorem fieldOf_filter (hd : DistinctFields fields) (p : String × Json → Bool) :
    fieldOf key (fields.filter p) = (fieldOf key fields).filter fun v => p (key, v) := by
  induction fields with
  | nil => rfl
  | cons e rest ih =>
    obtain ⟨k, v⟩ := e
    obtain ⟨hnew, hrest⟩ := List.nodup_cons.1 hd
    have hih := ih hrest
    by_cases hk : k = key
    · subst hk
      have hnone : fieldOf k (rest.filter p) = none := by
        cases h : fieldOf k (rest.filter p) with
        | none => rfl
        | some w =>
          exact absurd (List.mem_map_of_mem (List.mem_filter.1 (mem_of_fieldOf h)).1) hnew
      by_cases hp : p (k, v) = true
      · simp [hp, fieldOf, Option.filter]
      · simp [hp, fieldOf, hnone, Option.filter]
    · by_cases hp : p (k, v) = true
      · simp [hp, fieldOf, hk, hih]
      · simp [hp, fieldOf, hk, hih]

mutual

/-- No object has two fields of the same name. -/
def WellFormed : Json → Prop
  | arr items => WellFormedItems items
  | obj fields => DistinctFields fields ∧ WellFormedFields fields
  | _ => True

def WellFormedItems : List Json → Prop
  | [] => True
  | v :: rest => v.WellFormed ∧ WellFormedItems rest

def WellFormedFields : List (String × Json) → Prop
  | [] => True
  | (_, v) :: rest => v.WellFormed ∧ WellFormedFields rest

end

theorem WellFormedItems.mem {items : List Json} (h : WellFormedItems items) (hv : v ∈ items) :
    v.WellFormed := by
  induction items with
  | nil => cases hv
  | cons w rest ih =>
    rcases List.mem_cons.1 hv with rfl | hv
    · exact h.1
    · exact ih h.2 hv

theorem WellFormedFields.mem (h : WellFormedFields fields) (hv : (key, v) ∈ fields) :
    v.WellFormed := by
  induction fields with
  | nil => cases hv
  | cons e rest ih =>
    rcases List.mem_cons.1 hv with rfl | hv
    · exact h.1
    · exact ih h.2 hv

theorem WellFormed.get {doc : Json} (h : doc.WellFormed) (hv : doc.get key = some v) :
    v.WellFormed := by
  cases doc with
  | obj fields => exact h.2.mem (mem_of_fieldOf hv)
  | _ => cases hv

end Json

end LlmNotch
