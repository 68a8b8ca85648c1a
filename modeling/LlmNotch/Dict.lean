import Mathlib.Data.List.AList
import Mathlib.Data.List.Sort

/-!
# Finite maps with one value type

`Dict α β` is Mathlib's association list with distinct keys, at a constant value type.
It stands for a hash map : `lookup`, `insert` and `erase` are Mathlib's, `values` lists
the stored values, `adjust` is an in-place change of one value and `mapValues` of all of
them. A hash map is iterated in an order that depends on its hash function : `valuesBy rank`
lists the values by the rank of their keys, and every order is the order of some rank.
-/

namespace LlmNotch

/-- A finite map from `α` to `β`. -/
abbrev Dict (α β : Type*) := AList fun _ : α => β

namespace Dict

variable {α β γ : Type*} [DecidableEq α]

/-- The stored values, in entry order. -/
def values (m : Dict α β) : List β :=
  m.entries.map Sigma.snd

/-- The stored values in the order of their keys' ranks. -/
def valuesBy (rank : α → ℕ) (m : Dict α β) : List β :=
  (m.entries.insertionSort fun a b => rank a.1 ≤ rank b.1).map Sigma.snd

/-- The number of entries. -/
def size (m : Dict α β) : ℕ :=
  m.entries.length

/-- Apply `f` to every entry. -/
def mapEntries (f : α → β → γ) (m : Dict α β) : Dict α γ :=
  ⟨m.entries.map fun e => ⟨e.1, f e.1 e.2⟩, by
    have h := m.nodupKeys
    simpa [List.NodupKeys, List.keys, Function.comp_def] using h⟩

/-- Apply `f` to every value. -/
def mapValues (f : β → γ) (m : Dict α β) : Dict α γ :=
  mapEntries (fun _ => f) m

/-- Change the value at `k` in place, if there is one. -/
def adjust (k : α) (f : β → β) (m : Dict α β) : Dict α β :=
  mapEntries (fun k' v => if k' = k then f v else v) m

theorem size_insert_le (k : α) (v : β) (m : Dict α β) : size (m.insert k v) ≤ size m + 1 := by
  have h : (List.kerase k m.entries).length ≤ m.entries.length :=
    (List.kerase_sublist k m.entries).length_le
  simpa [size, AList.entries_insert] using h

theorem size_erase_le (k : α) (m : Dict α β) : size (m.erase k) ≤ size m :=
  (List.kerase_sublist k m.entries).length_le

theorem lookup_insert_ite (k k' : α) (v : β) (m : Dict α β) :
    (m.insert k v).lookup k' = if k' = k then some v else m.lookup k' := by
  by_cases h : k' = k
  · subst h
    simp
  · rw [if_neg h, AList.lookup_insert_ne h]

theorem lookup_erase_ite (k k' : α) (m : Dict α β) :
    (m.erase k).lookup k' = if k' = k then none else m.lookup k' := by
  by_cases h : k' = k
  · subst h
    simp
  · rw [if_neg h, AList.lookup_erase_ne h]

theorem lookup_mapEntries (f : α → β → γ) (m : Dict α β) (k : α) :
    (mapEntries f m).lookup k = (m.lookup k).map (f k) :=
  List.dlookup_map₂ k

theorem lookup_mapValues (f : β → γ) (m : Dict α β) (k : α) :
    (mapValues f m).lookup k = (m.lookup k).map f :=
  lookup_mapEntries _ m k

theorem lookup_adjust (k k' : α) (f : β → β) (m : Dict α β) :
    (adjust k f m).lookup k' = if k' = k then (m.lookup k).map f else m.lookup k' := by
  unfold adjust
  rw [lookup_mapEntries]
  by_cases h : k' = k
  · subst h
    simp
  · simp [h]

variable {m : Dict α β}

omit [DecidableEq α] in
theorem mapEntries_congr {f g : α → β → γ} (h : ∀ e ∈ m.entries, f e.1 e.2 = g e.1 e.2) :
    mapEntries f m = mapEntries g m := by
  refine AList.ext (List.map_congr_left fun e he => ?_)
  rw [h e he]

/-- Writing back what is stored changes nothing. -/
theorem adjust_self {k : α} {v : β} (h : m.lookup k = some v) : adjust k (fun _ => v) m = m := by
  have hid : adjust k (fun _ => v) m = mapEntries (fun _ v => v) m := by
    refine mapEntries_congr fun e he => ?_
    split
    · rename_i hk
      have hlookup : m.lookup e.1 = some e.2 := AList.mem_lookup_iff.2 he
      rw [hk, h] at hlookup
      exact Option.some.inj hlookup
    · rfl
  rw [hid]
  exact AList.ext (List.map_id _)

/-- The last of two writes counts. -/
theorem adjust_adjust (k : α) (v w : β) (m : Dict α β) :
    adjust k (fun _ => w) (adjust k (fun _ => v) m) = adjust k (fun _ => w) m := by
  refine AList.ext ?_
  simp only [adjust, mapEntries, List.map_map]
  refine List.map_congr_left fun e _ => ?_
  by_cases hk : e.1 = k
  · simp [hk]
  · simp [hk]

theorem size_erase_of_lookup {k : α} (h : (m.lookup k).isSome = true) :
    size (m.erase k) + 1 = size m := by
  have hkeys : ∀ n : Dict α β, size n = n.keys.length := fun n => (List.length_map _).symm
  have hmem : k ∈ m.keys := AList.lookup_isSome.1 h
  rw [hkeys, hkeys, AList.keys_erase, List.length_erase_of_mem hmem]
  have hpos := List.length_pos_of_mem hmem
  omega

omit [DecidableEq α] in
@[simp] theorem size_mapEntries (f : α → β → γ) (m : Dict α β) :
    size (mapEntries f m) = size m :=
  List.length_map _

theorem size_insert_of_lookup {k : α} (h : (m.lookup k).isSome = true) (v : β) :
    size (m.insert k v) = size m := by
  have hkeys : ∀ n : Dict α β, size n = n.keys.length := fun n => (List.length_map _).symm
  have hmem : k ∈ m.keys := AList.lookup_isSome.1 h
  rw [hkeys, hkeys, AList.keys_insert, List.length_cons, List.length_erase_of_mem hmem]
  have hpos := List.length_pos_of_mem hmem
  omega

/-- A stored value is stored under some key. -/
theorem mem_values {v : β} : v ∈ values m ↔ ∃ k, m.lookup k = some v := by
  constructor
  · intro h
    obtain ⟨⟨k, w⟩, he, rfl⟩ := List.mem_map.1 h
    exact ⟨k, AList.mem_lookup_iff.2 he⟩
  · rintro ⟨k, h⟩
    exact List.mem_map.2 ⟨⟨k, v⟩, AList.mem_lookup_iff.1 h, rfl⟩

omit [DecidableEq α] in
theorem valuesBy_perm (rank : α → ℕ) (m : Dict α β) : (valuesBy rank m).Perm (values m) :=
  (List.perm_insertionSort _ _).map _

theorem mem_valuesBy {rank : α → ℕ} {v : β} : v ∈ valuesBy rank m ↔ ∃ k, m.lookup k = some v :=
  (valuesBy_perm rank m).mem_iff.trans mem_values

/-- Values that name their own key are as distinct as the keys. -/
theorem nodup_valuesBy_map {f : β → α} (h : ∀ k v, m.lookup k = some v → f v = k) (rank : α → ℕ) :
    ((valuesBy rank m).map f).Nodup := by
  have hkeys : (values m).map f = m.keys := by
    unfold values AList.keys List.keys
    rw [List.map_map]
    exact List.map_congr_left fun e he => h e.1 e.2 (AList.mem_lookup_iff.2 he)
  rw [((valuesBy_perm rank m).map f).nodup_iff, hkeys]
  exact m.keys_nodup

end Dict

end LlmNotch
