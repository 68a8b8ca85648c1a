import LlmNotch.JsonSize

/-!
# Reading records from JSON

How a record is read from a JSON value. An object gives the fields by name, an array by position
(`structFields`); a field of the record must not stand there twice (`namedOnce`); a field that may
be missing may also be `null` (`optionalOf`). A number is read as an integer if it is written as
one (`asInt`).

A writer leaves out a field that has no value. The lemmas compute `fieldOf` and the names of the
objects it makes.
-/

namespace LlmNotch

namespace Json

/-! ## Integers -/

/-- The integer of a number that has no fraction and no exponent. -/
def asInt : Json → Option ℤ
  | num digits =>
    let n : ℤ := match digits.toList with
      | '-' :: rest => -(Nat.ofDigitChars 10 rest 0 : ℤ)
      | all => (Nat.ofDigitChars 10 all 0 : ℤ)
    if intText n = digits then some n else none
  | _ => none

def asInt64 (v : Json) : Option Int64 :=
  v.asInt.bind fun n => if -2 ^ 63 ≤ n ∧ n < 2 ^ 63 then some (Int64.ofInt n) else none

theorem ofDigitChars_repr (n : ℕ) : Nat.ofDigitChars 10 n.repr.toList 0 = n := by
  rw [Nat.repr_eq_ofList_toDigits, String.toList_ofList]
  exact Nat.ofDigitChars_toDigits (by decide) (by decide)

theorem repr_ne_minus (n : ℕ) (rest : List Char) : n.repr.toList ≠ '-' :: rest := by
  intro h
  rw [Nat.repr_eq_ofList_toDigits, String.toList_ofList] at h
  have hmem : '-' ∈ Nat.toDigits 10 n := by
    rw [h]
    exact List.mem_cons_self
  have hdigit : '-'.isDigit = true := Nat.isDigit_of_mem_toDigits (by decide) (by decide) hmem
  cases hdigit

/-- The text of an integer is read back. -/
theorem asInt_intText (n : ℤ) : (num (intText n)).asInt = some n := by
  have hvalue : (match (intText n).toList with
      | '-' :: rest => -(Nat.ofDigitChars 10 rest 0 : ℤ)
      | all => (Nat.ofDigitChars 10 all 0 : ℤ)) = n := by
    by_cases hneg : n < 0
    · have htext : (intText n).toList = '-' :: n.natAbs.repr.toList := by
        rw [intText, if_pos hneg, String.toList_append]
        rfl
      rw [htext]
      simp only [ofDigitChars_repr]
      rw [Int.ofNat_natAbs_of_nonpos hneg.le, neg_neg]
    · have htext : (intText n).toList = n.natAbs.repr.toList := by
        rw [intText, if_neg hneg]
      rw [htext]
      split
      · next rest hrest => exact (repr_ne_minus _ rest hrest).elim
      · rw [ofDigitChars_repr, Int.natAbs_of_nonneg (Int.not_lt.1 hneg)]
  simp only [asInt, hvalue, if_true]

theorem asInt64_intText (n : Int64) : (num (intText n.toInt)).asInt64 = some n := by
  rw [asInt64, asInt_intText, Option.bind_some, if_pos ⟨n.le_toInt, n.toInt_lt⟩, Int64.ofInt_toInt]

/-! ## Records -/

/-- The fields of a record with these names. -/
def structFields (names : List String) : Json → Option (List (String × Json))
  | obj fields => some fields
  | arr items => if items.length ≤ names.length then some (names.zip items) else none
  | _ => none

/-- No field of the record is there twice. -/
def namedOnce (names : List String) (fields : List (String × Json)) : Bool :=
  ((fields.map Prod.fst).filter (· ∈ names)).Nodup

/-- All fields belong to the record. -/
def noneUnknown (names : List String) (fields : List (String × Json)) : Bool :=
  fields.all fun field => field.1 ∈ names

/-- A field that may be missing. -/
def optionalOf {α : Type} (read : Json → Option α) (key : String)
    (fields : List (String × Json)) : Option (Option α) :=
  match fieldOf key fields with
  | none | some null => some none
  | some v => (read v).map some

/-! ## Objects with optional fields -/

variable {α : Type} {key : String} {toJson : α → Json} {value : Option α}

theorem fieldOf_append (key : String) (fields rest : List (String × Json)) :
    fieldOf key (fields ++ rest) = (fieldOf key fields).or (fieldOf key rest) := by
  induction fields with
  | nil => rfl
  | cons field fields ih =>
    simp only [List.cons_append, fieldOf]
    split_ifs
    · rfl
    · exact ih

theorem fieldOf_toList (name : String) :
    fieldOf name (value.map fun v => (key, toJson v)).toList =
      if key = name then value.map toJson else none := by
  cases value with
  | none => simp [fieldOf]
  | some v => simp [fieldOf]

theorem names_toList_sublist :
    ((value.map fun v => (key, toJson v)).toList.map Prod.fst).Sublist [key] := by
  cases value with
  | none => exact List.nil_sublist _
  | some v => exact List.Sublist.refl _

variable {fields : List (String × Json)}

/-- A field that was written for a value is read back, and one that was left out as missing. -/
theorem optionalOf_eq {read : Json → Option α} (hfield : fieldOf key fields = value.map toJson)
    (hread : ∀ v, read (toJson v) = some v) (hnull : ∀ v, toJson v ≠ null) :
    optionalOf read key fields = some value := by
  unfold optionalOf
  rw [hfield]
  cases value with
  | none => rfl
  | some v =>
    rw [Option.map_some]
    split
    · next h => cases h
    · next h => exact (hnull v (Option.some.inj h)).elim
    · next w _ h => rw [← Option.some.inj h, hread, Option.map_some]

theorem namedOnce_of_sublist {names all : List String} (h : (fields.map Prod.fst).Sublist all)
    (hall : all.Nodup) : namedOnce names fields = true := by
  refine decide_eq_true ?_
  exact (hall.sublist h).filter _

theorem noneUnknown_of_sublist {names all : List String} (h : (fields.map Prod.fst).Sublist all)
    (hall : ∀ name ∈ all, name ∈ names) : noneUnknown names fields = true := by
  refine List.all_eq_true.2 fun field hfield => decide_eq_true ?_
  exact hall _ (h.subset (List.mem_map_of_mem hfield))

end Json

end LlmNotch
