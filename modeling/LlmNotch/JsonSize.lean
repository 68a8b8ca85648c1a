import LlmNotch.JsonValue
import Mathlib.Algebra.BigOperators.Group.List.Basic
import Mathlib.Algebra.GroupWithZero.Nat

/-!
# The size of JSON text

Bounds on the number of bytes of the compact text of a value. `size_quote_le` bounds the text
of a string by six bytes a byte, the length of the longest escape; `size_intText_le` a number
by its digits; `size_obj_le` an object by its fields.
-/

namespace LlmNotch

namespace Json

/-- The number of bytes of a text. -/
abbrev size (s : String) : ℕ := s.utf8ByteSize

/-! ## Strings -/

theorem utf8Size_hexDigit : ∀ n < 16, (hexDigit n).utf8Size = 1 := by
  decide

/-- A character is escaped to at most six bytes for each of its own. -/
theorem utf8Len_escapeChar_le (c : Char) : String.utf8Len (escapeChar c) ≤ 6 * c.utf8Size := by
  have hpos := c.utf8Size_pos
  have hshort : ∀ d : Char, d.utf8Size = 1 → String.utf8Len ['\\', d] ≤ 6 * c.utf8Size := by
    intro d hd
    have hbackslash : ('\\').utf8Size = 1 := by decide
    simp only [String.utf8Len_cons, String.utf8Len_nil, hd, hbackslash]
    omega
  unfold escapeChar
  split
  · exact hshort _ (by decide)
  split
  · exact hshort _ (by decide)
  split
  · exact hshort _ (by decide)
  split
  · exact hshort _ (by decide)
  split
  · exact hshort _ (by decide)
  split
  · exact hshort _ (by decide)
  split
  · exact hshort _ (by decide)
  split
  · rename_i hcontrol
    have hhigh := utf8Size_hexDigit (c.toNat / 16) (by omega)
    have hlow := utf8Size_hexDigit (c.toNat % 16) (Nat.mod_lt _ (by decide))
    have hfixed : ('\\').utf8Size = 1 ∧ ('u').utf8Size = 1 ∧ ('0').utf8Size = 1 := by decide
    obtain ⟨hbackslash, hu, hzero⟩ := hfixed
    simp only [String.utf8Len_cons, String.utf8Len_nil, hhigh, hlow, hbackslash, hu, hzero]
    omega
  · simp only [String.utf8Len_cons, String.utf8Len_nil]
    omega

theorem utf8Len_escaped_le (s : List Char) :
    String.utf8Len (s.flatMap escapeChar) ≤ 6 * String.utf8Len s := by
  induction s with
  | nil => simp
  | cons c s ih =>
    have hc := utf8Len_escapeChar_le c
    rw [List.flatMap_cons, String.utf8Len_append, String.utf8Len_cons]
    omega

/-- The text of a string has at most six bytes a byte, and the quotes. -/
theorem size_quote_le (s : String) : size (quote s) ≤ 6 * size s + 2 := by
  have hquote : size "\"" = 1 := by decide
  have hescaped := utf8Len_escaped_le s.toList
  rw [String.utf8Len_toList] at hescaped
  simp only [quote, size, String.utf8ByteSize_append, String.utf8ByteSize_ofList] at hquote ⊢
  omega

/-! ## Numbers -/

/-- The text of an integer. -/
def intText (n : ℤ) : String :=
  if n < 0 then "-" ++ n.natAbs.repr else n.natAbs.repr

theorem utf8Len_of_ascii {s : List Char} (h : ∀ c ∈ s, c.utf8Size = 1) :
    String.utf8Len s = s.length := by
  induction s with
  | nil => rfl
  | cons c s ih =>
    rw [String.utf8Len_cons, h c (by simp), ih fun d hd => h d (List.mem_cons_of_mem c hd),
      List.length_cons]

theorem utf8Size_of_isDigit {c : Char} (h : c.isDigit = true) : c.utf8Size = 1 := by
  simp only [Char.isDigit, ge_iff_le, Bool.and_eq_true, decide_eq_true_eq] at h
  have hle : c.val ≤ 0x7f := UInt32.le_trans h.2 (show (57 : UInt32) ≤ 0x7f by decide)
  simp [Char.utf8Size, hle]

theorem size_repr_le {n k : ℕ} (hk : 0 < k) (h : n < 10 ^ k) : size n.repr ≤ k := by
  have hascii : ∀ c ∈ Nat.toDigits 10 n, c.utf8Size = 1 :=
    fun c hc => utf8Size_of_isDigit (Nat.isDigit_of_mem_toDigits (by decide) (by decide) hc)
  have hlength := (Nat.length_toDigits_le_iff (by decide) hk).2 h
  rw [size, Nat.repr_eq_ofList_toDigits, String.utf8ByteSize_ofList, utf8Len_of_ascii hascii]
  exact hlength

/-- A number of `k` digits and its sign. -/
theorem size_intText_le {n : ℤ} {k : ℕ} (hk : 0 < k) (h : n.natAbs < 10 ^ k) :
    size (intText n) ≤ k + 1 := by
  have hdigits := size_repr_le hk h
  have hminus : size "-" = 1 := by decide
  simp only [size] at hdigits hminus
  unfold intText
  split
  · simp only [size, String.utf8ByteSize_append]
    omega
  · simp only [size]
    omega

/-! ## Objects -/

/-- The size of a field and the comma after it. -/
def fieldSize (e : String × Json) : ℕ :=
  size (quote e.1) + size e.2.text + 2

theorem size_textFields_le (fields : List (String × Json)) :
    size (textFields fields) ≤ (fields.map fieldSize).sum := by
  have hcolon : size ":" = 1 := by decide
  have hcomma : size "," = 1 := by decide
  simp only [size] at hcolon hcomma
  induction fields with
  | nil => simp [textFields]
  | cons e rest ih =>
    obtain ⟨k, v⟩ := e
    cases rest with
    | nil =>
      simp only [textFields, String.utf8ByteSize_append, List.map_cons, List.map_nil,
        List.sum_cons, List.sum_nil, fieldSize, size]
      omega
    | cons f rest =>
      simp only [textFields, String.utf8ByteSize_append, List.map_cons, List.sum_cons, fieldSize,
        size] at ih ⊢
      omega

/-- An object is no larger than its fields and braces. -/
theorem size_obj_le (fields : List (String × Json)) :
    size (obj fields).text ≤ (fields.map fieldSize).sum + 2 := by
  have hfields := size_textFields_le fields
  have hbraces : size "\x7b" = 1 ∧ size "\x7d" = 1 := by decide
  simp only [size] at hfields hbraces
  simp only [text, size, String.utf8ByteSize_append]
  omega

theorem fieldSize_str_le (key s : String) :
    fieldSize (key, .str s) ≤ size (quote key) + 6 * size s + 4 := by
  have hquote := size_quote_le s
  simp only [fieldSize, text] at hquote ⊢
  omega

end Json

end LlmNotch
