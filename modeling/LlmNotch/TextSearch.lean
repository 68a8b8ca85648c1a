import LlmNotch.RustText
import Mathlib.Data.List.Infix

/-!
# Searching and replacing in a text

More functions of the Rust standard library on character lists : `str::find`, `str::replace`
and the splitting at white space. `contains` is being an infix (`contains_iff`), so that a
character the needle does not have separates its occurrences (`infix_separated`), and
`replace` leaves alone what has no occurrence (`replace_once`).
-/

namespace LlmNotch

namespace RustText

/-! ## Functions -/

/-- `str::trim_start`. -/
def trimStart (s : List Char) : List Char :=
  s.dropWhile isWhitespace

/-- The text before the first occurrence of `needle` and the text from there on. -/
def find (needle : List Char) : List Char → Option (List Char × List Char)
  | [] => if needle = [] then some ([], []) else none
  | c :: rest =>
    if needle.isPrefixOf (c :: rest) then some ([], c :: rest)
    else (find needle rest).map fun p => (c :: p.1, p.2)

/-- `str::replace` where the next `skip` characters belong to an occurrence already replaced. -/
def replaceFrom (needle text : List Char) : ℕ → List Char → List Char
  | _, [] => []
  | skip + 1, _ :: rest => replaceFrom needle text skip rest
  | 0, c :: rest =>
    if needle.isPrefixOf (c :: rest) then text ++ replaceFrom needle text (needle.length - 1) rest
    else c :: replaceFrom needle text 0 rest

/-- `str::replace` of a needle that is not empty. -/
def replace (needle text s : List Char) : List Char :=
  replaceFrom needle text 0 s

/-- `str::strip_suffix`. -/
def stripSuf (suf s : List Char) : Option (List Char) :=
  if suf.isSuffixOf s then some (s.take (s.length - suf.length)) else none

/-- `str::split_whitespace`. -/
def splitWhitespace (s : List Char) : List (List Char) :=
  (s.splitOnP isWhitespace).filter (· ≠ [])

/-! ## Occurrences -/

variable {needle text : List Char}

theorem contains_iff {s : List Char} : contains needle s = true ↔ needle <:+: s := by
  simp only [contains, List.any_eq_true, List.mem_tails, List.isPrefixOf_iff_prefix]
  constructor
  · rintro ⟨t, ht, hpre⟩
    exact hpre.isInfix.trans ht.isInfix
  · intro h
    obtain ⟨t, hpre, ht⟩ := List.infix_iff_prefix_suffix.1 h
    exact ⟨t, ht, hpre⟩

variable {c : Char}

/-- An occurrence stays on one side of a character it does not have. -/
theorem infix_separated (hc : c ∉ needle) (before after : List Char) :
    needle <:+: before ++ c :: after ↔ needle <:+: before ∨ needle <:+: after := by
  constructor
  · rintro ⟨s, t, h⟩
    rw [List.append_assoc] at h
    rcases List.append_eq_append_iff.1 h with ⟨rest, rfl, hrest⟩ | ⟨rest, rfl, hrest⟩
    · rcases List.append_eq_append_iff.1 hrest with ⟨rest', rfl, -⟩ | ⟨rest', rfl, hafter⟩
      · exact .inl ⟨s, rest', by simp⟩
      · cases rest' with
        | nil => exact .inl ⟨s, [], by simp⟩
        | cons d rest' =>
          obtain ⟨rfl, -⟩ := List.cons.inj hafter
          simp at hc
    · cases rest with
      | nil =>
        cases needle with
        | nil => exact .inl (List.nil_infix)
        | cons d needle =>
          obtain ⟨rfl, -⟩ := List.cons.inj hrest
          simp at hc
      | cons d rest =>
        obtain ⟨rfl, rfl⟩ := List.cons.inj hrest
        exact .inr ⟨rest, t, by simp⟩
  · rintro (h | h)
    · exact List.infix_append_of_infix_left h
    · exact h.trans ((List.suffix_cons _ _).isInfix.trans (List.suffix_append _ _).isInfix)

theorem not_infix_of_notMem (hc : c ∈ needle) {s : List Char} (h : c ∉ s) : ¬ needle <:+: s :=
  fun hinf => h (hinf.subset hc)

/-! ## Replacing -/

theorem replaceFrom_skip (matched s : List Char) :
    replaceFrom needle text matched.length (matched ++ s) = replaceFrom needle text 0 s := by
  induction matched with
  | nil => rfl
  | cons c matched ih => exact ih

/-- What comes before the first character of the needle stays. -/
theorem replaceFrom_before (text : List Char) {rest : List Char} (before s : List Char)
    (h : c ∉ before) :
    replaceFrom (c :: rest) text 0 (before ++ s) =
      before ++ replaceFrom (c :: rest) text 0 s := by
  induction before with
  | nil => rfl
  | cons d before ih =>
    have hne : (c :: rest).isPrefixOf (d :: (before ++ s)) = false := by
      simp [List.isPrefixOf, List.ne_of_not_mem_cons h]
    simp only [List.cons_append, replaceFrom, hne, Bool.false_eq_true, if_false,
      ih (List.not_mem_of_not_mem_cons h)]

/-- One occurrence, between texts that do not have the needle's first character. -/
theorem replace_once {rest before after : List Char} (hbefore : c ∉ before) (hafter : c ∉ after) :
    replace (c :: rest) text (before ++ (c :: rest) ++ after) = before ++ text ++ after := by
  have hhere : (c :: rest).isPrefixOf (c :: (rest ++ after)) = true := by
    rw [List.isPrefixOf_iff_prefix]
    exact List.prefix_append _ _
  have hend : replaceFrom (c :: rest) text 0 (after ++ []) =
      after ++ replaceFrom (c :: rest) text 0 [] := replaceFrom_before text after [] hafter
  rw [List.append_nil] at hend
  rw [replace, List.append_assoc, replaceFrom_before _ _ _ hbefore, List.cons_append, replaceFrom,
    if_pos hhere, List.length_cons, Nat.add_sub_cancel, replaceFrom_skip, hend, replaceFrom,
    List.append_nil, List.append_assoc]

/-! ## White space at the ends -/

/-- A trimmed text that starts without white space keeps its start up to any character that is
no white space. -/
theorem trim_keeps {d : Char} (hc : isWhitespace c = false) (hd : isWhitespace d = false)
    (middle rest : List Char) :
    ∃ rest', rest' <+: rest ∧
      trim (c :: (middle ++ d :: rest)) = c :: (middle ++ d :: rest') := by
  have hstart : (c :: (middle ++ d :: rest)).dropWhile isWhitespace = c :: (middle ++ d :: rest) :=
    List.dropWhile_cons_of_neg (by simp [hc])
  have hback : (c :: (middle ++ d :: rest)).reverse =
      rest.reverse ++ (d :: (middle.reverse ++ [c])) := by
    simp
  rw [trim, hstart, hback, List.dropWhile_append]
  split
  · refine ⟨[], List.nil_prefix, ?_⟩
    rw [List.dropWhile_cons_of_neg (by simp [hd])]
    simp
  · refine ⟨(rest.reverse.dropWhile isWhitespace).reverse, ?_, by simp⟩
    rw [← List.reverse_suffix, List.reverse_reverse]
    exact List.dropWhile_suffix _

end RustText

end LlmNotch
