import Mathlib.Data.String.Basic

/-!
# Text functions of the Rust standard library

The string functions the code calls, on character lists. White space is the Unicode
`White_Space` property, and an unsigned integer may carry one leading `+`.
-/

namespace LlmNotch

namespace RustText

/-- The Unicode `White_Space` property. -/
def isWhitespace (c : Char) : Bool :=
  let n := c.toNat
  (9 ≤ n && n ≤ 13) || n = 32 || n = 133 || n = 160 || n = 5760 || (8192 ≤ n && n ≤ 8202) ||
    n = 8232 || n = 8233 || n = 8239 || n = 8287 || n = 12288

/-- `str::trim`. -/
def trim (s : List Char) : List Char :=
  ((s.dropWhile isWhitespace).reverse.dropWhile isWhitespace).reverse

/-- `str::trim_end_matches` for a character predicate. -/
def trimEndMatches (p : Char → Bool) (s : List Char) : List Char :=
  (s.reverse.dropWhile p).reverse

/-- `str::strip_prefix`. -/
def stripPre (pre s : List Char) : Option (List Char) :=
  if pre.isPrefixOf s then some (s.drop pre.length) else none

/-- `str::contains` for a text. -/
def contains (needle s : List Char) : Bool :=
  s.tails.any needle.isPrefixOf

/-- `char::is_ascii_digit`. -/
def isAsciiDigit (c : Char) : Bool :=
  48 ≤ c.toNat && c.toNat ≤ 57

/-- `char::is_ascii_alphanumeric`. -/
def isAsciiAlphanumeric (c : Char) : Bool :=
  isAsciiDigit c || (65 ≤ c.toNat && c.toNat ≤ 90) || (97 ≤ c.toNat && c.toNat ≤ 122)

/-- `char::to_lowercase` on an ASCII character. -/
def toAsciiLowercase (c : Char) : Char :=
  if 65 ≤ c.toNat && c.toNat ≤ 90 then Char.ofNat (c.toNat + 32) else c

/-- `str::to_ascii_lowercase`. -/
def asciiLowercase (text : String) : String :=
  String.ofList (text.toList.map toAsciiLowercase)

/-- The value of a digit string. -/
def digitsValue (s : List Char) : ℕ :=
  s.foldl (fun acc c => 10 * acc + (c.toNat - 48)) 0

/-- `str::parse::<u64>`. -/
def parseU64 (s : List Char) : Option ℕ :=
  let digits := match s with
    | '+' :: rest => rest
    | _ => s
  if digits ≠ [] ∧ digits.all isAsciiDigit ∧ digitsValue digits < 2 ^ 64 then
    some (digitsValue digits)
  else none

end RustText

end LlmNotch
