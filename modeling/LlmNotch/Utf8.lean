import Mathlib.Data.List.Basic

/-!
# Text and its bytes

A text is read from bytes in two ways : `decode` fails if the bytes are no UTF-8, `lossy` puts
U+FFFD in the place of every broken part, as `from_utf8_lossy` does. On the bytes of a text both
give the text back (`decode_encode`, `lossy_encode`).
-/

namespace LlmNotch

namespace Utf8

/-- The bytes of a text. -/
def encode (text : String) : List UInt8 :=
  text.toUTF8.data.toList

def decode (bytes : List UInt8) : Option String :=
  String.fromUTF8? ⟨bytes.toArray⟩

/-- The first character, if the bytes start with one. -/
def firstChar (bytes : List UInt8) : Option Char :=
  (⟨bytes.toArray⟩ : ByteArray).utf8DecodeChar? 0

def isContinuation (b : UInt8) : Bool :=
  0x80 ≤ b && b ≤ 0xBF

/-- The two bytes start a character of three or four bytes. -/
def startsLong (b c : UInt8) : Bool :=
  b == 0xE0 && 0xA0 ≤ c && c ≤ 0xBF ||
  0xE1 ≤ b && b ≤ 0xEC && isContinuation c ||
  b == 0xED && 0x80 ≤ c && c ≤ 0x9F ||
  0xEE ≤ b && b ≤ 0xEF && isContinuation c ||
  b == 0xF0 && 0x90 ≤ c && c ≤ 0xBF ||
  0xF1 ≤ b && b ≤ 0xF3 && isContinuation c ||
  b == 0xF4 && 0x80 ≤ c && c ≤ 0x8F

/-- How many bytes one U+FFFD stands for, where no character starts : the longest start of a
character, or one byte. -/
def brokenLen : List UInt8 → ℕ
  | b :: c :: d :: _ =>
    if startsLong b c then if 0xF0 ≤ b && isContinuation d then 3 else 2 else 1
  | [b, c] => if startsLong b c then 2 else 1
  | _ => 1

/-- The characters of at most `fuel` steps. -/
def lossyChars : ℕ → List UInt8 → List Char
  | 0, _ => []
  | _, [] => []
  | fuel + 1, bytes => match firstChar bytes with
    | some c => c :: lossyChars fuel (bytes.drop c.utf8Size)
    | none => Char.ofNat 0xFFFD :: lossyChars fuel (bytes.drop (brokenLen bytes))

def lossy (bytes : List UInt8) : String :=
  String.ofList (lossyChars bytes.length bytes)

theorem decode_encode (text : String) : decode (encode text) = some text := by
  have hbytes : (⟨(encode text).toArray⟩ : ByteArray) = text.toByteArray := rfl
  rw [decode, hbytes, String.fromUTF8?, dif_pos text.isValidUTF8]
  rfl

/-- What is read as a text is its bytes. -/
theorem encode_of_decode {bytes : List UInt8} {text : String} (h : decode bytes = some text) :
    encode text = bytes := by
  rw [decode, String.fromUTF8?] at h
  split at h
  · cases h
    rfl
  · cases h

theorem encode_ofList (cs : List Char) :
    encode (String.ofList cs) = cs.flatMap String.utf8EncodeChar := by
  rw [encode, String.toUTF8_eq_toByteArray, String.toByteArray_ofList, List.utf8Encode,
    List.data_toByteArray]

/-- Bytes that start with a character give that character. -/
theorem firstChar_encode (c : Char) (rest : List UInt8) :
    firstChar (String.utf8EncodeChar c ++ rest) = some c := by
  have hbytes : (⟨(String.utf8EncodeChar c ++ rest).toArray⟩ : ByteArray) =
      (String.utf8EncodeChar c).toByteArray ++ rest.toByteArray := by
    rw [← List.toByteArray_append]
    exact ByteArray.ext List.data_toByteArray.symm
  rw [firstChar, hbytes, ByteArray.utf8DecodeChar?_utf8EncodeChar_append]

theorem lossyChars_encode (cs : List Char) (fuel : ℕ)
    (h : (encode (String.ofList cs)).length ≤ fuel) :
    lossyChars fuel (encode (String.ofList cs)) = cs := by
  rw [encode_ofList] at h ⊢
  induction cs generalizing fuel with
  | nil => cases fuel <;> rfl
  | cons c cs ih =>
    have hlen : (String.utf8EncodeChar c).length = c.utf8Size := String.length_utf8EncodeChar c
    have hpos : 0 < c.utf8Size := c.utf8Size_pos
    rw [List.flatMap_cons] at h ⊢
    rw [List.length_append, hlen] at h
    obtain ⟨fuel, rfl⟩ : ∃ n, fuel = n + 1 := ⟨fuel - 1, by omega⟩
    have hne : String.utf8EncodeChar c ++ cs.flatMap String.utf8EncodeChar ≠ [] := by
      intro hnil
      rw [(List.append_eq_nil_iff.1 hnil).1, List.length_nil] at hlen
      omega
    rw [lossyChars, firstChar_encode]
    · dsimp only
      rw [← hlen, List.drop_left, ih fuel (by omega)]
    · exact hne

theorem lossy_encode (text : String) : lossy (encode text) = text := by
  have hchars := lossyChars_encode text.toList _ Nat.le.refl
  rw [String.ofList_toList] at hchars
  rw [lossy, hchars, String.ofList_toList]

example : lossy [0xF0, 0x90, 0x41, 0xE2, 0x82] =
    String.ofList [Char.ofNat 0xFFFD, 'A', Char.ofNat 0xFFFD] := by
  decide

end Utf8

end LlmNotch
