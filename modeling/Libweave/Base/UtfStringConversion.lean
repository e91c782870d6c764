import Mathlib.Data.List.Basic

/-!
# Writing one Unicode character as UTF-8

`WriteUnicodeCharacter` (`base/strings/utf_string_conversion_utils.cc`) appends the UTF-8 bytes of
a code point to a string and returns how many it appended.  A code point up to `0x7f` takes a fast
path that pushes its one byte.  Any other grows the string by `CBU8_MAX_LENGTH` bytes of room, lets
the ICU macro `CBU8_APPEND_UNSAFE` store its bytes from the old end on, advancing the offset past
them, and cuts the string back to the offset.

The macro's bytes come from `base/third_party/icu/icu_utf.h`, which is not among the sources: here
they are a parameter `encode`, and its stores are modelled as the macro makes them, one byte after
another from the offset (`appendUnsafe`).

Main result, `writeUnicodeCharacter_eq`: for every code point the macro encodes in at most
`CBU8_MAX_LENGTH` bytes, and encodes as its own byte when it is at most `0x7f`,
`WriteUnicodeCharacter` appends exactly the macro's bytes and returns their number.  The fast path
agrees with the macro, and none of the room reserved for it is left in the string.
-/

namespace Libweave

namespace base

/-- `CBU8_MAX_LENGTH`: `CBU8_APPEND_UNSAFE` can append up to 4 bytes. -/
def cbu8MaxLength : Nat := 4

/-- `std::string::resize`: the first `n` bytes, padded with NUL bytes up to `n`. -/
def resize (s : List UInt8) (n : Nat) : List UInt8 :=
  s.take n ++ List.replicate (n - s.length) 0

/-- The stores of `CBU8_APPEND_UNSAFE(s, i, c)`: `(s)[(i)++] = b` for each byte `b` the macro
computes for the code point, in order; the string and the offset after them. -/
def appendUnsafe (s : List UInt8) (i : Nat) : List UInt8 → List UInt8 × Nat
  | [] => (s, i)
  | b :: bytes => appendUnsafe (s.set i b) (i + 1) bytes

@[simp] lemma resize_length_add (s : List UInt8) (k : Nat) :
    resize s (s.length + k) = s ++ List.replicate k 0 := by
  simp [resize]

/-- Cutting back to a prefix's length leaves the prefix. -/
lemma resize_append_of_length {s t : List UInt8} {n : Nat} (h : s.length = n) :
    resize (s ++ t) n = s := by
  simp [resize, List.take_left' h, ← h]

/-- The macro's stores, into a string with room for them, replace the bytes from the offset on. -/
lemma appendUnsafe_eq (bytes s : List UInt8) (i : Nat) (h : i + bytes.length ≤ s.length) :
    appendUnsafe s i bytes = (s.take i ++ bytes ++ s.drop (i + bytes.length), i + bytes.length) := by
  induction bytes generalizing s i with
  | nil => simp [appendUnsafe]
  | cons b bytes ih =>
    have hi : i < s.length := by simp only [List.length_cons] at h; omega
    have hset : (s.set i b).take (i + 1) = s.take i ++ [b] := by
      rw [List.set_eq_take_append_cons_drop, if_pos hi, List.take_append_eq_append_take]
      simp [Nat.min_eq_left hi.le, Nat.add_sub_cancel_left, hi.le]
    rw [appendUnsafe, ih _ _ (by simp only [List.length_set, List.length_cons] at h ⊢; omega),
      hset, List.drop_set_of_lt _ _ (by omega)]
    simp [Nat.add_right_comm i 1, Nat.add_assoc]

section Write

-- The bytes `CBU8_APPEND_UNSAFE` computes for a code point.
variable (encode : UInt32 → List UInt8)

/-- `WriteUnicodeCharacter`: the number of bytes appended, and the string after. -/
def writeUnicodeCharacter (codePoint : UInt32) (output : List UInt8) : Nat × List UInt8 :=
  if codePoint ≤ 0x7f then
    (1, output ++ [codePoint.toUInt8])
  else
    let charOffset := output.length
    let originalCharOffset := charOffset
    let (buffer, charOffset) :=
      appendUnsafe (resize output (charOffset + cbu8MaxLength)) charOffset (encode codePoint)
    (charOffset - originalCharOffset, resize buffer charOffset)

/-- Whichever path it takes, `WriteUnicodeCharacter` appends exactly the bytes the macro computes
for the code point and returns their number: the fast path agrees with the macro, and the room
reserved for the macro never shows in the string. -/
theorem writeUnicodeCharacter_eq (codePoint : UInt32) (output : List UInt8)
    (hmax : (encode codePoint).length ≤ cbu8MaxLength)
    (hascii : codePoint ≤ 0x7f → encode codePoint = [codePoint.toUInt8]) :
    writeUnicodeCharacter encode codePoint output =
      ((encode codePoint).length, output ++ encode codePoint) := by
  unfold writeUnicodeCharacter
  split
  case isTrue h => rw [hascii h]; rfl
  case isFalse =>
    have hroom : output.length + (encode codePoint).length ≤
        (resize output (output.length + cbu8MaxLength)).length := by
      simp only [resize_length_add, List.length_append, List.length_replicate]
      omega
    dsimp only
    rw [appendUnsafe_eq _ _ _ hroom, resize_length_add,
      List.take_left' rfl, resize_append_of_length (List.length_append _ _)]
    simp

/-- The euro sign, written after an ASCII letter with the macro's UTF-8 bytes. -/
theorem writeUnicodeCharacter_eq_euro :
    let encode := fun codePoint : UInt32 => String.utf8EncodeChar (Char.ofNat codePoint.toNat)
    (encode 0x20AC).length ≤ cbu8MaxLength ∧
      ((0x20AC : UInt32) ≤ 0x7f → encode 0x20AC = [(0x20AC : UInt32).toUInt8]) ∧
      writeUnicodeCharacter encode 0x20AC [0x41] =
        ((encode 0x20AC).length, [0x41] ++ encode 0x20AC) :=
  ⟨by decide, by decide, writeUnicodeCharacter_eq _ 0x20AC [0x41] (by decide) (by decide)⟩

end Write

end base

end Libweave
