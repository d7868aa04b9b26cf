/-!
# Text and its bytes

`Bytes` is a list of octets. `Utf8.encode` gives the UTF-8 bytes of a text and `Utf8.decode?` reads
them back. Bytes that are read are the encoding of what was read, and every encoding is read
(`decode?_eq_some_iff`).
-/

namespace MemoTransfer

/-- A sequence of octets. -/
abbrev Bytes := List UInt8

/-- The length of a text in UTF-8 bytes. -/
def byteLength (s : String) : Nat := s.utf8ByteSize

namespace Utf8

/-- The UTF-8 bytes of a text. -/
def encode (s : String) : Bytes := s.toByteArray.data.toList

/-- The text that the bytes encode, if they are well-formed UTF-8. -/
def decode? (bs : Bytes) : Option String := String.fromUTF8? ⟨bs.toArray⟩

theorem decode?_encode (s : String) : decode? (encode s) = some s := by
  have h : decode? (encode s) = String.fromUTF8? s.toByteArray := by
    simp only [decode?, encode, Array.toArray_toList]
  rw [h, String.fromUTF8?, dif_pos s.isValidUTF8]
  rfl

theorem decode?_eq_some_iff {bs : Bytes} {s : String} : decode? bs = some s ↔ bs = encode s := by
  constructor
  · intro h
    simp only [decode?, String.fromUTF8?] at h
    split at h
    · obtain rfl := Option.some.inj h
      simp [encode, String.fromUTF8]
    · simp at h
  · rintro rfl
    exact decode?_encode s

theorem length_encode (s : String) : (encode s).length = byteLength s := by
  simp only [encode, byteLength, Array.length_toList]
  rfl

end Utf8

end MemoTransfer
